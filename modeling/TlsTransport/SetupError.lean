import TlsTransport.IoError

/-! # Errors of configuration and of connections

`SetupError` says why a context, a credential or a session could not be set up, `NetError` why an
operation on a connection failed. Each has one text, built in `message`.
-/

namespace TlsTransport

/-- The two cryptographic providers. The strict one offers the two newest protocol versions and
checks the peer's name while it verifies the chain; the classic one offers older versions, takes
cipher rules and leaves the name to the session. -/
inductive Provider where
  | strict
  | classic
  deriving DecidableEq, Repr

/-- The name under which a provider is reported. -/
def Provider.label : Provider → String
  | strict => "rustls"
  | classic => "OpenSSL"

/-- Why something could not be set up. -/
inductive SetupError where
  /-- The provider refused, for a reason of its own. -/
  | provider (which : Provider) (reason : String)
  | io (cause : IoError)
  | invalidVersion (text : String)
  | invalidConfig (reason : String)
  | certificate (reason : String)
  | invalidState (reason : String)
  | unsupported (which : Provider) (feature : String)
  deriving DecidableEq, Repr

/-- The text of a setup error. -/
def SetupError.message : SetupError → String
  | provider p reason => s!"{p.label} error: {reason}"
  | io e => s!"I/O error: {e.message}"
  | invalidVersion text => s!"Invalid TLS version: {text}"
  | invalidConfig reason => s!"Invalid configuration: {reason}"
  | certificate reason => s!"Certificate error: {reason}"
  | invalidState reason => s!"Invalid state: {reason}"
  | unsupported p feature => s!"Not supported by the {p.label} backend: {feature}"

/-- Why an operation on a connection failed. -/
inductive NetError where
  | io (cause : IoError)
  | address (text : String)
  | tls (reason : String)
  deriving DecidableEq, Repr

/-- The text of a connection error. -/
def NetError.message : NetError → String
  | io e => s!"I/O error: {e.message}"
  | address text => s!"Invalid address: {text}"
  | tls reason => s!"TLS error: {reason}"

end TlsTransport
