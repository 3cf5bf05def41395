import TlsTransport.FileTree
import TlsTransport.SetupError

/-! # Credentials

A credential is a certificate chain and its private key. How they are written depends on the
provider, which reads them through a `CredentialFormat`.
-/

namespace TlsTransport

/-- A certificate chain and its private key, each in the provider's text form. -/
structure Credential where
  chain : Bytes
  key : Bytes
  deriving DecidableEq, Repr

namespace Credential

/-- One text that holds both. -/
def ofBundle (text : Bytes) : Credential := ⟨text, text⟩

/-- Reads a credential from two files. -/
def ofFiles (files : FileTree) (chain key : String) : Except IoError Credential := do
  let chain ← files.read chain
  let key ← files.read key
  return ⟨chain, key⟩

/-- A credential as it is shown: lengths only, and of the key nothing. -/
def render (c : Credential) : String :=
  s!"Credential \x7b chain_pem: {c.chain.length}, key_pem: \"<redacted>\" \x7d"

end Credential

/-- How a provider reads certificates and keys. -/
structure CredentialFormat where
  /-- The certificates in a text, in their order. -/
  parseCertificates : Bytes → Except SetupError (List Bytes)
  /-- Whether a chain and a key load and belong together. -/
  check : Credential → Except SetupError Unit
  /-- Unpacks a key container that has no password. -/
  importContainer : Bytes → Except SetupError Credential

namespace CredentialFormat

variable (format : CredentialFormat)

/-- Reads a key container from a file. -/
def loadContainer (files : FileTree) (path : String) : Except SetupError Credential := do
  let bytes ← (files.read path).mapError .io
  let credential ← format.importContainer bytes
  if (← format.parseCertificates credential.chain).isEmpty then
    .error (.certificate "PKCS#12 file does not contain certificates")
  format.check credential
  return credential

end CredentialFormat
end TlsTransport
