import TlsTransport.Context.Config
import TlsTransport.IdentityStore
import TlsTransport.Session.Basic

/-! # Contexts

A context holds the configuration of one role and makes the sessions of that role. It is set up by
calls that either succeed or change nothing. The settings of the provider are built when they are
first needed and kept until the configuration changes.

* `Context.good`: whether the configuration can be built.
* `Context.session`: a new session with the configuration as it is.
-/

namespace TlsTransport

/-- A configuration, with the settings built from it once they were needed. -/
structure Context (κ σ : Type) where
  backend : Backend κ σ
  config : ContextConfig
  /-- Where credentials are looked up by fingerprint. -/
  store : Option IdentityStore
  /-- The settings, or the text of the error that prevents them. -/
  built : Option (Except String κ)
  /-- What was reported, oldest first. -/
  log : List LogLine

namespace Context

variable {κ σ ω ε : Type}

/-! ## New contexts -/

/-- A context without a credential that trusts nobody. -/
def initial (backend : Backend κ σ) (side : Side) (verifyPeer : Bool) : Context κ σ :=
  ⟨backend, .initial side verifyPeer, none, none, []⟩

/-- A context for clients, which verify their servers. -/
def client (backend : Backend κ σ) : Context κ σ := initial backend .client true

/-- A context for servers, which do not ask for certificates. -/
def server (backend : Backend κ σ) : Context κ σ := initial backend .server false

/-- Adds to the log. -/
def report (c : Context κ σ) (lines : List LogLine) : Context κ σ :=
  { c with log := c.log ++ lines }

/-- Takes a new configuration; what was built from the old one is dropped. -/
def configure (c : Context κ σ) (config : ContextConfig) : Context κ σ :=
  { c with config := config, built := none }

/-! ## Simple settings -/

/-- Sets whether peers are verified. -/
def setVerifyPeer (c : Context κ σ) (verify : Bool) : Context κ σ :=
  c.configure { c.config with verifyPeer := verify }

/-- Sets the oldest version that is offered. The oldest of all is refused. -/
def setMinVersion (c : Context κ σ) (version : TlsVersion) : Bool × Context κ σ :=
  if version = .ssl3 then
    (false, c.report [⟨.warn, "SSLv3 is insecure and cannot be enabled"⟩])
  else (true, c.configure { c.config with minVersion := version })

/-- Sets which suites are blocked. -/
def setPolicy (c : Context κ σ) (policy : CipherPolicy) : Context κ σ :=
  c.configure { c.config with policy := policy }

/-- Sets where credentials are looked up by fingerprint. -/
def setIdentityStore (c : Context κ σ) (store : IdentityStore) : Context κ σ :=
  { c with store := some store }

/-- Trusts the authorities that the platform trusts. -/
def trustSystem (c : Context κ σ) : Bool × Context κ σ :=
  (true, c.configure { c.config with trust := { c.config.trust with system := true } })

/-! ## Credentials -/

/-- Takes a credential. -/
def setCredential (c : Context κ σ) (credential : Credential) : Context κ σ :=
  c.configure { c.config with credential := some credential }

/-- Reads a credential from two files and checks it. -/
def readCredential (c : Context κ σ) (files : FileTree) (chain key : String) :
    Except SetupError Credential := do
  let credential ← (Credential.ofFiles files chain key).mapError .io
  c.backend.format.check credential
  return credential

/-- Takes the credential in two files. -/
def addCredentialFiles (c : Context κ σ) (files : FileTree) (chain key : String) :
    Bool × Context κ σ :=
  match c.readCredential files chain key with
  | .ok credential =>
    (true, (c.report [⟨.debug, s!"loaded credential from {chain}"⟩]).setCredential credential)
  | .error e =>
    (false, c.report [⟨.warn, s!"failed to load credential {chain} / {key}: {e.message}"⟩])

/-- The credential that a text names by its fingerprint, with what is reported of the search. -/
def lookUp (c : Context κ σ) (text : String) : Option Credential × List LogLine :=
  match normalizeFingerprint text, c.store with
  | none, _ =>
    (none, [⟨.debug, s!"{text} is not a fingerprint, invalid hash representation"⟩])
  | some f, none => (none, [⟨.debug, s!"no identity store configured for fingerprint {f}"⟩])
  | some f, some store =>
    let (answer, lines) := findIdentity c.backend.format store f
    let (found, line) : Option Credential × LogLine := match answer with
      | .ok (some credential) =>
        (some credential, ⟨.info, "found certificate with matching fingerprint"⟩)
      | .ok none => (none, ⟨.warn, s!"no certificate with fingerprint {f} in {store.description}"⟩)
      | .error e => (none, ⟨.warn, s!"failed to search {store.description}: {e.message}"⟩)
    (found, ⟨.debug, s!"looking for certificate with fingerprint {f}"⟩ :: lines ++ [line])

/-- Takes the credential that a text names: by its fingerprint, or else by the path of a key
container. -/
def addIdentity (c : Context κ σ) (files : FileTree) (text : String) : Bool × Context κ σ :=
  let (found, lines) := c.lookUp text
  let c := c.report lines
  match found with
  | some credential => (true, c.setCredential credential)
  | none =>
    match c.backend.format.loadContainer files text with
    | .ok credential => (true, c.setCredential credential)
    | .error e =>
      (false, c.report [⟨.warn, s!"failed to load PKCS#12 credential {text}: {e.message}"⟩])

/-! ## Trust -/

/-- Reads a bundle of certificates from a file: the text and how many there are. -/
def readBundle (c : Context κ σ) (files : FileTree) (path : String) :
    Except SetupError (Bytes × Nat) := do
  let text ← (files.read path).mapError .io
  match ← c.backend.format.parseCertificates text with
  | [] => .error (.certificate "no certificates found")
  | certificates => .ok (text, certificates.length)

/-- Trusts the certificates in a file. -/
def trustFile (c : Context κ σ) (files : FileTree) (path : String) : Bool × Context κ σ :=
  match c.readBundle files path with
  | .ok (bundle, count) =>
    let c := c.report [⟨.info, s!"{count} certificate(s) were imported from {path}"⟩]
    (true, c.configure { c.config with trust := c.config.trust.addBundle bundle })
  | .error e =>
    (false, c.report
      [⟨.warn, s!"failed to load trusted CA certificates from {path}: {e.message}"⟩])

/-! ## Settings and sessions -/

/-- The settings of the provider for the configuration, built if they are not there yet. -/
def settings (c : Context κ σ) : Except String κ × Context κ σ :=
  match c.built with
  | some answer => (answer, c)
  | none =>
    let (answer, lines) := c.backend.build c.config
    let outcome := answer.mapError SetupError.message
    let failure : List LogLine := match outcome with
      | .ok _ => []
      | .error text => [⟨.warn, s!"failed to build TLS context: {text}"⟩]
    let start : LogLine :=
      ⟨.debug, s!"building {c.backend.name} context for {c.config.side.name}"⟩
    (outcome, { c.report (start :: lines ++ failure) with built := some outcome })

/-- Whether the configuration can be built. -/
def good (c : Context κ σ) : Bool × Context κ σ :=
  let (answer, c) := c.settings
  (answer.isOk, c)

/-- A new session with the configuration as it is. The provider may still refuse an engine. -/
def session (c : Context κ σ) : Except SetupError (Session σ ω ε) × Context κ σ :=
  let (answer, c) := c.settings
  match answer with
  | .error text => (.error (.invalidConfig text), c)
  | .ok settings =>
    ((c.backend.engine settings).map fun engine =>
      .ofEngine engine c.config.side c.config.verifyPeer c.config.policy, c)

/-- A context as it is shown. -/
def render (c : Context κ σ) : String :=
  let built := match c.built with
    | none => "None"
    | some answer => s!"Some({answer.isOk})"
  let backend := s!"backend: {quoted c.backend.name}, built: {built}"
  s!"TlsContext \x7b config: {c.config.render}, {backend} \x7d"

end Context
end TlsTransport
