import TlsTransport.Context.Config
import TlsTransport.Strict.Chain
import TlsTransport.Strict.Credential
import TlsTransport.Strict.Suite

/-! # Settings of the strict provider

* `Strict.Settings.ofConfig`: the settings for a configuration. Suites are looked at first, then
  versions, trust and the credential, and the first thing that does not fit is reported.
-/

namespace TlsTransport.Strict

/-- What all connections of a context have in common. -/
structure Settings where
  side : Side
  verifyPeer : Bool
  /-- What is offered, the preferred ones first. -/
  suites : List Suite
  versions : List TlsVersion
  anchors : List X509
  identity : Option Identity
  /-- When certificates have to be valid. -/
  now : Moment

namespace Settings

/-- Whether a version can be used: it is enabled and has a suite. -/
def supports (s : Settings) (v : TlsVersion) : Bool :=
  s.versions.contains v && s.suites.any fun suite => suite.version = v

/-- The versions that can be used, newest first. -/
def offered (s : Settings) : List TlsVersion := [.tls13, .tls12].filter s.supports

/-- The suites that a policy allows. -/
def suitesFor (policy : CipherPolicy) : Except SetupError (List Suite) :=
  match Suite.all.filter fun s => policy.allows s.name with
  | [] => .error (.invalidConfig "no cipher suites left after filtering")
  | suites => .ok suites

/-- The versions from the oldest one that is asked for; those before the last two are not offered,
which is reported. -/
def versionsFrom (oldest : TlsVersion) : List TlsVersion × List LogLine :=
  match oldest with
  | .tls13 => ([.tls13], [])
  | .tls12 => ([.tls12, .tls13], [])
  | v =>
    let name := Provider.strict.label
    ([.tls12, .tls13], [⟨.warn, s!"{name} does not offer {v.name}; using TLSv1.2 and up"⟩])

/-- The anchors in a text, up to the first fault. -/
def anchorsIn (text : Bytes) : Except SetupError (List X509) := do
  let (sections, fault) := Pem.read text
  let certificates := sections.filter (·.isLabelled "CERTIFICATE")
  let anchors ← certificates.mapM fun s =>
    (readAnchor s.body).mapError fun f => (Error.certificate f).setup
  match fault with
  | some f => .error f.setup
  | none => return anchors

/-- What peers are verified against. A server that verifies its clients has to trust somebody. -/
def anchorsFor (c : ContextConfig) : Except SetupError (List X509) := do
  if !c.verifyPeer then return []
  let anchors ← c.trust.bundles.flatMapM anchorsIn
  if c.side = .server && anchors.isEmpty && !c.trust.system then
    .error (.invalidConfig "no root trust anchors were provided")
  return anchors

/-- What a side presents. A server has to present something. -/
def identityFor (c : ContextConfig) : Except SetupError (Option Identity) :=
  match c.credential, c.side with
  | some credential, _ => (Identity.ofCredential credential).map some
  | none, .client => .ok none
  | none, .server => .error (.invalidConfig "no server certificate configured")

/-- The settings for a configuration at some time, and what is reported on the way. -/
def ofConfig (now : Moment) (c : ContextConfig) : Except SetupError Settings × List LogLine :=
  match suitesFor c.policy with
  | .error e => (.error e, [])
  | .ok suites =>
    let (versions, lines) := versionsFrom c.minVersion
    let answer : Except SetupError Settings := do
      if !suites.any fun s => versions.contains s.version then .error Error.noUsableSuites.setup
      let anchors ← anchorsFor c
      let identity ← identityFor c
      return ⟨c.side, c.verifyPeer, suites, versions, anchors, identity, now⟩
    (answer, lines)

end Settings
end TlsTransport.Strict
