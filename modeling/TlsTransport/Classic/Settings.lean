import TlsTransport.Classic.Chain
import TlsTransport.Classic.CipherRule
import TlsTransport.Context.Config

/-! # Settings of the classic provider

* `Classic.Settings.ofConfig`: the settings for a configuration. The cipher rule is looked at first,
  then trust and the credential, and the first thing that does not fit is reported.
-/

namespace TlsTransport.Classic

/-- What all connections of a context have in common. -/
structure Settings where
  side : Side
  verifyPeer : Bool
  /-- The certificates that are trusted. -/
  store : List X509
  /-- What the side presents, its leaf first. -/
  chain : List X509
  /-- When certificates have to be valid. -/
  now : Moment

namespace Settings

/-- The trusted certificates in some texts. -/
def storeOf (bundles : List Bytes) : Except SetupError (List X509) :=
  (bundles.flatMapM readCertificates).mapError Reason.error

/-- What is presented of an identity. A leaf alone is led up as far as trusted issuers go. -/
def present (now : Moment) (store : List X509) (i : Identity) : List X509 :=
  i.leaf :: match i.extra with
    | [] => if isSelfSigned i.leaf then [] else (pathInStore now store i.leaf maxPath).1
    | extra => extra

/-- What a side presents. A server has to present something. -/
def chainFor (now : Moment) (store : List X509) (c : ContextConfig) :
    Except SetupError (List X509) :=
  match c.credential, c.side with
  | some credential, _ => (Identity.ofCredential credential).map (present now store)
  | none, .client => .ok []
  | none, .server => .error (.invalidConfig "no server certificate configured")

/-- The settings for a configuration at some time. Nothing is reported on the way. -/
def ofConfig (now : Moment) (c : ContextConfig) : Except SetupError Settings × List LogLine :=
  let answer : Except SetupError Settings := do
    CipherRule.check c.policy
    let store ← storeOf c.trust.bundles
    let chain ← chainFor now store c
    return ⟨c.side, c.verifyPeer, store, chain, now⟩
  (answer, [])

/-- Settings as they are shown. -/
def render (s : Settings) : String :=
  s!"OpensslBackend \x7b side: {s.side.name}, verify_peer: {s.verifyPeer} \x7d"

end Settings
end TlsTransport.Classic
