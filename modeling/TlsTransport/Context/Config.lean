import TlsTransport.CipherPolicy
import TlsTransport.Credential
import TlsTransport.Status
import TlsTransport.Text.Character
import TlsTransport.Version

/-! # Configurations and the providers that take them

What all sessions of one role have in common: which peers they trust, what they present themselves
and which versions and suites they use.

* `ContextConfig`: the configuration of one role.
* `Backend`: what is needed of a cryptographic provider: to read credentials, to turn a
  configuration into settings, and to make engines from these.
-/

namespace TlsTransport

/-- What the certificates of peers are verified against. -/
structure TrustAnchors where
  /-- Whether the authorities that the platform trusts belong to them. -/
  system : Bool
  /-- Texts with the certificates of further authorities. -/
  bundles : List Bytes
  deriving DecidableEq, Repr

namespace TrustAnchors

/-- No anchors. -/
def none : TrustAnchors := ⟨false, []⟩

/-- Whether nobody is trusted. -/
def isEmpty (t : TrustAnchors) : Bool := !t.system && t.bundles.isEmpty

/-- The anchors with one more bundle. -/
def addBundle (t : TrustAnchors) (bundle : Bytes) : TrustAnchors :=
  { t with bundles := t.bundles ++ [bundle] }

/-- Anchors as they are shown, with every byte of every bundle. -/
def render (t : TrustAnchors) : String :=
  let bundles := bracketed <| t.bundles.map fun b => bracketed (b.map fun x => toString x.toNat)
  s!"TrustAnchors \x7b system: {t.system}, bundles: {bundles} \x7d"

end TrustAnchors

/-- The blocked fragments as they are shown. -/
def CipherPolicy.render (p : CipherPolicy) : String :=
  let blocked := bracketed (p.blocked.map quoted)
  s!"CipherPolicy \x7b blocked: {blocked} \x7d"

/-- The configuration of one role. -/
structure ContextConfig where
  side : Side
  /-- Whether the certificates of peers are verified; a server then asks for them. -/
  verifyPeer : Bool
  /-- The oldest version that is offered. -/
  minVersion : TlsVersion
  credential : Option Credential
  trust : TrustAnchors
  policy : CipherPolicy
  deriving DecidableEq, Repr

namespace ContextConfig

/-- The configuration every role starts with. -/
def initial (side : Side) (verifyPeer : Bool) : ContextConfig :=
  ⟨side, verifyPeer, .tls12, none, .none, .default⟩

/-- A configuration as it is shown. -/
def render (c : ContextConfig) : String :=
  let credential := match c.credential with
    | none => "None"
    | some credential => s!"Some({credential.render})"
  let peer := s!"side: {c.side.name}, verify_peer: {c.verifyPeer}"
  let own := s!"min_version: {c.minVersion.label}, credential: {credential}"
  let limits := s!"trust: {c.trust.render}, cipher_policy: {c.policy.render}"
  s!"ContextConfig \x7b {peer}, {own}, {limits} \x7d"

end ContextConfig

/-- A cryptographic provider with settings `κ` and engines `σ`. -/
structure Backend (κ σ : Type) where
  provider : Provider
  format : CredentialFormat
  /-- The settings for a configuration, and what is reported on the way to them. -/
  build : ContextConfig → Except SetupError κ × List LogLine
  /-- A new connection with the given settings. -/
  engine : κ → Except SetupError σ

/-- The name of a backend. -/
def Backend.name {κ σ : Type} (b : Backend κ σ) : String := b.provider.label

end TlsTransport
