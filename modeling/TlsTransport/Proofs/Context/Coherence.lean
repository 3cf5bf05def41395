import Mathlib.Data.List.Infix
import TlsTransport.Context
import TlsTransport.Proofs.Identity.Lookup

/-! # Contexts that remember nothing wrong

A context keeps what it built until the configuration changes. Nobody can tell: at every point of
every sequence of requests it answers as if it built its settings anew from the configuration as it
is then. A request that changes the configuration changes the one part that it is about, and one
that is refused changes nothing.

* `Request`, `Reply`, `Context.perform`: what can be asked of a context.
* `Revises`: what a request does to a configuration, with all that was tested.
* `Context.Coherent`: what was built belongs to the configuration; every request keeps that.
* `Context.setup_coherent`: the replies of a context do not depend on when it built its settings.
-/

namespace TlsTransport

variable {κ σ ω ε : Type}

/-! ## Requests -/

/-- What can be asked of a context. Files are read as they are at that time. -/
inductive Request where
  | setVerifyPeer (verify : Bool)
  | setMinVersion (version : TlsVersion)
  | setPolicy (policy : CipherPolicy)
  | setIdentityStore (store : IdentityStore)
  | addCredentialFiles (files : FileTree) (chain key : String)
  | addIdentity (files : FileTree) (text : String)
  | trustFile (files : FileTree) (path : String)
  | trustSystem
  | good
  | session

/-- The requests that look for a credential. -/
def Request.addsCredential : Request → Bool
  | addCredentialFiles .. | addIdentity .. => true
  | _ => false

/-- What a context replies. -/
inductive Reply (σ ω ε : Type) where
  | done
  | said (success : Bool)
  | made (session : Except SetupError (Session σ ω ε))

namespace Context

/-- Does what is asked. -/
def perform (ω ε : Type) (c : Context κ σ) : Request → Reply σ ω ε × Context κ σ
  | .setVerifyPeer verify => (.done, c.setVerifyPeer verify)
  | .setMinVersion version => let r := c.setMinVersion version; (.said r.1, r.2)
  | .setPolicy policy => (.done, c.setPolicy policy)
  | .setIdentityStore store => (.done, c.setIdentityStore store)
  | .addCredentialFiles files chain key =>
    let r := c.addCredentialFiles files chain key; (.said r.1, r.2)
  | .addIdentity files text => let r := c.addIdentity files text; (.said r.1, r.2)
  | .trustFile files path => let r := c.trustFile files path; (.said r.1, r.2)
  | .trustSystem => let r := c.trustSystem; (.said r.1, r.2)
  | .good => let r := c.good; (.said r.1, r.2)
  | .session => let r := c.session; (.made r.1, r.2)

/-- The context after requests, in order. -/
def after (ω ε : Type) (c : Context κ σ) (requests : List Request) : Context κ σ :=
  requests.foldl (fun c r => (c.perform ω ε r).2) c

end Context

/-! ## Without memory -/

namespace Backend

/-- What there is to know of the settings for a configuration: the settings, or why there are
none. -/
def outcome (b : Backend κ σ) (config : ContextConfig) : Except String κ :=
  (b.build config).1.mapError SetupError.message

/-- A session for a configuration, with settings that are built for it. An error of the engine that
these make is answered as it is. -/
def freshSession (b : Backend κ σ) (config : ContextConfig) : Except SetupError (Session σ ω ε) :=
  match (b.build config).1 with
  | .ok settings =>
    (b.engine settings).map fun engine =>
      .ofEngine engine config.side config.verifyPeer config.policy
  | .error e => .error (.invalidConfig e.message)

end Backend

/-! ## Steps that can fail -/

section Fallible

variable {α β η η' : Type}

theorem isOk_mapError (f : η → η') (x : Except η α) : (x.mapError f).isOk = x.isOk := by
  cases x <;> rfl

theorem ok_of_mapError {f : η → η'} {x : Except η α} {a : α} (h : x.mapError f = .ok a) :
    x = .ok a := by
  cases x with
  | error e => cases h
  | ok b => exact congrArg Except.ok (Except.ok.inj h)

/-- A step that was followed by another went well, and so did the other. -/
theorem bind_ok {x : Except η α} {f : α → Except η β} {b : β} (h : (x >>= f) = .ok b) :
    ∃ a, x = .ok a ∧ f a = .ok b := by
  cases x with
  | error e => cases h
  | ok a => exact ⟨a, rfl, h⟩

end Fallible

/-! ## What a request does to a configuration -/

/-- What a request does to a configuration, by the reply. A request that was refused leaves it as it
is, and was refused for a reason. -/
inductive Revises (format : CredentialFormat) (config : ContextConfig) :
    Request → Reply σ ω ε → ContextConfig → Prop where
  | verifyPeer (verify : Bool) : Revises format config (.setVerifyPeer verify) .done
      { config with verifyPeer := verify }
  | minVersion {version : TlsVersion} (h : version ≠ .ssl3) :
      Revises format config (.setMinVersion version) (.said true)
        { config with minVersion := version }
  | oldestVersion : Revises format config (.setMinVersion .ssl3) (.said false) config
  | policy (policy : CipherPolicy) :
      Revises format config (.setPolicy policy) .done { config with policy := policy }
  | store (store : IdentityStore) : Revises format config (.setIdentityStore store) .done config
  | credentialFiles {files : FileTree} {chain key : String} {credential : Credential}
      (hread : Credential.ofFiles files chain key = .ok credential)
      (hcheck : format.check credential = .ok ()) :
      Revises format config (.addCredentialFiles files chain key) (.said true)
        { config with credential := some credential }
  | noCredentialFiles {files : FileTree} {chain key : String}
      (h : ∀ credential, Credential.ofFiles files chain key = .ok credential →
        format.check credential ≠ .ok ()) :
      Revises format config (.addCredentialFiles files chain key) (.said false) config
  | identity {files : FileTree} {text : String} {credential : Credential}
      (hcheck : format.check credential = .ok ()) :
      Revises format config (.addIdentity files text) (.said true)
        { config with credential := some credential }
  | noIdentity {files : FileTree} {text : String} {e : SetupError}
      (h : format.loadContainer files text = .error e) :
      Revises format config (.addIdentity files text) (.said false) config
  | bundle {files : FileTree} {path : String} {bundle : Bytes} {certificates : List Bytes}
      (hread : files.read path = .ok bundle)
      (hparse : format.parseCertificates bundle = .ok certificates) (hne : certificates ≠ []) :
      Revises format config (.trustFile files path) (.said true)
        { config with trust := config.trust.addBundle bundle }
  | noBundle {files : FileTree} {path : String}
      (h : ∀ bundle certificates, files.read path = .ok bundle →
        format.parseCertificates bundle = .ok certificates → certificates = []) :
      Revises format config (.trustFile files path) (.said false) config
  | system : Revises format config .trustSystem (.said true)
      { config with trust := { config.trust with system := true } }
  | good (success : Bool) : Revises format config .good (.said success) config
  | session (session : Except SetupError (Session σ ω ε)) :
      Revises format config .session (.made session) config

/-- More is trusted: what was trusted still is, in the same order. -/
structure TrustAnchors.Within (t u : TrustAnchors) : Prop where
  system : t.system = true → u.system = true
  bundles : t.bundles <+: u.bundles

namespace TrustAnchors.Within

theorem refl (t : TrustAnchors) : t.Within t := ⟨id, List.prefix_refl _⟩

theorem trans {t u v : TrustAnchors} (h : t.Within u) (k : u.Within v) : t.Within v :=
  ⟨k.system ∘ h.system, h.bundles.trans k.bundles⟩

end TrustAnchors.Within

namespace Revises

variable {format : CredentialFormat} {config config' : ContextConfig} {r : Request}
  {reply : Reply σ ω ε}

theorem of_refused (h : Revises format config r reply config') (hreply : reply = .said false) :
    config' = config := by
  cases h <;> first | rfl | cases hreply

theorem credential_checked (h : Revises format config r reply config')
    (hr : r.addsCredential = true) (hreply : reply = .said true) : ∃ credential,
    format.check credential = .ok () ∧ config' = { config with credential := some credential } := by
  cases h with
  | credentialFiles _ hcheck => exact ⟨_, hcheck, rfl⟩
  | identity hcheck => exact ⟨_, hcheck, rfl⟩
  | noCredentialFiles | noIdentity => cases hreply
  | _ => cases hr

theorem side (h : Revises format config r reply config') : config'.side = config.side := by
  cases h <;> rfl

theorem trust_within (h : Revises format config r reply config') :
    config.trust.Within config'.trust := by
  cases h with
  | bundle => exact ⟨id, List.prefix_append _ _⟩
  | system => exact ⟨fun _ => rfl, List.prefix_refl _⟩
  | _ => exact .refl _

theorem minVersion_ne (h : Revises format config r reply config')
    (hold : config.minVersion ≠ .ssl3) : config'.minVersion ≠ .ssl3 := by
  cases h with
  | minVersion hv => exact hv
  | _ => exact hold

end Revises

/-! ## Where credentials come from -/

/-- A container that was loaded holds a credential that passed the check. -/
theorem CredentialFormat.check_of_loadContainer {format : CredentialFormat} {files : FileTree}
    {path : String} {credential : Credential}
    (h : format.loadContainer files path = .ok credential) : format.check credential = .ok () := by
  obtain ⟨bytes, -, h⟩ := bind_ok h
  obtain ⟨found, -, h⟩ := bind_ok h
  obtain ⟨certificates, -, h⟩ := bind_ok h
  simp only at h
  split at h
  · cases h
  · obtain ⟨⟨⟩, hcheck, h⟩ := bind_ok h
    cases h
    exact hcheck

namespace Context

variable {c : Context κ σ}

/-- A credential that was looked up passed the check. -/
theorem check_of_lookUp {text : String} {credential : Credential}
    (h : (c.lookUp text).1 = some credential) : c.backend.format.check credential = .ok () := by
  unfold lookUp at h
  split at h
  · cases h
  · cases h
  · rename_i f store _ _
    have hfind : (findIdentity c.backend.format store f).1 = .ok (some credential) := by
      rcases hr : findIdentity c.backend.format store f with ⟨e | _ | found, lines⟩ <;>
        rw [hr] at h <;> cases h
      rfl
    unfold findIdentity at hfind
    split at hfind
    · cases hfind
    · obtain ⟨_, -, -, hcheck⟩ := offers_of_findIdentityIn hfind
      exact hcheck

theorem readCredential_ok {files : FileTree} {chain key : String} {credential : Credential} :
    c.readCredential files chain key = .ok credential ↔
      Credential.ofFiles files chain key = .ok credential ∧
        c.backend.format.check credential = .ok () := by
  constructor
  · intro h
    obtain ⟨found, hread, h⟩ := bind_ok h
    obtain ⟨⟨⟩, hcheck, h⟩ := bind_ok h
    cases h
    exact ⟨ok_of_mapError hread, hcheck⟩
  · rintro ⟨hread, hcheck⟩
    simp only [readCredential, hread, Except.mapError, hcheck, bind, Except.bind]
    rfl

theorem readBundle_ok {files : FileTree} {path : String} {bundle : Bytes} {count : Nat} :
    c.readBundle files path = .ok (bundle, count) ↔ ∃ certificates,
      files.read path = .ok bundle ∧
        c.backend.format.parseCertificates bundle = .ok certificates ∧ certificates ≠ [] ∧
          certificates.length = count := by
  constructor
  · intro h
    obtain ⟨text, hread, h⟩ := bind_ok h
    obtain ⟨certificates, hparse, h⟩ := bind_ok h
    cases certificates with
    | nil => cases h
    | cons first rest =>
      cases h
      exact ⟨first :: rest, ok_of_mapError hread, hparse, by simp, rfl⟩
  · rintro ⟨certificates, hread, hparse, hne, rfl⟩
    obtain ⟨first, rest, rfl⟩ := List.exists_cons_of_ne_nil hne
    simp only [readBundle, hread, Except.mapError, hparse, bind, Except.bind]

/-! ## Every request -/

@[simp] theorem config_settings (c : Context κ σ) : c.settings.2.config = c.config := by
  unfold settings
  split <;> rfl

@[simp] theorem backend_settings (c : Context κ σ) : c.settings.2.backend = c.backend := by
  unfold settings
  split <;> rfl

theorem session_eq (c : Context κ σ) : (c.session : Except SetupError (Session σ ω ε) × _) =
    (match c.settings.1 with
      | .error text => .error (.invalidConfig text)
      | .ok settings => (c.backend.engine settings).map fun engine =>
          .ofEngine engine c.config.side c.config.verifyPeer c.config.policy, c.settings.2) := by
  unfold session
  have hconfig := c.config_settings
  have hbackend := c.backend_settings
  rcases h : c.settings with ⟨answer, d⟩
  rw [h] at hconfig hbackend
  cases answer with
  | error text => rfl
  | ok settings => simp only [← hconfig, ← hbackend]

theorem perform_revises (c : Context κ σ) (r : Request) :
    Revises c.backend.format c.config r (c.perform ω ε r).1 (c.perform ω ε r).2.config := by
  cases r with
  | setVerifyPeer verify => exact .verifyPeer verify
  | setMinVersion version =>
    by_cases h : version = .ssl3
    · subst h
      exact .oldestVersion
    · simp only [perform, setMinVersion, if_neg h]
      exact .minVersion h
  | setPolicy policy => exact .policy policy
  | setIdentityStore store => exact .store store
  | addCredentialFiles files chain key =>
    simp only [perform, addCredentialFiles]
    cases h : c.readCredential files chain key with
    | ok credential =>
      obtain ⟨hread, hcheck⟩ := readCredential_ok.1 h
      exact .credentialFiles hread hcheck
    | error e =>
      refine .noCredentialFiles fun credential hread hcheck => ?_
      rw [readCredential_ok.2 ⟨hread, hcheck⟩] at h
      cases h
  | addIdentity files text =>
    simp only [perform, addIdentity]
    cases hlook : (c.lookUp text).1 with
    | some credential => exact .identity (check_of_lookUp hlook)
    | none =>
      simp only
      have hformat : (c.report (c.lookUp text).2).backend = c.backend := rfl
      rw [hformat]
      cases hload : c.backend.format.loadContainer files text with
      | ok credential => exact .identity (CredentialFormat.check_of_loadContainer hload)
      | error e => exact .noIdentity hload
  | trustFile files path =>
    simp only [perform, trustFile]
    cases h : c.readBundle files path with
    | ok found =>
      obtain ⟨certificates, hread, hparse, hne, -⟩ := readBundle_ok.1 h
      exact .bundle hread hparse hne
    | error e =>
      refine .noBundle fun bundle certificates hread hparse => ?_
      by_contra hne
      rw [readBundle_ok.2 ⟨certificates, hread, hparse, hne, rfl⟩] at h
      cases h
  | trustSystem => exact .system
  | good =>
    have hgood : (c.perform ω ε .good).2 = c.settings.2 := rfl
    rw [hgood, config_settings]
    exact .good _
  | session =>
    have hsession : (c.perform ω ε .session).2 = c.settings.2 := congrArg Prod.snd c.session_eq
    rw [hsession, config_settings]
    exact .session _

/-! ## What was built -/

/-- What was built, if anything was, belongs to the configuration. -/
def Coherent (c : Context κ σ) : Prop :=
  ∀ answer, c.built = some answer → answer = c.backend.outcome c.config

theorem Coherent.initial (backend : Backend κ σ) (side : Side) (verify : Bool) :
    Coherent (initial backend side verify) := fun _ h => by cases h

/-- The settings that are used are those for the configuration as it is. -/
theorem Coherent.settings_eq {c : Context κ σ} (h : Coherent c) :
    c.settings.1 = c.backend.outcome c.config := by
  unfold settings
  split
  · rename_i answer hbuilt
    exact h answer hbuilt
  · rfl

theorem Coherent.settings {c : Context κ σ} (h : Coherent c) : Coherent c.settings.2 := by
  intro answer hbuilt
  rw [config_settings, backend_settings, ← h.settings_eq]
  unfold Context.settings at hbuilt ⊢
  split at hbuilt
  · rename_i kept hkept
    rw [hkept] at hbuilt
    exact (Option.some.inj hbuilt).symm
  · exact (Option.some.inj hbuilt).symm

/-- What a request does with what was built: it drops it, or keeps it together with the
configuration, or it has the settings built if they were not. -/
inductive Handles (c : Context κ σ) : Context κ σ → Prop where
  | dropped {d : Context κ σ} (hbackend : d.backend = c.backend) (h : d.built = none) : Handles c d
  | kept {d : Context κ σ} (hbackend : d.backend = c.backend) (hconfig : d.config = c.config)
      (h : d.built = c.built) : Handles c d
  | used : Handles c c.settings.2

theorem perform_handles (c : Context κ σ) (r : Request) : Handles c (c.perform ω ε r).2 := by
  cases r with
  | setVerifyPeer | setPolicy | trustSystem => exact .dropped rfl rfl
  | setMinVersion version =>
    simp only [perform, setMinVersion]
    split
    · exact .kept rfl rfl rfl
    · exact .dropped rfl rfl
  | setIdentityStore => exact .kept rfl rfl rfl
  | addCredentialFiles files chain key =>
    simp only [perform, addCredentialFiles]
    split
    · exact .dropped rfl rfl
    · exact .kept rfl rfl rfl
  | addIdentity files text =>
    simp only [perform, addIdentity]
    split
    · exact .dropped rfl rfl
    · split
      · exact .dropped rfl rfl
      · exact .kept rfl rfl rfl
  | trustFile files path =>
    simp only [perform, trustFile]
    split
    · exact .dropped rfl rfl
    · exact .kept rfl rfl rfl
  | good => exact .used
  | session =>
    have hsession : (c.perform ω ε .session).2 = c.settings.2 := congrArg Prod.snd c.session_eq
    exact hsession ▸ .used

theorem Handles.backend {c d : Context κ σ} (h : Handles c d) : d.backend = c.backend := by
  cases h with
  | dropped hbackend => exact hbackend
  | kept hbackend => exact hbackend
  | used => exact c.backend_settings

theorem Coherent.handles {c d : Context κ σ} (hc : Coherent c) (h : Handles c d) : Coherent d := by
  cases h with
  | dropped _ hnone =>
    intro answer hbuilt
    rw [hnone] at hbuilt
    cases hbuilt
  | kept hbackend hconfig hbuilt =>
    unfold Coherent
    rw [hbackend, hconfig, hbuilt]
    exact hc
  | used => exact hc.settings

/-! ## Every sequence of requests -/

theorem after_backend (c : Context κ σ) (requests : List Request) :
    (c.after ω ε requests).backend = c.backend := by
  induction requests generalizing c with
  | nil => rfl
  | cons r requests ih => exact (ih _).trans (c.perform_handles r).backend

theorem Coherent.after {c : Context κ σ} (h : Coherent c) (requests : List Request) :
    Coherent (c.after ω ε requests) := by
  induction requests generalizing c with
  | nil => exact h
  | cons r requests ih => exact ih (h.handles (c.perform_handles r))

theorem after_side (c : Context κ σ) (requests : List Request) :
    (c.after ω ε requests).config.side = c.config.side := by
  induction requests generalizing c with
  | nil => rfl
  | cons r requests ih => exact (ih _).trans (c.perform_revises r).side

theorem after_trust_within (c : Context κ σ) (requests : List Request) :
    c.config.trust.Within (c.after ω ε requests).config.trust := by
  induction requests generalizing c with
  | nil => exact .refl _
  | cons r requests ih => exact (c.perform_revises r).trust_within.trans (ih _)

theorem after_minVersion_ne {c : Context κ σ} (h : c.config.minVersion ≠ .ssl3)
    (requests : List Request) : (c.after ω ε requests).config.minVersion ≠ .ssl3 := by
  induction requests generalizing c with
  | nil => exact h
  | cons r requests ih => exact ih ((c.perform_revises r).minVersion_ne h)

/-! ## The whole -/

theorem Coherent.good_eq {c : Context κ σ} (h : Coherent c) :
    (c.perform ω ε .good).1 = .said (c.backend.build c.config).1.isOk := by
  have hgood : (c.perform ω ε .good).1 = .said c.settings.1.isOk := rfl
  rw [hgood, h.settings_eq, Backend.outcome, isOk_mapError]

theorem Coherent.session_fresh {c : Context κ σ} (h : Coherent c) :
    (c.perform ω ε .session).1 = .made (c.backend.freshSession c.config) := by
  have hmade : (c.perform ω ε .session).1 = .made c.session.1 := rfl
  rw [hmade, session_eq, h.settings_eq, Backend.outcome, Backend.freshSession]
  cases (c.backend.build c.config).1 <;> rfl

/-- After any requests, a context says that it is good exactly if the settings for its configuration
as it is can be built, and makes the session that these settings make, with the flag and the policy
of the same configuration, or answers why they make none. A request changes the configuration in the part that it is about, and
not at all if it is refused; a credential that is taken passed the check. Trust only grows, and the
oldest version is never admitted. -/
theorem setup_coherent (backend : Backend κ σ) (side : Side) (verify : Bool)
    (requests : List Request) :
    let c := (initial backend side verify).after ω ε requests
    (c.perform ω ε .good).1 = .said (backend.build c.config).1.isOk ∧
    (c.perform ω ε .session).1 = .made (backend.freshSession c.config) ∧
    c.config.side = side ∧
    (∀ r, Revises backend.format c.config r (c.perform ω ε r).1 (c.perform ω ε r).2.config) ∧
    (∀ r, (c.perform ω ε r).1 = .said false → (c.perform ω ε r).2.config = c.config) ∧
    (∀ r, r.addsCredential = true → (c.perform ω ε r).1 = .said true → ∃ credential,
      backend.format.check credential = .ok () ∧
      (c.perform ω ε r).2.config = { c.config with credential := some credential }) ∧
    (∀ later, c.config.trust.Within (c.after ω ε later).config.trust) ∧
    c.config.minVersion ≠ .ssl3 := by
  intro c
  have hcoherent : Coherent c := (Coherent.initial backend side verify).after requests
  have hbackend : c.backend = backend := after_backend _ requests
  have hrevises : ∀ r, Revises backend.format c.config r (c.perform ω ε r).1
      (c.perform ω ε r).2.config := fun r => hbackend ▸ c.perform_revises r
  refine ⟨?_, ?_, after_side _ requests, hrevises, fun r => (hrevises r).of_refused,
    fun r => (hrevises r).credential_checked, c.after_trust_within,
    after_minVersion_ne (by simp [initial, ContextConfig.initial]) requests⟩
  · rw [← hbackend]
    exact hcoherent.good_eq
  · rw [← hbackend]
    exact hcoherent.session_fresh

/-- A provider that takes credentials with a key and builds nothing without one. Its engines show
the certificates that they present. -/
def keyedBackend : Backend Credential Bytes where
  provider := .strict
  format :=
    { parseCertificates := fun text => .ok [text]
      check := fun c => if c.key = [] then .error (.certificate "no key") else .ok ()
      importContainer := fun _ => .error (.unsupported .strict "containers") }
  build config := (config.credential.elim (.error (.invalidConfig "no credential")) .ok, [])
  engine settings := .ok settings.chain

/-- A context of such a provider that was asked too early. It has a store with one identity. -/
def keyedContext : Context Credential Bytes :=
  (initial keyedBackend .server false).after Unit Unit
    [.good, .setIdentityStore (.fixed (.ok [.text [1]]))]

/-- The request that names the identity by its fingerprint. -/
def keyedRequest : Request := .addIdentity .empty "bf8b4530d8d246dd74ac53a13471bba17941dff7"

/-- The identity is taken and the context is good then, though it said before that it was not. It
stays as it is when there is no other credential. -/
theorem keyedContext_good :
    let c := keyedContext.after Unit Unit [keyedRequest]
    let refused := c.perform Unit Unit (.addCredentialFiles .empty "" "")
    (keyedContext.perform Unit Unit .good).1 = .said false ∧
      (keyedContext.perform Unit Unit keyedRequest).1 = .said true ∧
      (∃ credential, keyedBackend.format.check credential = .ok () ∧
        c.config = { keyedContext.config with credential := some credential }) ∧
      (c.perform Unit Unit .good).1 = .said true ∧
      (c.perform Unit Unit .session).1 = .made (.ok (.ofEngine [1] .server false .default)) ∧
      refused.1 = .said false ∧ refused.2.config = c.config := by
  intro c refused
  obtain ⟨hbefore, -, -, -, -, htaken, -⟩ := setup_coherent (ω := Unit) (ε := Unit) keyedBackend
    .server false [.good, .setIdentityStore (.fixed (.ok [.text [1]]))]
  obtain ⟨hgood, hsession, -, -, hrefused, -⟩ := setup_coherent (ω := Unit) (ε := Unit)
    keyedBackend .server false
    [.good, .setIdentityStore (.fixed (.ok [.text [1]])), keyedRequest]
  have hearly : (keyedBackend.build keyedContext.config).1.isOk = false := by decide +kernel
  have hadded : (keyedContext.perform Unit Unit keyedRequest).1 = .said true :=
    congrArg Reply.said (show (keyedContext.addIdentity .empty _).1 = true by decide +kernel)
  have hconfig : c.config =
      { ContextConfig.initial .server false with credential := some ⟨[1], [1]⟩ } := by
    decide +kernel
  have hsaid : refused.1 = .said false :=
    congrArg Reply.said (show (c.addCredentialFiles .empty "" "").1 = false by decide +kernel)
  refine ⟨hbefore.trans (congrArg Reply.said hearly), hadded, htaken _ rfl hadded,
    hgood.trans (congrArg Reply.said ?_), hsession.trans (congrArg Reply.made ?_), hsaid,
    hrefused _ hsaid⟩
  · change (keyedBackend.build c.config).1.isOk = true
    rw [hconfig]
    rfl
  · change keyedBackend.freshSession c.config = _
    rw [hconfig]
    rfl

end Context

end TlsTransport
