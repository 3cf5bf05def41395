import TlsTransport.IdentityStore
import TlsTransport.Proofs.Fingerprint.Spelling

/-! # Looking identities up

A store is searched for the certificate with a fingerprint. The first identity that can be read and
has that certificate decides: its credential is found if it passes the check, and otherwise the
search ends with what the check says. No other identity counts.

* `StoredIdentity.Reads`, `StoredIdentity.Offers`: what can be read of an identity, and whether it
  is looked for.
* `findIdentityIn_first`, `findIdentityIn_of_none`: the search, by its first candidate.
* `findIdentity_decided`: what is found, what fails, and what does not change the answer.
* `usable_identity_found`: whether an identity that could be used is hidden by one that cannot.
-/

namespace TlsTransport

/-! ## Candidates -/

namespace StoredIdentity

/-- An identity can be read: its credential, and the first certificate of the chain. -/
inductive Reads (format : CredentialFormat) : StoredIdentity → Credential → Bytes → Prop where
  | text {bytes leaf : Bytes} {more : List Bytes}
      (parses : format.parseCertificates bytes = .ok (leaf :: more)) :
      Reads format (.text bytes) (.ofBundle bytes) leaf
  | container {bytes leaf : Bytes} {more : List Bytes} {credential : Credential}
      (unpacks : format.importContainer bytes = .ok credential)
      (parses : format.parseCertificates credential.chain = .ok (leaf :: more)) :
      Reads format (.container bytes) credential leaf

variable (format : CredentialFormat) (fingerprint : String)

/-- An identity has a credential whose first certificate has the fingerprint. -/
def Offers (i : StoredIdentity) (credential : Credential) : Prop :=
  ∃ leaf, i.Reads format credential leaf ∧ fingerprintMatches leaf fingerprint = true

/-- An identity that the fingerprint is of. -/
def IsCandidate (i : StoredIdentity) : Prop := ∃ credential, i.Offers format fingerprint credential

/-- A candidate whose credential passes the check. -/
def IsUsable (i : StoredIdentity) : Prop :=
  ∃ credential, i.Offers format fingerprint credential ∧ format.check credential = .ok ()

variable {format fingerprint} {i : StoredIdentity} {credential : Credential}

theorem open_eq_ok_iff {leaf : Bytes} :
    i.open format = .ok (credential, leaf) ↔ i.Reads format credential leaf := by
  constructor
  · intro h
    unfold StoredIdentity.open at h
    split at h
    · cases h
    · rename_i c hc
      split at h
      · rename_i leaf' more hparse
        obtain ⟨rfl, rfl⟩ := Prod.mk.inj (Except.ok.inj h)
        cases i with
        | text bytes =>
          obtain rfl := Except.ok.inj hc
          exact .text hparse
        | container bytes => exact .container hc hparse
      · cases h
      · cases h
  · intro h
    cases h with
    | text parses =>
      simp [StoredIdentity.open, StoredIdentity.credential, Credential.ofBundle, parses]
    | container unpacks parses =>
      simp [StoredIdentity.open, StoredIdentity.credential, unpacks, parses]

theorem Offers.isCandidate (h : i.Offers format fingerprint credential) :
    i.IsCandidate format fingerprint := ⟨credential, h⟩

instance : DecidablePred (IsCandidate format fingerprint) := fun i =>
  match hopen : i.open format with
  | .error line => .isFalse fun ⟨credential, leaf, hreads, _⟩ => by
    rw [open_eq_ok_iff.2 hreads] at hopen
    cases hopen
  | .ok (credential, leaf) =>
    if hmatch : fingerprintMatches leaf fingerprint = true then
      .isTrue ⟨credential, leaf, open_eq_ok_iff.1 hopen, hmatch⟩
    else .isFalse fun ⟨credential', leaf', hreads, hmatch'⟩ => by
      rw [open_eq_ok_iff.2 hreads] at hopen
      obtain ⟨-, rfl⟩ := Prod.mk.inj (Except.ok.inj hopen)
      exact hmatch hmatch'

end StoredIdentity

open StoredIdentity

variable {format : CredentialFormat} {fingerprint : String} {i : StoredIdentity}
  {identities before after : List StoredIdentity} {credential : Credential}

/-! ## One identity -/

theorem findIdentityIn_candidate (h : i.Offers format fingerprint credential)
    (rest : List StoredIdentity) :
    (findIdentityIn format fingerprint (i :: rest)).1 =
      (format.check credential).map fun _ => some credential := by
  obtain ⟨leaf, hreads, hmatch⟩ := h
  rw [findIdentityIn, open_eq_ok_iff.2 hreads]
  simp [hmatch]

theorem findIdentityIn_other (h : ¬ i.IsCandidate format fingerprint)
    (rest : List StoredIdentity) :
    (findIdentityIn format fingerprint (i :: rest)).1 =
      (findIdentityIn format fingerprint rest).1 := by
  rw [findIdentityIn]
  split
  · rfl
  · rename_i c leaf hopen
    have hmiss : ¬ fingerprintMatches leaf fingerprint = true := fun hmatch =>
      h ⟨c, leaf, open_eq_ok_iff.1 hopen, hmatch⟩
    rw [if_neg hmiss]

/-! ## All identities -/

theorem findIdentityIn_append (h : ∀ j ∈ before, ¬ j.IsCandidate format fingerprint)
    (rest : List StoredIdentity) :
    (findIdentityIn format fingerprint (before ++ rest)).1 =
      (findIdentityIn format fingerprint rest).1 := by
  induction before with
  | nil => rfl
  | cons j before ih =>
    obtain ⟨hj, hbefore⟩ := List.forall_mem_cons.1 h
    rw [List.cons_append, findIdentityIn_other hj, ih hbefore]

theorem findIdentityIn_of_none (h : ∀ j ∈ identities, ¬ j.IsCandidate format fingerprint) :
    (findIdentityIn format fingerprint identities).1 = .ok none := by
  rw [← List.append_nil identities, findIdentityIn_append h]
  rfl

/-- The first candidate decides. -/
theorem findIdentityIn_first (h : ∀ j ∈ before, ¬ j.IsCandidate format fingerprint)
    (hi : i.Offers format fingerprint credential) :
    (findIdentityIn format fingerprint (before ++ i :: after)).1 =
      (format.check credential).map fun _ => some credential := by
  rw [findIdentityIn_append h, findIdentityIn_candidate hi]

/-- There is a first candidate, or none at all. -/
theorem exists_first_candidate (format : CredentialFormat) (fingerprint : String)
    (identities : List StoredIdentity) :
    (∀ j ∈ identities, ¬ j.IsCandidate format fingerprint) ∨
      ∃ before i after, identities = before ++ i :: after ∧
        (∀ j ∈ before, ¬ j.IsCandidate format fingerprint) ∧ i.IsCandidate format fingerprint := by
  induction identities with
  | nil => exact .inl nofun
  | cons j rest ih =>
    by_cases hj : j.IsCandidate format fingerprint
    · exact .inr ⟨[], j, rest, rfl, nofun, hj⟩
    · rcases ih with hnone | ⟨before, i, after, rfl, hbefore, hi⟩
      · exact .inl (List.forall_mem_cons.2 ⟨hj, hnone⟩)
      · exact .inr ⟨j :: before, i, after, rfl, List.forall_mem_cons.2 ⟨hj, hbefore⟩, hi⟩

/-- What is no candidate may as well be left out. -/
theorem findIdentityIn_filter (identities : List StoredIdentity) :
    (findIdentityIn format fingerprint
      (identities.filter fun j => j.IsCandidate format fingerprint)).1 =
      (findIdentityIn format fingerprint identities).1 := by
  induction identities with
  | nil => rfl
  | cons j rest ih =>
    by_cases hj : j.IsCandidate format fingerprint
    · obtain ⟨c, hc⟩ := hj
      rw [List.filter_cons_of_pos (by simpa using hc.isCandidate), findIdentityIn_candidate hc,
        findIdentityIn_candidate hc]
    · rw [List.filter_cons_of_neg (by simpa using hj), findIdentityIn_other hj, ih]

/-- What a search comes to: nothing without a candidate, else what the check says of one. -/
theorem findIdentityIn_cases (format : CredentialFormat) (fingerprint : String)
    (identities : List StoredIdentity) :
    (∀ j ∈ identities, ¬ j.IsCandidate format fingerprint) ∧
        (findIdentityIn format fingerprint identities).1 = .ok none ∨
      ∃ i ∈ identities, ∃ credential, i.Offers format fingerprint credential ∧
        (format.check credential = .ok () ∧
            (findIdentityIn format fingerprint identities).1 = .ok (some credential) ∨
          ∃ e, format.check credential = .error e ∧
            (findIdentityIn format fingerprint identities).1 = .error e) := by
  rcases exists_first_candidate format fingerprint identities with
    hnone | ⟨before, i, after, rfl, hbefore, credential, hoffers⟩
  · exact .inl ⟨hnone, findIdentityIn_of_none hnone⟩
  · refine .inr ⟨i, by simp, credential, hoffers, ?_⟩
    rw [findIdentityIn_first hbefore hoffers]
    cases format.check credential with
    | ok u => exact .inl ⟨rfl, rfl⟩
    | error e => exact .inr ⟨e, rfl, rfl⟩

theorem findIdentityIn_eq_none_iff :
    (findIdentityIn format fingerprint identities).1 = .ok none ↔
      ∀ i ∈ identities, ¬ i.IsCandidate format fingerprint := by
  refine ⟨fun h => ?_, findIdentityIn_of_none⟩
  rcases findIdentityIn_cases format fingerprint identities with
    ⟨hnone, -⟩ | ⟨i, -, credential, -, ⟨-, hanswer⟩ | ⟨e, -, hanswer⟩⟩
  · exact hnone
  · cases h.symm.trans hanswer
  · cases h.symm.trans hanswer

theorem offers_of_findIdentityIn
    (h : (findIdentityIn format fingerprint identities).1 = .ok (some credential)) :
    ∃ i ∈ identities, i.Offers format fingerprint credential ∧
      format.check credential = .ok () := by
  rcases findIdentityIn_cases format fingerprint identities with
    ⟨-, hanswer⟩ | ⟨i, hi, c, hoffers, ⟨hcheck, hanswer⟩ | ⟨e, -, hanswer⟩⟩
  · cases h.symm.trans hanswer
  · obtain rfl := Option.some.inj (Except.ok.inj (h.symm.trans hanswer))
    exact ⟨i, hi, hoffers, hcheck⟩
  · cases h.symm.trans hanswer

theorem check_of_findIdentityIn_error {e : SetupError}
    (h : (findIdentityIn format fingerprint identities).1 = .error e) :
    ∃ i ∈ identities, ∃ credential, i.Offers format fingerprint credential ∧
      format.check credential = .error e := by
  rcases findIdentityIn_cases format fingerprint identities with
    ⟨-, hanswer⟩ | ⟨i, hi, c, hoffers, ⟨-, hanswer⟩ | ⟨e', hcheck, hanswer⟩⟩
  · cases h.symm.trans hanswer
  · cases h.symm.trans hanswer
  · obtain rfl := Except.error.inj (h.symm.trans hanswer)
    exact ⟨i, hi, c, hoffers, hcheck⟩

/-! ## A store of mixed entries -/

/-- Texts of a certificate of one byte and a key of any others, and containers that are such a text
behind a zero. -/
def shortFormat : CredentialFormat where
  parseCertificates bytes :=
    if bytes = [] then .error (.certificate "no certificate") else .ok [bytes.take 1]
  check c := if c.key.length < 2 then .error (.certificate "no key") else .ok ()
  importContainer
    | 0 :: bundle => .ok (.ofBundle bundle)
    | _ => .error (.certificate "not a container")

/-- The fingerprint of the certificate that is the byte one. -/
def oneFingerprint : String := "bf8b4530d8d246dd74ac53a13471bba17941dff7"

/-- Two entries that cannot be read and one of another certificate, a container with the certificate
and its key, and the certificate alone. -/
def mixedStore : IdentityStore :=
  .fixed (.ok [.text [], .container [7], .text [2, 9], .container [0, 1, 5], .text [1]])

theorem one_matches : fingerprintMatches [1] oneFingerprint = true := by
  decide +kernel

theorem container_offers : (StoredIdentity.container [0, 1, 5]).Offers shortFormat oneFingerprint
    ⟨[1, 5], [1, 5]⟩ := ⟨[1], .container rfl rfl, one_matches⟩

theorem not_candidate_before : ∀ j ∈ [StoredIdentity.text [], .container [7], .text [2, 9]],
    ¬ j.IsCandidate shortFormat oneFingerprint := by
  decide +kernel

/-! ## Stores -/

theorem findIdentity_of_ok {store : IdentityStore} (h : store.identities = .ok identities) :
    findIdentity format store fingerprint = findIdentityIn format fingerprint identities := by
  rw [findIdentity, h]

/-- A search fails as its store does. Of the identities of a store only the candidates count, put
together with any others in any way. If there is none, nothing is found; what is found is the
credential of one that passes the check, and the first one's if that passes; and only the check of
one makes the search fail. -/
theorem findIdentity_decided (format : CredentialFormat) (store : IdentityStore)
    (fingerprint : String) :
    (∀ e, store.identities = .error e → (findIdentity format store fingerprint).1 = .error e) ∧
    ∀ identities, store.identities = .ok identities →
      ((findIdentity format store fingerprint).1 = .ok none ↔
        ∀ i ∈ identities, ¬ i.IsCandidate format fingerprint) ∧
      (∀ credential, (findIdentity format store fingerprint).1 = .ok (some credential) →
        ∃ i ∈ identities, i.Offers format fingerprint credential ∧
          format.check credential = .ok ()) ∧
      (∀ before i after credential, identities = before ++ i :: after →
        (∀ j ∈ before, ¬ j.IsCandidate format fingerprint) →
        i.Offers format fingerprint credential → format.check credential = .ok () →
        (findIdentity format store fingerprint).1 = .ok (some credential)) ∧
      (∀ e, (findIdentity format store fingerprint).1 = .error e →
        ∃ i ∈ identities, ∃ credential, i.Offers format fingerprint credential ∧
          format.check credential = .error e) ∧
      ∀ store' identities', store'.identities = .ok identities' →
        identities'.filter (fun i => i.IsCandidate format fingerprint) =
          identities.filter (fun i => i.IsCandidate format fingerprint) →
        (findIdentity format store' fingerprint).1 = (findIdentity format store fingerprint).1 := by
  refine ⟨fun e he => ?_, fun identities hlist => ?_⟩
  · rw [findIdentity, he]
  · rw [findIdentity_of_ok hlist]
    refine ⟨findIdentityIn_eq_none_iff, fun _ => offers_of_findIdentityIn,
      fun before i after credential hparts hbefore hoffers hcheck => ?_,
      fun _ => check_of_findIdentityIn_error, fun store' identities' hlist' hsame => ?_⟩
    · rw [hparts, findIdentityIn_first hbefore hoffers, hcheck]
      rfl
    · rw [findIdentity_of_ok hlist', ← findIdentityIn_filter identities', hsame,
        findIdentityIn_filter]

theorem mixedStore_decided :
    (StoredIdentity.container [0, 1, 5]).Offers shortFormat oneFingerprint ⟨[1, 5], [1, 5]⟩ ∧
    shortFormat.check ⟨[1, 5], [1, 5]⟩ = .ok () ∧
    (findIdentity shortFormat mixedStore oneFingerprint).1 = .ok (some ⟨[1, 5], [1, 5]⟩) ∧
    (findIdentity shortFormat (.fixed (.ok [.container [0, 1, 5], .text [1]])) oneFingerprint).1 =
      .ok (some ⟨[1, 5], [1, 5]⟩) := by
  obtain ⟨-, hdecided⟩ := findIdentity_decided shortFormat mixedStore oneFingerprint
  obtain ⟨-, -, hfirst, -, hsame⟩ := hdecided _ rfl
  have hfound := hfirst [.text [], .container [7], .text [2, 9]] _ [.text [1]] _ rfl
    not_candidate_before container_offers rfl
  refine ⟨container_offers, rfl, hfound, (hsame _ _ rfl ?_).trans hfound⟩
  have hdropped : [StoredIdentity.text [], .container [7], .text [2, 9]].filter
      (fun j => j.IsCandidate shortFormat oneFingerprint) = [] :=
    List.filter_eq_nil_iff.2 fun j hj => by simpa using not_candidate_before j hj
  have hboth := List.filter_append
    (p := fun j : StoredIdentity => decide (j.IsCandidate shortFormat oneFingerprint))
    [.text [], .container [7], .text [2, 9]] [.container [0, 1, 5], .text [1]]
  rw [hdropped, List.nil_append] at hboth
  exact hboth.symm

/-- An identity that can be used is found unless a candidate that cannot be used stands in front of
it: if every candidate before it can be used, so can what is found, and if none can but there is
one, the search fails with what the check says of such a one. -/
theorem usable_identity_found {store : IdentityStore}
    (hlist : store.identities = .ok (before ++ i :: after))
    (husable : i.IsUsable format fingerprint) :
    ((∀ j ∈ before, j.IsCandidate format fingerprint → j.IsUsable format fingerprint) →
      ∃ credential, (findIdentity format store fingerprint).1 = .ok (some credential) ∧
        ∃ j ∈ before ++ i :: after, j.Offers format fingerprint credential ∧
          format.check credential = .ok ()) ∧
    ((∀ j ∈ before, ¬ j.IsUsable format fingerprint) →
      (∃ j ∈ before, j.IsCandidate format fingerprint) →
      ∃ e, (findIdentity format store fingerprint).1 = .error e ∧
        ∃ j ∈ before, ∃ credential, j.Offers format fingerprint credential ∧
          format.check credential = .error e) := by
  rw [findIdentity_of_ok hlist]
  have hfirst := exists_first_candidate format fingerprint before
  constructor
  · intro hall
    rcases hfirst with hnone | ⟨front, j, back, rfl, hfront, hj⟩
    · obtain ⟨credential, hoffers, hcheck⟩ := husable
      refine ⟨credential, ?_, i, by simp, hoffers, hcheck⟩
      rw [findIdentityIn_first hnone hoffers, hcheck]
      rfl
    · obtain ⟨credential, hoffers, hcheck⟩ := hall j (by simp) hj
      refine ⟨credential, ?_, j, by simp, hoffers, hcheck⟩
      rw [List.append_assoc, List.cons_append, findIdentityIn_first hfront hoffers, hcheck]
      rfl
  · rintro hnone ⟨k, hk, hcandidate⟩
    obtain ⟨front, j, back, rfl, hfront, credential, hoffers⟩ :=
      hfirst.resolve_left fun h => h k hk hcandidate
    cases hcheck : format.check credential with
    | ok u => exact absurd ⟨credential, hoffers, hcheck⟩ (hnone j (by simp))
    | error e =>
      refine ⟨e, ?_, j, by simp, credential, hoffers, hcheck⟩
      rw [List.append_assoc, List.cons_append, findIdentityIn_first hfront hoffers, hcheck]
      rfl

/-- The container is found behind what cannot be read and behind another certificate. -/
theorem mixedStore_finds :
    (StoredIdentity.container [0, 1, 5]).IsUsable shortFormat oneFingerprint ∧
    ∃ credential, (findIdentity shortFormat mixedStore oneFingerprint).1 = .ok (some credential) ∧
      shortFormat.check credential = .ok () := by
  have husable : (StoredIdentity.container [0, 1, 5]).IsUsable shortFormat oneFingerprint :=
    ⟨_, container_offers, rfl⟩
  have hlist : mixedStore.identities = .ok ([.text [], .container [7], .text [2, 9]] ++
      .container [0, 1, 5] :: [.text [1]]) := rfl
  obtain ⟨hfinds, -⟩ := usable_identity_found hlist husable
  obtain ⟨credential, hfound, -, -, -, hcheck⟩ :=
    hfinds fun j hj hcandidate => absurd hcandidate (not_candidate_before j hj)
  exact ⟨husable, credential, hfound, hcheck⟩

/-- The certificate alone hides the same certificate with its key. -/
theorem certificate_alone_hides :
    (StoredIdentity.text [1, 5]).IsUsable shortFormat oneFingerprint ∧
    (findIdentity shortFormat (.fixed (.ok [.text [1], .text [1, 5]])) oneFingerprint).1 =
      .error (.certificate "no key") :=
  ⟨⟨⟨[1, 5], [1, 5]⟩, ⟨[1], .text rfl, one_matches⟩, rfl⟩, by decide +kernel⟩

end TlsTransport
