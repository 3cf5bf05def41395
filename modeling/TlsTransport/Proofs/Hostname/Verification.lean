import TlsTransport.Proofs.Hostname.Grammar

/-! # Which names decide

A host is an address or a name, and each kind has its own entries in a certificate. The entries of
the other kind do not count, and the common name counts only where there is no entry of the kind of
the host.

* `Unbracketed`, `Undotted`: a host without its brackets, a name without its final dot.
* `verifyHostname_kinds`: what decides for either kind, and what does not.
* `verifyHostname_empty`: what decides for the empty host.
-/

namespace TlsTransport

/-! ## Brackets and dots -/

/-- `bare` is what one pair of brackets encloses in the host, or all of the host if none does. -/
def Unbracketed (host bare : String) : Prop :=
  host = "[" ++ bare ++ "]" ∨ bare = host ∧ ∀ inner, host ≠ "[" ++ inner ++ "]"

/-- `core` is what stands in front of the dot that ends a name, or all of the name if none does. -/
def Undotted (name core : String) : Prop :=
  name = core ++ "." ∨ core = name ∧ ∀ front, name ≠ front ++ "."

theorem bareHost_bracketed (bare : String) : bareHost ("[" ++ bare ++ "]") = bare := by
  have hlist : ("[" ++ bare ++ "]").toList = '[' :: (bare.toList ++ [']']) := by simp
  rw [bareHost, hlist]
  simp

theorem unbracketed_bareHost (host : String) : Unbracketed host (bareHost host) := by
  by_cases h : ∃ inner, host = "[" ++ inner ++ "]"
  · obtain ⟨inner, rfl⟩ := h
    rw [bareHost_bracketed]
    exact .inl rfl
  · refine .inr ⟨?_, fun inner hinner => h ⟨inner, hinner⟩⟩
    unfold bareHost
    split
    · rename_i rest hhost
      split
      · rename_i hlast
        refine absurd ⟨String.ofList rest.dropLast, ?_⟩ h
        obtain ⟨inner, rfl⟩ := List.getLast?_eq_some_iff.1 hlast
        rw [← String.toList_inj, hhost]
        simp
      · rfl
    · rfl

theorem Unbracketed.unique {host bare bare' : String} (h : Unbracketed host bare)
    (k : Unbracketed host bare') : bare = bare' := by
  rcases h with rfl | ⟨rfl, h⟩
  · rcases k with k | ⟨-, k⟩
    · rw [← bareHost_bracketed bare, k, bareHost_bracketed]
    · exact absurd rfl (k bare)
  · rcases k with rfl | ⟨rfl, -⟩
    · exact absurd rfl (h bare')
    · rfl

theorem undotted_iff {name core : String} : Undotted name core ↔ core = withoutFinalDot name := by
  unfold withoutFinalDot
  split
  · rename_i hlast
    obtain ⟨front, hfront⟩ := List.getLast?_eq_some_iff.1 hlast
    have hname : name = String.ofList front ++ "." := by
      rw [← String.toList_inj, hfront]
      simp
    rw [hfront, List.dropLast_concat]
    constructor
    · rintro (h | ⟨-, h⟩)
      · rw [h] at hname
        exact String.append_left_inj _ |>.1 hname
      · exact absurd hname (h _)
    · rintro rfl
      exact .inl hname
  · rename_i hlast
    have hnone : ∀ front, name ≠ front ++ "." := by
      rintro front rfl
      simp at hlast
    exact ⟨fun h => h.elim (fun h => absurd h (hnone _)) And.left, fun h => .inr ⟨h, hnone⟩⟩

/-! ## What decides -/

/-- The common name without a final dot, if anything is left of it, passes a test. -/
theorem any_commonName {commonName : Option String} {test : String → Bool} :
    ((commonName.map withoutFinalDot).filter (· ≠ "")).any test = true ↔
      ∃ name core, commonName = some name ∧ Undotted name core ∧ core ≠ "" ∧ test core = true := by
  simp only [undotted_iff]
  cases commonName with
  | none => simp
  | some name =>
    by_cases hempty : withoutFinalDot name = ""
    · simp [hempty]
    · simp [Option.filter, hempty]

variable {host bare : String} {dnsNames : List String} {addresses : List IpAddress}
  {commonName : Option String}

theorem isNumericHost_eq (h : Unbracketed host bare) :
    isNumericHost host = (IpAddress.parse? bare).isSome := by
  rw [isNumericHost, (unbracketed_bareHost host).unique h]

theorem isNumericHost_of_address {a : IpAddress} (h : Unbracketed host bare)
    (ha : IpAddress.parse? bare = some a) : isNumericHost host = true := by
  rw [isNumericHost_eq h, ha]
  rfl

theorem isNumericHost_of_name (h : Unbracketed host bare) (hnone : IpAddress.parse? bare = none) :
    isNumericHost host = false := by
  rw [isNumericHost_eq h, hnone]
  rfl

/-- An address literal is one of the addresses. -/
theorem verifyHostname_address {a : IpAddress} (h : Unbracketed host bare)
    (ha : IpAddress.parse? bare = some a) (hne : addresses ≠ []) :
    verifyHostname host dnsNames addresses commonName = true ↔ a ∈ addresses := by
  have hnumeric := isNumericHost_of_address h ha
  have hsome : addresses.isEmpty = false := by simpa using hne
  rw [verifyHostname, (unbracketed_bareHost host).unique h]
  simp [hnumeric, hsome, ha]

/-- Without addresses, an address literal is the common name, character by character. -/
theorem verifyHostname_literal {a : IpAddress} (h : Unbracketed host bare)
    (ha : IpAddress.parse? bare = some a) :
    verifyHostname host dnsNames [] commonName = true ↔
      ∃ name core, commonName = some name ∧ Undotted name core ∧ core ≠ "" ∧ core = bare := by
  have hnumeric := isNumericHost_of_address h ha
  simp only [verifyHostname, hnumeric, if_true, List.isEmpty_nil,
    (unbracketed_bareHost host).unique h, any_commonName, decide_eq_true_eq]

/-- A name matches one of the DNS names. -/
theorem verifyHostname_name (h : Unbracketed host bare) (hnone : IpAddress.parse? bare = none)
    (hne : dnsNames ≠ []) :
    verifyHostname host dnsNames addresses commonName = true ↔
      ∃ name ∈ dnsNames, ∃ core, Undotted name core ∧ matchesPattern core host = true := by
  have hnumeric := isNumericHost_of_name h hnone
  have hsome : dnsNames.isEmpty = false := by simpa using hne
  simp [verifyHostname, hnumeric, hsome, undotted_iff]

/-- Without DNS names, a name matches the common name. -/
theorem verifyHostname_commonName (h : Unbracketed host bare)
    (hnone : IpAddress.parse? bare = none) :
    verifyHostname host [] addresses commonName = true ↔
      ∃ name core, commonName = some name ∧ Undotted name core ∧ core ≠ "" ∧
        matchesPattern core host = true := by
  have hnumeric := isNumericHost_of_name h hnone
  simp only [verifyHostname, hnumeric, Bool.false_eq_true, if_false, List.isEmpty_nil, if_true,
    any_commonName]

/-! ## What does not decide -/

theorem isEmpty_of_members {α : Type} {l l' : List α} (h : ∀ x, x ∈ l' ↔ x ∈ l) :
    l' = [] ↔ l = [] := by
  rw [List.eq_nil_iff_forall_not_mem, List.eq_nil_iff_forall_not_mem]
  exact forall_congr' fun x => not_congr (h x)

/-- DNS names do not admit an address literal, and do not refuse it. -/
theorem verifyHostname_of_address {a : IpAddress} (h : Unbracketed host bare)
    (ha : IpAddress.parse? bare = some a) (dnsNames' : List String) :
    verifyHostname host dnsNames' addresses commonName =
      verifyHostname host dnsNames addresses commonName := by
  have hnumeric := isNumericHost_of_address h ha
  simp only [verifyHostname, hnumeric, if_true]

/-- Addresses do not admit a name, and do not refuse it. -/
theorem verifyHostname_of_name (h : Unbracketed host bare) (hnone : IpAddress.parse? bare = none)
    (addresses' : List IpAddress) :
    verifyHostname host dnsNames addresses' commonName =
      verifyHostname host dnsNames addresses commonName := by
  have hnumeric := isNumericHost_of_name h hnone
  simp only [verifyHostname, hnumeric, Bool.false_eq_true, if_false]

/-- Neither the order of the entries counts nor how often each is there. -/
theorem verifyHostname_of_members {dnsNames' : List String} {addresses' : List IpAddress}
    (hd : ∀ name, name ∈ dnsNames' ↔ name ∈ dnsNames)
    (ha : ∀ a, a ∈ addresses' ↔ a ∈ addresses) :
    verifyHostname host dnsNames' addresses' commonName =
      verifyHostname host dnsNames addresses commonName := by
  have hbare := unbracketed_bareHost host
  rw [Bool.eq_iff_iff]
  cases hparse : IpAddress.parse? (bareHost host) with
  | some a =>
    by_cases hempty : addresses = []
    · rw [(isEmpty_of_members ha).2 hempty, hempty, verifyHostname_literal hbare hparse,
        verifyHostname_literal hbare hparse]
    · rw [verifyHostname_address hbare hparse hempty,
        verifyHostname_address hbare hparse (mt (isEmpty_of_members ha).1 hempty), ha]
  | none =>
    by_cases hempty : dnsNames = []
    · rw [(isEmpty_of_members hd).2 hempty, hempty, verifyHostname_commonName hbare hparse,
        verifyHostname_commonName hbare hparse]
    · rw [verifyHostname_name hbare hparse hempty,
        verifyHostname_name hbare hparse (mt (isEmpty_of_members hd).1 hempty)]
      simp only [hd]

/-- For an address literal the addresses decide, and the common name if there are none; for any
other host the DNS names decide, and the common name if there are none. An address literal equals
the common name to the letter, a name matches its pattern. Entries of the other kind change nothing,
nor does the common name beside an entry of the kind that decides, nor order and repetition. -/
theorem verifyHostname_kinds (host : String) (dnsNames : List String) (addresses : List IpAddress)
    (commonName : Option String) :
    ∃ bare, Unbracketed host bare ∧
      (∀ a, IpAddress.parse? bare = some a →
        (addresses ≠ [] →
          (verifyHostname host dnsNames addresses commonName = true ↔ a ∈ addresses) ∧
          ∀ commonName', verifyHostname host dnsNames addresses commonName' =
            verifyHostname host dnsNames addresses commonName) ∧
        (addresses = [] →
          (verifyHostname host dnsNames addresses commonName = true ↔
            ∃ name core, commonName = some name ∧ Undotted name core ∧ core ≠ "" ∧ core = bare)) ∧
        ∀ dnsNames', verifyHostname host dnsNames' addresses commonName =
          verifyHostname host dnsNames addresses commonName) ∧
      (IpAddress.parse? bare = none →
        (dnsNames ≠ [] →
          (verifyHostname host dnsNames addresses commonName = true ↔
            ∃ name ∈ dnsNames, ∃ core, Undotted name core ∧ matchesPattern core host = true) ∧
          ∀ commonName', verifyHostname host dnsNames addresses commonName' =
            verifyHostname host dnsNames addresses commonName) ∧
        (dnsNames = [] →
          (verifyHostname host dnsNames addresses commonName = true ↔
            ∃ name core, commonName = some name ∧ Undotted name core ∧ core ≠ "" ∧
              matchesPattern core host = true)) ∧
        ∀ addresses', verifyHostname host dnsNames addresses' commonName =
          verifyHostname host dnsNames addresses commonName) ∧
      ∀ dnsNames' addresses', (∀ name, name ∈ dnsNames' ↔ name ∈ dnsNames) →
        (∀ a, a ∈ addresses' ↔ a ∈ addresses) →
          verifyHostname host dnsNames' addresses' commonName =
            verifyHostname host dnsNames addresses commonName := by
  have hbare := unbracketed_bareHost host
  refine ⟨bareHost host, hbare, fun a ha => ⟨fun hne => ⟨?_, fun commonName' => ?_⟩, fun hnil => ?_,
    verifyHostname_of_address hbare ha⟩, fun hnone => ⟨fun hne => ⟨?_, fun commonName' => ?_⟩,
    fun hnil => ?_, verifyHostname_of_name hbare hnone⟩,
    fun _ _ hd ha => verifyHostname_of_members hd ha⟩
  · exact verifyHostname_address hbare ha hne
  · rw [Bool.eq_iff_iff, verifyHostname_address hbare ha hne, verifyHostname_address hbare ha hne]
  · rw [hnil]
    exact verifyHostname_literal hbare ha
  · exact verifyHostname_name hbare hnone hne
  · rw [Bool.eq_iff_iff, verifyHostname_name hbare hnone hne, verifyHostname_name hbare hnone hne]
  · rw [hnil]
    exact verifyHostname_commonName hbare hnone

/-- A bracketed address that is not among the addresses is refused, though a DNS name and the common
name spell it; a name is covered by a wildcard, though the common name is another one. -/
theorem mixed_entries_decide :
    (IpAddress.parse? "::1" = some (.v6 #v[0, 0, 0, 0, 0, 0, 0, 1]) ∧
      verifyHostname "[::1]" ["[::1]"] [.v4 10 0 0 1] (some "::1") = false) ∧
    (IpAddress.parse? "a.b.example" = none ∧
      verifyHostname "a.b.example" ["c.example", "*.b.example."] [] (some "c.example") = true) := by
  obtain ⟨bare, hbare, haddress, -⟩ :=
    verifyHostname_kinds "[::1]" ["[::1]"] [.v4 10 0 0 1] (some "::1")
  obtain ⟨bare', hbare', -, hname, -⟩ :=
    verifyHostname_kinds "a.b.example" ["c.example", "*.b.example."] [] (some "c.example")
  obtain rfl : "::1" = bare := Unbracketed.unique (.inl (by decide)) hbare
  have hinner : ∀ inner, "a.b.example" ≠ "[" ++ inner ++ "]" := by
    intro inner h
    have hhead := congrArg (fun text => text.toList.head?) h
    simp at hhead
  obtain rfl : "a.b.example" = bare' := Unbracketed.unique (.inr ⟨rfl, hinner⟩) hbare'
  have hparse : IpAddress.parse? "::1" = some (.v6 #v[0, 0, 0, 0, 0, 0, 0, 1]) := by decide
  have hnone : IpAddress.parse? "a.b.example" = none := by decide
  refine ⟨⟨hparse, ?_⟩, hnone, ?_⟩
  · rw [Bool.eq_false_iff, ne_eq, ((haddress _ hparse).1 (by simp)).1]
    decide
  · exact ((hname hnone).1 (by simp)).1.2
      ⟨"*.b.example.", by simp, "*.b.example", .inl (by decide), by decide⟩

/-! ## The empty host -/

theorem matchesPattern_empty {pattern : String} :
    matchesPattern pattern "" = true ↔ pattern = "" := by
  rw [matchesPattern_iff]
  constructor
  · intro h
    cases h with
    | literal _ same =>
      rw [← String.toList_inj]
      exact List.map_eq_nil_iff.1 same
    | wildcard _ _ covers =>
      obtain ⟨front, covered, back, tail, htext, -, -, -, hne, -⟩ := covers
      have hnil := (List.append_eq_nil_iff.1 htext.symm).1
      exact absurd (List.append_eq_nil_iff.1 (List.append_eq_nil_iff.1 hnil).1).2 hne
  · rintro rfl
    exact .refl _

theorem undotted_empty_iff {name : String} : Undotted name "" ↔ name = "" ∨ name = "." := by
  constructor
  · rintro (rfl | ⟨rfl, -⟩)
    · exact .inr String.empty_append
    · exact .inl rfl
  · rintro (rfl | rfl)
    · refine .inr ⟨rfl, fun front h => ?_⟩
      have hlist := congrArg String.toList h
      simp at hlist
    · exact .inl String.empty_append.symm

/-- The empty host is a name. It is covered exactly if a DNS name is empty or a lone dot: such a
common name is left out, such a DNS name is not. -/
theorem verifyHostname_empty :
    verifyHostname "" dnsNames addresses commonName = true ↔ "" ∈ dnsNames ∨ "." ∈ dnsNames := by
  have hbare : Unbracketed "" (bareHost "") := unbracketed_bareHost ""
  have hnone : IpAddress.parse? (bareHost "") = none := by decide
  by_cases hempty : dnsNames = []
  · subst hempty
    rw [verifyHostname_commonName hbare hnone]
    simp only [matchesPattern_empty, List.not_mem_nil, or_self, iff_false]
    rintro ⟨name, core, -, -, hne, rfl⟩
    exact hne rfl
  · rw [verifyHostname_name hbare hnone hempty]
    constructor
    · rintro ⟨name, hname, core, hcore, hmatch⟩
      rw [matchesPattern_empty] at hmatch
      subst hmatch
      rcases undotted_empty_iff.1 hcore with rfl | rfl
      · exact .inl hname
      · exact .inr hname
    · rintro (hname | hname)
      · exact ⟨"", hname, "", undotted_empty_iff.2 (.inl rfl), matchesPattern_empty.2 rfl⟩
      · exact ⟨".", hname, "", undotted_empty_iff.2 (.inr rfl), matchesPattern_empty.2 rfl⟩

end TlsTransport
