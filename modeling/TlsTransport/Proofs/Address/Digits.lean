import Mathlib.Data.List.Basic
import TlsTransport.Address

/-! # Numbers in addresses, written and read

* `IsDigits`: the digits of a number, most significant first.
* `leadingDigits_append`: the digits at the front of a text, up to what is none.
* `NumberFormat.read?_toDigits`: a number that a format admits is read where it was written.
* `NumberFormat.read?_suffix`: what is left after a number was there before.
-/

namespace TlsTransport

/-! ## Digits -/

/-- The digits of a number in a radix, the most significant first, without a zero in front. -/
structure IsDigits (radix n : Nat) (digits : List Nat) : Prop where
  text : Nat.toDigits radix n = digits.map Nat.digitChar
  lt : ∀ d ∈ digits, d < radix
  value : digits.foldl (fun n d => radix * n + d) 0 = n
  zero : digits.head? = some 0 → n = 0

theorem exists_isDigits {radix : Nat} (hradix : 1 < radix) (n : Nat) :
    ∃ digits, IsDigits radix n digits := by
  induction n using Nat.strongRecOn with
  | ind n ih =>
    by_cases hn : n < radix
    · refine ⟨[n], Nat.toDigits_of_lt_base hn, by simpa using hn, by simp, by simp⟩
    · have hdiv : 0 < n / radix := Nat.div_pos (by omega) (by omega)
      obtain ⟨digits, htext, hlt, hvalue, hzero⟩ := ih (n / radix) (Nat.div_lt_self (by omega) hradix)
      have hlast : n % radix < radix := Nat.mod_lt n (by omega)
      have hne : digits ≠ [] := by
        rintro rfl
        exact Nat.toDigits_ne_nil htext
      refine ⟨digits ++ [n % radix], ?_, ?_, ?_, fun hhead => ?_⟩
      · rw [Nat.toDigits_of_base_le hradix (by omega), htext, List.map_append]
        rfl
      · simpa [or_imp, forall_and] using ⟨hlt, hlast⟩
      · rw [List.foldl_append, hvalue]
        exact Nat.div_add_mod n radix
      · rw [List.head?_append_of_ne_nil _ hne] at hhead
        exact absurd (hzero hhead) (by omega)

theorem IsDigits.length {radix n : Nat} {digits : List Nat} (h : IsDigits radix n digits) :
    digits.length = (Nat.toDigits radix n).length := by
  rw [h.text, List.length_map]

/-- A text that does not start with a digit. -/
def NoDigit (radix : Nat) (text : List Char) : Prop :=
  ∀ c, text.head? = some c → digitValue? radix c = none

theorem noDigit_cons {radix : Nat} {c : Char} (h : digitValue? radix c = none) (rest : List Char) :
    NoDigit radix (c :: rest) := by
  rintro d hd
  obtain rfl := Option.some.inj hd
  exact h

theorem noDigit_nil (radix : Nat) : NoDigit radix [] := nofun

theorem NoDigit.mono {radix radix' : Nat} {text : List Char} (h : NoDigit radix text)
    (hle : radix' ≤ radix) : NoDigit radix' text := by
  intro c hc
  have hnone := h c hc
  rw [digitValue?, Option.filter_eq_none_iff] at hnone ⊢
  intro n hn hlt
  have hdigit : n < radix' := by simpa using hlt
  exact hnone n hn (by simp; omega)

theorem digitValue?_digitChar {radix d : Nat} (hd : d < radix) (hradix : radix ≤ 16) :
    digitValue? radix d.digitChar = some d := by
  have hall : ∀ d : Fin 16, hexValue? (Nat.digitChar d) = some d.val := by decide
  rw [digitValue?, hall ⟨d, by omega⟩]
  simpa using hd

theorem leadingDigits_of_noDigit {radix : Nat} {text : List Char} (h : NoDigit radix text) :
    leadingDigits radix text = ([], text) := by
  cases text with
  | nil => rfl
  | cons c rest => rw [leadingDigits, h c rfl]

theorem leadingDigits_append {radix : Nat} (hradix : radix ≤ 16) {digits : List Nat}
    (hdigits : ∀ d ∈ digits, d < radix) {rest : List Char} (hrest : NoDigit radix rest) :
    leadingDigits radix (digits.map Nat.digitChar ++ rest) = (digits, rest) := by
  induction digits with
  | nil => exact leadingDigits_of_noDigit hrest
  | cons d digits ih =>
    rw [List.map_cons, List.cons_append, leadingDigits,
      digitValue?_digitChar (hdigits d List.mem_cons_self) hradix,
      ih fun d hd => hdigits d (List.mem_cons_of_mem _ hd)]

theorem leadingDigits_suffix (radix : Nat) (text : List Char) :
    (leadingDigits radix text).2 <:+ text := by
  induction text with
  | nil => exact List.suffix_refl _
  | cons c rest ih =>
    rw [leadingDigits]
    split
    · exact ih.trans (List.suffix_cons c rest)
    · exact List.suffix_refl _

/-! ## Numbers -/

namespace NumberFormat

variable {f : NumberFormat}

/-- A format has enough digits for the numbers that it admits. -/
def Ample (f : NumberFormat) : Prop :=
  1 < f.radix ∧ f.radix ≤ 16 ∧ ∀ m, f.maxDigits = some m → 0 < m ∧ f.bound < Nat.pow f.radix m

theorem ample_octet : octet.Ample := by
  refine ⟨by decide, by decide, fun m hm => ?_⟩
  obtain rfl := Option.some.inj hm
  decide

theorem ample_group : group.Ample := by
  refine ⟨by decide, by decide, fun m hm => ?_⟩
  obtain rfl := Option.some.inj hm
  decide

/-- A number is read where it was written, whatever follows it but a digit. -/
theorem read?_toDigits (hf : f.Ample) {n : Nat} (hn : n ≤ f.bound) {rest : List Char}
    (hrest : NoDigit f.radix rest) :
    f.read? (Nat.toDigits f.radix n ++ rest) = some (n, rest) := by
  obtain ⟨hbase, hradix, hfits⟩ := hf
  obtain ⟨digits, h⟩ := exists_isDigits hbase n
  have hempty : digits.isEmpty = false := by
    rw [List.isEmpty_eq_false_iff]
    rintro rfl
    exact Nat.toDigits_ne_nil h.text
  have hmost : f.maxDigits.any (· < digits.length) = false := by
    cases hmax : f.maxDigits with
    | none => rfl
    | some m =>
      obtain ⟨hpos, hbound⟩ := hfits m hmax
      have hle := (Nat.length_toDigits_le_iff hbase hpos).2 (Nat.lt_of_le_of_lt hn hbound)
      rw [← h.length] at hle
      simpa using hle
  have hzero : (!f.zeroFirst && digits.head? == some 0 && 1 < digits.length) = false := by
    by_cases hhead : digits.head? = some 0
    · have hlength : digits.length = 1 := by
        rw [h.length, h.zero hhead, Nat.toDigits_zero]
        rfl
      simp [hlength]
    · simp [hhead]
  rw [h.text, read?, leadingDigits_append hradix h.lt hrest]
  simp only [hempty, hmost, hzero, h.value, Bool.false_eq_true, if_false,
    if_neg (Nat.not_lt.2 hn)]

theorem read?_suffix {text rest : List Char} {n : Nat} (h : f.read? text = some (n, rest)) :
    rest <:+ text := by
  have hsuffix := leadingDigits_suffix f.radix text
  rw [read?] at h
  generalize leadingDigits f.radix text = r at h hsuffix
  simp only at h
  split at h
  · cases h
  · split at h
    · cases h
    · split at h
      · cases h
      · split at h
        · cases h
        · obtain ⟨-, rfl⟩ := Prod.mk.inj (Option.some.inj h)
          exact hsuffix

/-- There is no number where there is no digit. -/
theorem read?_of_noDigit {text : List Char} (h : NoDigit f.radix text) : f.read? text = none := by
  rw [read?, leadingDigits_of_noDigit h]
  rfl

theorem octet_read? (n : UInt8) {rest : List Char} (hrest : NoDigit 10 rest) :
    octet.read? (Nat.toDigits 10 n.toNat ++ rest) = some (n.toNat, rest) :=
  read?_toDigits ample_octet (Nat.le_of_lt_succ n.toNat_lt) hrest

theorem group_read? (n : UInt16) {rest : List Char} (hrest : NoDigit 16 rest) :
    group.read? (Nat.toDigits 16 n.toNat ++ rest) = some (n.toNat, rest) :=
  read?_toDigits ample_group (Nat.le_of_lt_succ n.toNat_lt) hrest

end NumberFormat
end TlsTransport
