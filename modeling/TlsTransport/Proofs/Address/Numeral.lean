import Mathlib.Data.List.Induction
import TlsTransport.Proofs.Address.Digits
import TlsTransport.Resolve

/-! # Decimal numerals

A row of decimal digits stands for a number, however long it is and whatever zeros it starts with.

* `Numeral`: which number a row of digits stands for.
* `SignedNumeral`: the same, with or without a plus sign before it.
* `exists_numeral_iff`: the rows that stand for a number.
* `parseNumber?_of_numeral`: a numeral is read as its number, if that does not exceed the bound.
* `parseNumber?_eq_some_iff`: nothing else is read as a number.
-/

namespace TlsTransport

/-- The number that a row of decimal digits stands for. -/
inductive Numeral : List Char → Nat → Prop
  | digit {d : Nat} (hd : d < 10) : Numeral [d.digitChar] d
  | append {text : List Char} {n d : Nat} (h : Numeral text n) (hd : d < 10) :
      Numeral (text ++ [d.digitChar]) (10 * n + d)

/-- A numeral that may have a plus sign. -/
inductive SignedNumeral : List Char → Nat → Prop
  | bare {text : List Char} {n : Nat} (h : Numeral text n) : SignedNumeral text n
  | plus {text : List Char} {n : Nat} (h : Numeral text n) : SignedNumeral ('+' :: text) n

/-! ## Digits -/

theorem isDigit_iff {c : Char} : c.isDigit = true ↔ ∃ d < 10, c = Nat.digitChar d := by
  constructor
  · intro h
    simp only [Char.isDigit, Bool.and_eq_true, decide_eq_true_eq] at h
    have hlow : 48 ≤ c.toNat := h.1
    have hhigh : c.toNat ≤ 57 := h.2
    refine ⟨c.toNat - 48, by omega, Char.toNat_inj.1 ?_⟩
    rw [Nat.toNat_digitChar_of_lt_ten (by omega)]
    omega
  · rintro ⟨d, hd, rfl⟩
    have hall : ∀ d : Fin 10, (Nat.digitChar d).isDigit = true := by decide
    exact hall ⟨d, hd⟩

theorem isDigit_of_digitValue?_ten {c : Char} {d : Nat} (h : digitValue? 10 c = some d) :
    c.isDigit = true := by
  obtain ⟨hvalue, hlt⟩ := Option.filter_eq_some_iff.1 h
  have hd : d < 10 := by simpa using hlt
  have hle : ∀ e : Char, e ≤ c → e.toNat ≤ c.toNat := fun _ h => h
  unfold hexValue? at hvalue
  split at hvalue
  · rename_i hdigit
    simp only [Char.isDigit, Bool.and_eq_true, decide_eq_true_eq]
    exact hdigit
  -- letters have larger values
  · split at hvalue
    · rename_i hletter
      have hlow : 97 ≤ c.toNat := hle 'a' hletter.1
      have hsub := Option.some.inj hvalue
      omega
    · split at hvalue
      · rename_i hletter
        have hlow : 65 ≤ c.toNat := hle 'A' hletter.1
        have hsub := Option.some.inj hvalue
        omega
      · cases hvalue

theorem digitValue?_ten_eq_some_iff {c : Char} {d : Nat} :
    digitValue? 10 c = some d ↔ d < 10 ∧ c = d.digitChar := by
  constructor
  · intro h
    obtain ⟨e, he, rfl⟩ := isDigit_iff.1 (isDigit_of_digitValue?_ten h)
    rw [digitValue?_digitChar he (by decide)] at h
    obtain rfl := Option.some.inj h
    exact ⟨he, rfl⟩
  · rintro ⟨hd, rfl⟩
    exact digitValue?_digitChar hd (by decide)

/-- What is taken for the digits of a text is written there. -/
theorem leadingDigits_ten (text : List Char) :
    text = (leadingDigits 10 text).1.map Nat.digitChar ++ (leadingDigits 10 text).2 ∧
      ∀ d ∈ (leadingDigits 10 text).1, d < 10 := by
  induction text with
  | nil => exact ⟨rfl, List.forall_mem_nil _⟩
  | cons c rest ih =>
    obtain ⟨htext, hlt⟩ := ih
    rw [leadingDigits]
    cases hvalue : digitValue? 10 c with
    | none => exact ⟨rfl, List.forall_mem_nil _⟩
    | some d =>
      obtain ⟨hd, rfl⟩ := digitValue?_ten_eq_some_iff.1 hvalue
      exact ⟨congrArg (d.digitChar :: ·) htext, List.forall_mem_cons.2 ⟨hd, hlt⟩⟩

/-! ## Numerals and their digits -/

/-- The value of digits, the most significant first. -/
def decimalValue (digits : List Nat) : Nat := digits.foldl (fun n d => 10 * n + d) 0

theorem decimalValue_append (digits : List Nat) (d : Nat) :
    decimalValue (digits ++ [d]) = 10 * decimalValue digits + d := by
  rw [decimalValue, List.foldl_append]
  rfl

namespace Numeral

variable {text : List Char} {n : Nat}

theorem of_digits {digits : List Nat} (hne : digits ≠ []) (hlt : ∀ d ∈ digits, d < 10) :
    Numeral (digits.map Nat.digitChar) (decimalValue digits) := by
  induction digits using List.reverseRecOn with
  | nil => exact absurd rfl hne
  | append_singleton digits d ih =>
    have hd : d < 10 := hlt d (by simp)
    rw [List.map_append, decimalValue_append]
    by_cases hdigits : digits = []
    · subst hdigits
      simpa [decimalValue] using digit hd
    · exact append (ih hdigits fun e he => hlt e (List.mem_append_left _ he)) hd

theorem exists_digits (h : Numeral text n) : ∃ digits : List Nat, digits ≠ [] ∧
    (∀ d ∈ digits, d < 10) ∧ text = digits.map Nat.digitChar ∧ decimalValue digits = n := by
  induction h with
  | @digit d hd => exact ⟨[d], by simp, by simpa using hd, rfl, by simp [decimalValue]⟩
  | @append text n d h hd ih =>
    obtain ⟨digits, hne, hlt, rfl, rfl⟩ := ih
    refine ⟨digits ++ [d], by simp, ?_, by simp, decimalValue_append digits d⟩
    simpa [or_imp, forall_and] using ⟨hlt, hd⟩

theorem ne_nil (h : Numeral text n) : text ≠ [] := by
  cases h <;> simp

theorem isDigit (h : Numeral text n) : ∀ c ∈ text, c.isDigit = true := by
  obtain ⟨digits, -, hlt, rfl, -⟩ := h.exists_digits
  intro c hc
  obtain ⟨d, hd, rfl⟩ := List.mem_map.1 hc
  exact isDigit_iff.2 ⟨d, hlt d hd, rfl⟩

theorem notMem (h : Numeral text n) {c : Char} (hc : c.isDigit = false) : c ∉ text := by
  intro hmem
  rw [h.isDigit c hmem] at hc
  cases hc

/-- A zero in front does not change the number. -/
theorem cons_zero (h : Numeral text n) : Numeral ('0' :: text) n := by
  induction h with
  | @digit d hd =>
    have h := append (digit (show 0 < 10 by decide)) hd
    rwa [Nat.mul_zero, Nat.zero_add] at h
  | append h hd ih => exact append ih hd

theorem zeros (h : Numeral text n) (count : Nat) :
    Numeral (List.replicate count '0' ++ text) n := by
  induction count with
  | zero => exact h
  | succ count ih => exact ih.cons_zero

theorem toDigits (n : Nat) : Numeral (Nat.toDigits 10 n) n := by
  obtain ⟨digits, h⟩ := exists_isDigits (show 1 < 10 by decide) n
  have hne : digits ≠ [] := by
    rintro rfl
    exact Nat.toDigits_ne_nil h.text
  have hvalue : decimalValue digits = n := h.value
  rw [h.text]
  exact hvalue ▸ of_digits hne h.lt

end Numeral

/-- A row of digits stands for a number when it is not empty. -/
theorem exists_numeral_iff {text : List Char} :
    (∃ n, Numeral text n) ↔ text ≠ [] ∧ text.all Char.isDigit = true := by
  rw [List.all_eq_true]
  constructor
  · rintro ⟨n, h⟩
    exact ⟨h.ne_nil, h.isDigit⟩
  · rintro ⟨hne, hall⟩
    induction text using List.reverseRecOn with
    | nil => exact absurd rfl hne
    | append_singleton text c ih =>
      obtain ⟨d, hd, rfl⟩ := isDigit_iff.1 (hall c (by simp))
      by_cases htext : text = []
      · subst htext
        exact ⟨d, .digit hd⟩
      · obtain ⟨n, h⟩ := ih htext fun c hc => hall c (List.mem_append_left _ hc)
        exact ⟨10 * n + d, h.append hd⟩

/-! ## Reading -/

theorem read?_of_numeral {text : List Char} {n : Nat} (h : Numeral text n) (bound : Nat) :
    NumberFormat.read? ⟨10, none, bound, true⟩ text = if n ≤ bound then some (n, []) else none := by
  obtain ⟨digits, hne, hlt, rfl, rfl⟩ := h.exists_digits
  have hdigits : leadingDigits 10 (digits.map Nat.digitChar) = (digits, []) := by
    simpa using leadingDigits_append (by decide) hlt (noDigit_nil 10)
  have hempty : digits.isEmpty = false := List.isEmpty_eq_false_iff.2 hne
  rw [NumberFormat.read?, hdigits]
  simp only [hempty, Option.any_none, Bool.not_true, Bool.false_and, Bool.false_eq_true, if_false]
  by_cases hn : decimalValue digits ≤ bound
  · rw [if_pos hn]
    exact if_neg (Nat.not_lt.2 hn)
  · rw [if_neg hn]
    exact if_pos (Nat.not_le.1 hn)

theorem numeral_of_read? {text : List Char} {n bound : Nat}
    (h : NumberFormat.read? ⟨10, none, bound, true⟩ text = some (n, [])) : Numeral text n := by
  obtain ⟨htext, hlt⟩ := leadingDigits_ten text
  rw [NumberFormat.read?] at h
  generalize leadingDigits 10 text = r at h htext hlt
  obtain ⟨digits, rest⟩ := r
  simp only [Option.any_none, Bool.not_true, Bool.false_and, Bool.false_eq_true, if_false] at h
  split at h
  · cases h
  · rename_i hempty
    split at h
    · cases h
    · obtain ⟨rfl, rfl⟩ := Prod.mk.inj (Option.some.inj h)
      rw [htext, List.append_nil]
      exact .of_digits (by simpa using hempty) hlt

/-- A plus sign makes no difference. -/
theorem parseNumber?_plus {text : List Char} (h : '+' ∉ text) (bound : Nat) :
    parseNumber? bound text = parseNumber? bound ('+' :: text) := by
  unfold parseNumber?
  split
  · exact absurd List.mem_cons_self h
  · rfl

/-- A numeral is read as its number, unless that exceeds the bound. -/
theorem parseNumber?_of_numeral {text : List Char} {n : Nat} (h : SignedNumeral text n)
    (bound : Nat) : parseNumber? bound text = if n ≤ bound then some n else none := by
  have hplus : ∀ {digits}, Numeral digits n →
      parseNumber? bound ('+' :: digits) = if n ≤ bound then some n else none := by
    intro digits h
    have hread := read?_of_numeral h bound
    by_cases hn : n ≤ bound
    · rw [if_pos hn] at hread ⊢
      simp only [parseNumber?, hread]
    · rw [if_neg hn] at hread ⊢
      simp only [parseNumber?, hread]
  cases h with
  | plus h => exact hplus h
  | bare h => rw [parseNumber?_plus (h.notMem rfl), hplus h]

/-- What is read as a number is a numeral that does not exceed the bound. -/
theorem parseNumber?_eq_some_iff {text : List Char} {n bound : Nat} :
    parseNumber? bound text = some n ↔ SignedNumeral text n ∧ n ≤ bound := by
  constructor
  · intro h
    have hnumeral : SignedNumeral text n := by
      unfold parseNumber? at h
      dsimp only at h
      split at h
      · rename_i value hread
        obtain rfl := Option.some.inj h
        split at hread
        · exact .plus (numeral_of_read? hread)
        · exact .bare (numeral_of_read? hread)
      · cases h
    rw [parseNumber?_of_numeral hnumeral] at h
    exact ⟨hnumeral, (Option.ite_none_right_eq_some.1 h).1⟩
  · rintro ⟨hnumeral, hn⟩
    rw [parseNumber?_of_numeral hnumeral, if_pos hn]

theorem SignedNumeral.unique {text : List Char} {n m : Nat} (hn : SignedNumeral text n)
    (hm : SignedNumeral text m) : n = m := by
  have hread := parseNumber?_of_numeral hn (max n m)
  rw [parseNumber?_of_numeral hm, if_pos (Nat.le_max_right n m),
    if_pos (Nat.le_max_left n m)] at hread
  exact (Option.some.inj hread).symm

theorem SignedNumeral.ne_nil {text : List Char} {n : Nat} (h : SignedNumeral text n) :
    text ≠ [] := by
  cases h with
  | bare h => exact h.ne_nil
  | plus h => exact List.cons_ne_nil _ _

theorem SignedNumeral.notMem {text : List Char} {n : Nat} (h : SignedNumeral text n) {c : Char}
    (hc : c.isDigit = false) (hplus : c ≠ '+') : c ∉ text := by
  cases h with
  | bare h => exact h.notMem hc
  | plus h => exact List.not_mem_cons_of_ne_of_not_mem hplus (h.notMem hc)

end TlsTransport
