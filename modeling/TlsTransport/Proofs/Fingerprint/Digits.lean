import Mathlib.Data.List.Basic
import TlsTransport.Proofs.Hostname.Letters

/-! # Hexadecimal text of either case

Hexadecimal text is read without regard to case. What it is read as is written in lower case, so a
text and its bytes are the same thing but for case.

* `IsHexDigit`: the digits.
* `Bytes.ofHexDigits?_congr`: reading looks at the values of the digits alone.
* `Bytes.ofHexDigits?_eq_some_iff`: a text is read as the bytes that are written like it in lower
  case.
* `Bytes.exists_ofHexDigits?_iff`: which texts are read.
-/

namespace TlsTransport

/-! ## Digits -/

/-- A hexadecimal digit of either case. -/
def IsHexDigit (c : Char) : Prop :=
  ('0' ≤ c ∧ c ≤ '9') ∨ ('a' ≤ c ∧ c ≤ 'f') ∨ ('A' ≤ c ∧ c ≤ 'F')

instance (c : Char) : Decidable (IsHexDigit c) := inferInstanceAs (Decidable (_ ∨ _))

theorem hexValue?_toLower (c : Char) : hexValue? c.toLower = hexValue? c := by
  refine forall_toLower (P := fun c l => hexValue? l = hexValue? c) (by decide +kernel) ?_ c
  exact fun c _ => rfl

theorem isSome_hexValue?_iff {c : Char} : (hexValue? c).isSome = true ↔ IsHexDigit c := by
  unfold hexValue? IsHexDigit
  split
  · simp_all
  · split
    · simp_all
    · split <;> simp_all

theorem IsHexDigit.ascii {c : Char} (h : IsHexDigit c) : c.toNat < 128 := by
  have hle : ∀ d : Char, c ≤ d → c.toNat ≤ d.toNat := fun _ h => h
  rcases h with ⟨-, h⟩ | ⟨-, h⟩ | ⟨-, h⟩
  · exact Nat.lt_of_le_of_lt (hle _ h) (by decide)
  · exact Nat.lt_of_le_of_lt (hle _ h) (by decide)
  · exact Nat.lt_of_le_of_lt (hle _ h) (by decide)

/-- A digit is written like its value, but for case. -/
theorem hexDigit_of_hexValue? {c : Char} {n : Nat} (h : hexValue? c = some n) :
    n < 16 ∧ hexDigit n = c.toLower := by
  have hdigit : IsHexDigit c := isSome_hexValue?_iff.1 (by rw [h]; rfl)
  refine forall_ascii (P := fun c => ∀ n ∈ hexValue? c, n < 16 ∧ hexDigit n = c.toLower)
    (by decide +kernel) hdigit.ascii n h

namespace Bytes

/-! ## Reading -/

theorem ofHexDigits?_congr {cs ds : List Char} (h : cs.map hexValue? = ds.map hexValue?) :
    ofHexDigits? cs = ofHexDigits? ds := by
  induction cs using ofHexDigits?.induct generalizing ds with
  | case1 =>
    obtain rfl : ds = [] := by simpa using h.symm
    rfl
  | case2 c =>
    obtain ⟨d, rfl⟩ : ∃ d, ds = [d] := by
      rw [← List.length_eq_one_iff, ← List.length_map hexValue?, ← h]
      rfl
    rfl
  | case3 a b rest ih =>
    match ds, h with
    | [_], h => simp at h
    | a' :: b' :: rest', h =>
      obtain ⟨ha, hb, hrest⟩ : hexValue? a = hexValue? a' ∧ hexValue? b = hexValue? b' ∧
          rest.map hexValue? = rest'.map hexValue? := by simpa using h
      rw [ofHexDigits?, ofHexDigits?, ha, hb, ih hrest]

theorem map_toLower_of_ofHexDigits? {cs : List Char} {bytes : Bytes}
    (h : ofHexDigits? cs = some bytes) : cs.map Char.toLower = bytes.hexDigits := by
  induction cs using ofHexDigits?.induct generalizing bytes with
  | case1 =>
    obtain rfl := Option.some.inj h
    rfl
  | case2 c => cases h
  | case3 a b rest ih =>
    simp only [ofHexDigits?, Option.bind_eq_bind, Option.bind_eq_some_iff, Option.pure_def,
      Option.some.injEq] at h
    obtain ⟨hi, hhi, lo, hlo, tail, htail, rfl⟩ := h
    obtain ⟨hhi16, hhidigit⟩ := hexDigit_of_hexValue? hhi
    obtain ⟨hlo16, hlodigit⟩ := hexDigit_of_hexValue? hlo
    have hbyte : (UInt8.ofNat (16 * hi + lo)).toNat = 16 * hi + lo := by
      rw [UInt8.toNat_ofNat']
      omega
    have hfirst : (16 * hi + lo) / 16 = hi := by omega
    have hsecond : (16 * hi + lo) % 16 = lo := by omega
    rw [hexDigits, hbyte, hfirst, hsecond, hhidigit, hlodigit, ← ih htail]
    rfl

theorem ofHexDigits?_eq_some_iff {cs : List Char} {bytes : Bytes} :
    ofHexDigits? cs = some bytes ↔ cs.map Char.toLower = bytes.hexDigits := by
  constructor
  · exact map_toLower_of_ofHexDigits?
  · intro h
    have hvalues : cs.map hexValue? = (cs.map Char.toLower).map hexValue? := by
      rw [List.map_map]
      exact List.map_congr_left fun c _ => (hexValue?_toLower c).symm
    rw [ofHexDigits?_congr hvalues, h, ofHexDigits?_hexDigits]

theorem exists_ofHexDigits?_iff {cs : List Char} :
    (∃ bytes, ofHexDigits? cs = some bytes) ↔ cs.length % 2 = 0 ∧ ∀ c ∈ cs, IsHexDigit c := by
  induction cs using ofHexDigits?.induct with
  | case1 => simp [ofHexDigits?]
  | case2 c => simp [ofHexDigits?]
  | case3 a b rest ih =>
    have heven : (a :: b :: rest).length % 2 = rest.length % 2 := by
      simp only [List.length_cons]
      omega
    rw [heven, List.forall_mem_cons, List.forall_mem_cons, ← isSome_hexValue?_iff,
      ← isSome_hexValue?_iff]
    simp only [ofHexDigits?]
    cases hexValue? a with
    | none => simp
    | some hi =>
      cases hexValue? b with
      | none => simp
      | some lo =>
        simp only [Option.isSome_some, true_and]
        rw [← ih]
        cases ofHexDigits? rest <;> simp

end Bytes
end TlsTransport
