import Mathlib.Data.List.TakeDrop
import TlsTransport.Proofs.Address.Numeral
import TlsTransport.SessionInfo

/-! # Fields of certificates by their names

The name of a field of a certificate has the place of the certificate in decimal.

* `SessionInfo.certificateField?_of_numeral`, `SessionInfo.certificateField?_cases`: what follows
  `tls.cert` is read as a place and a field where it has an index, a dot and a field, and as those
  of the peer's own certificate where it has a dot and a field.
* `SessionInfo.get?_certificate`: the value of such a name is that of the field.
-/

namespace TlsTransport
namespace SessionInfo

theorem certificateField?_of_numeral {index : List Char} {n : Nat} (h : SignedNumeral index n)
    (field : List Char) : certificateField? (index ++ '.' :: field) =
      if n ≤ indexBound then some (n, trimBlank field) else Option.none := by
  have hdot : '.' ∉ index := h.notMem rfl (by decide)
  have hno : ∀ c ∈ index, (c != '.') = true := fun c hc => by
    simpa using fun hc' : c = '.' => hdot (hc' ▸ hc)
  have hspan : (index ++ '.' :: field).span (· != '.') = (index, '.' :: field) := by
    rw [List.span_eq_takeWhile_dropWhile, List.takeWhile_append_of_pos hno,
      List.dropWhile_append_of_pos hno]
    simp
  unfold certificateField?
  split
  · rename_i rest htext
    cases index with
    | nil => exact absurd rfl h.ne_nil
    | cons c index =>
      obtain ⟨rfl, -⟩ := List.cons.inj htext
      exact absurd List.mem_cons_self hdot
  · rw [hspan]
    by_cases hn : n ≤ indexBound <;> simp [parseNumber?_of_numeral h, hn]

/-- What is read as a place and a field. -/
theorem certificateField?_cases {rest field : List Char} {n : Nat}
    (h : certificateField? rest = some (n, field)) :
    (n = 0 ∧ rest = '.' :: field) ∨ ∃ index padded, rest = index ++ '.' :: padded ∧
      SignedNumeral index n ∧ n ≤ indexBound ∧ field = trimBlank padded := by
  unfold certificateField? at h
  split at h
  · obtain ⟨rfl, rfl⟩ := Prod.mk.inj (Option.some.inj h)
    exact .inl ⟨rfl, rfl⟩
  · rw [List.span_eq_takeWhile_dropWhile] at h
    cases htail : rest.dropWhile (· != '.') with
    | nil => simp [htail] at h
    | cons c padded =>
      obtain rfl : c = '.' := by
        have hstop := List.head?_dropWhile_not (· != '.') rest
        rw [htail] at hstop
        simpa using hstop
      simp only [htail, List.tail?_cons, Option.bind_eq_bind, Option.bind_some, Option.pure_def,
        Option.bind_eq_some_iff, Option.some.injEq, Prod.mk.injEq] at h
      obtain ⟨m, hm, rfl, rfl⟩ := h
      obtain ⟨hindex, hbound⟩ := parseNumber?_eq_some_iff.1 hm
      refine .inr ⟨rest.takeWhile (· != '.'), padded, ?_, hindex, hbound, rfl⟩
      rw [← htail, List.takeWhile_append_dropWhile]

/-- A name that starts with `tls.cert` is none of the plain names. -/
theorem get?_of_front (info : SessionInfo) {name : String} {rest : List Char}
    (h : name.toList = "tls.cert".toList ++ rest) :
    info.get? name = (certificateField? rest).bind fun place =>
      (info.certificate? place.1).bind fun c => fieldOf? c place.2 := by
  have hplain : ∀ plain : String, plain.toList.take 8 ≠ "tls.cert".toList → name ≠ plain := by
    rintro plain hplain rfl
    refine hplain ?_
    rw [h]
    rfl
  rw [get?, if_neg (hplain _ (by decide)), if_neg (hplain _ (by decide)),
    if_neg (hplain _ (by decide)), if_neg (hplain _ (by decide)), if_neg (hplain _ (by decide)), h]
  rfl

/-- The value of `tls.cert`, a dot and the name of a field. -/
theorem get?_own (info : SessionInfo) (field : String) :
    info.get? ("tls.cert." ++ field) =
      (info.certificate? 0).bind fun c => fieldOf? c field.toList := by
  have hname : ("tls.cert." ++ field).toList = "tls.cert".toList ++ '.' :: field.toList := by
    simp
  rw [get?_of_front info hname]
  rfl

/-- The value of `tls.cert`, an index, a dot and the name of a field. -/
theorem get?_indexed (info : SessionInfo) {index : String} {n : Nat}
    (h : SignedNumeral index.toList n) (field : String) :
    info.get? ("tls.cert" ++ index ++ "." ++ field) =
      if n ≤ indexBound then
        (info.certificate? n).bind fun c => fieldOf? c (trimBlank field.toList)
      else Option.none := by
  have hname : ("tls.cert" ++ index ++ "." ++ field).toList =
      "tls.cert".toList ++ (index.toList ++ '.' :: field.toList) := by
    simp
  rw [get?_of_front info hname, certificateField?_of_numeral h]
  split <;> rfl

/-- The same for an index as it is written. -/
theorem get?_certificate (info : SessionInfo) (n : Nat) (field : String) :
    info.get? ("tls.cert" ++ toString n ++ "." ++ field) =
      if n ≤ indexBound then
        (info.certificate? n).bind fun c => fieldOf? c (trimBlank field.toList)
      else Option.none := by
  have hindex : SignedNumeral (toString n).toList n := by
    rw [show (toString n).toList = Nat.toDigits 10 n by simp]
    exact .bare (.toDigits n)
  exact info.get?_indexed hindex field

end SessionInfo
end TlsTransport
