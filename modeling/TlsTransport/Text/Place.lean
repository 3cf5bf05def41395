import TlsTransport.Bytes

/-! # Places in a text

A place in a text is the number of bytes in front of it in UTF-8. A text is cut only between two of
its characters: at any other place, and behind its end, there is nothing to answer. A byte string is
cut anywhere up to its end.

* `utf8`: the bytes of a text.
* `placeOf?`: where a character stands first.
* `cut?`, `Bytes.cut?`: the two parts around a place.
* `placeOf?_eq_some_iff`, `cut?_eq_some_iff`: what they answer, said of the text alone.
-/

namespace TlsTransport

/-- The bytes of a text in UTF-8. -/
def utf8 (text : List Char) : Bytes := text.flatMap String.utf8EncodeChar

@[simp] theorem utf8_nil : utf8 [] = [] := rfl

@[simp] theorem utf8_append (a b : List Char) : utf8 (a ++ b) = utf8 a ++ utf8 b :=
  List.flatMap_append

theorem utf8_cons (c : Char) (text : List Char) :
    utf8 (c :: text) = String.utf8EncodeChar c ++ utf8 text := rfl

@[simp] theorem length_utf8_cons (c : Char) (text : List Char) :
    (utf8 (c :: text)).length = c.utf8Size + (utf8 text).length := by
  rw [utf8_cons, List.length_append, String.length_utf8EncodeChar]

/-- Each character has a byte. -/
theorem length_utf8_pos {text : List Char} (h : text ≠ []) : 0 < (utf8 text).length := by
  cases text with
  | nil => exact absurd rfl h
  | cons c text =>
    have := c.utf8Size_pos
    rw [length_utf8_cons]
    omega

/-- The place of the first `c` in a text. -/
def placeOf? (c : Char) : List Char → Option Nat
  | [] => none
  | d :: rest => if d = c then some 0 else (placeOf? c rest).map (d.utf8Size + ·)

theorem placeOf?_of_notMem {c : Char} {text : List Char} (h : c ∉ text) :
    placeOf? c text = none := by
  induction text with
  | nil => rfl
  | cons d rest ih =>
    have hd : d ≠ c := fun e => h (e ▸ List.mem_cons_self)
    rw [placeOf?, if_neg hd, ih fun hc => h (List.mem_cons_of_mem d hc)]
    rfl

theorem placeOf?_append {c : Char} {front : List Char} (h : c ∉ front) (back : List Char) :
    placeOf? c (front ++ c :: back) = some (utf8 front).length := by
  induction front with
  | nil => simp [placeOf?]
  | cons d front ih =>
    have hd : d ≠ c := fun e => h (e ▸ List.mem_cons_self)
    rw [List.cons_append, placeOf?, if_neg hd, ih fun hc => h (List.mem_cons_of_mem d hc),
      length_utf8_cons]
    rfl

theorem placeOf?_eq_some_iff {c : Char} {text : List Char} {n : Nat} :
    placeOf? c text = some n ↔
      ∃ front back, text = front ++ c :: back ∧ c ∉ front ∧ (utf8 front).length = n := by
  constructor
  · intro h
    by_cases hc : c ∈ text
    · obtain ⟨front, back, rfl, hfront⟩ := List.eq_append_cons_of_mem hc
      rw [placeOf?_append hfront] at h
      exact ⟨front, back, rfl, hfront, Option.some.inj h⟩
    · rw [placeOf?_of_notMem hc] at h
      cases h
  · rintro ⟨front, back, rfl, hfront, rfl⟩
    exact placeOf?_append hfront back

/-- The parts of a text before a place and from it on. -/
def cut? : List Char → Nat → Option (List Char × List Char)
  | text, 0 => some ([], text)
  | [], _ + 1 => none
  | c :: rest, n + 1 =>
    if c.utf8Size ≤ n + 1 then
      (cut? rest (n + 1 - c.utf8Size)).map fun (front, back) => (c :: front, back)
    else none

theorem cut?_append (front back : List Char) :
    cut? (front ++ back) (utf8 front).length = some (front, back) := by
  induction front with
  | nil => simp [cut?]
  | cons c front ih =>
    have hpos := c.utf8Size_pos
    obtain ⟨n, hn⟩ : ∃ n, (utf8 (c :: front)).length = n + 1 :=
      Nat.exists_eq_add_one.2 (by rw [length_utf8_cons]; omega)
    have hlen := hn
    rw [length_utf8_cons] at hlen
    have hrest : n + 1 - c.utf8Size = (utf8 front).length := by omega
    rw [List.cons_append, hn, cut?, if_pos (by omega), hrest, ih]
    rfl

theorem cut?_eq_some_iff {text front back : List Char} {n : Nat} :
    cut? text n = some (front, back) ↔ text = front ++ back ∧ (utf8 front).length = n := by
  constructor
  · intro h
    induction text, n using cut?.induct generalizing front with
    | case1 text =>
      simp only [cut?, Option.some.injEq, Prod.mk.injEq] at h
      obtain ⟨rfl, rfl⟩ := h
      exact ⟨rfl, rfl⟩
    | case2 n => cases h
    | case3 c rest n hle ih =>
      rw [cut?, if_pos hle, Option.map_eq_some_iff] at h
      obtain ⟨⟨inner, tail⟩, hcut, heq⟩ := h
      obtain ⟨rfl, rfl⟩ := Prod.mk.inj heq
      obtain ⟨rfl, hlen⟩ := ih hcut
      rw [length_utf8_cons]
      exact ⟨rfl, by omega⟩
    | case4 c rest n hgt =>
      rw [cut?, if_neg hgt] at h
      cases h
  · rintro ⟨rfl, rfl⟩
    exact cut?_append front back

/-- The first `n` bytes of a byte string and the others. -/
def Bytes.cut? (bytes : Bytes) (n : Nat) : Option (Bytes × Bytes) :=
  if n ≤ bytes.length then some (bytes.splitAt n) else none

theorem Bytes.cut?_of_le {bytes : Bytes} {n : Nat} (h : n ≤ bytes.length) :
    bytes.cut? n = some (bytes.take n, bytes.drop n) := by
  rw [Bytes.cut?, if_pos h, List.splitAt_eq]

end TlsTransport
