import TlsTransport.Hostname

/-! # Letters and their bytes

Names are compared byte by byte, without regard to the case of ASCII letters. UTF-8 makes that a
comparison of characters: no character starts with the bytes of another, none ends with them, and
the bytes of the ASCII letters stand for nothing else.

* `utf8_prefix_iff`, `utf8_suffix_iff`: parts of the bytes that are texts are parts of the text.
* `SameLetters`: equality of texts up to the case of ASCII letters.
* `eqIgnoreCase_utf8`, `startsWithIgnoreCase?_eq`, `endsWithIgnoreCase?_eq`: what the comparisons
  answer; they always answer.
-/

namespace TlsTransport

/-! ## Parts of the bytes -/

/-- No character starts with the bytes of another. -/
theorem utf8EncodeChar_append_inj {c d : Char} {x y : Bytes}
    (h : String.utf8EncodeChar c ++ x = String.utf8EncodeChar d ++ y) : c = d ∧ x = y := by
  have hc : ((String.utf8EncodeChar c ++ x).toByteArray).utf8DecodeChar? 0 = some c := by
    rw [List.toByteArray_append]
    exact ByteArray.utf8DecodeChar?_utf8EncodeChar_append
  have hd : ((String.utf8EncodeChar d ++ y).toByteArray).utf8DecodeChar? 0 = some d := by
    rw [List.toByteArray_append]
    exact ByteArray.utf8DecodeChar?_utf8EncodeChar_append
  rw [h, hd] at hc
  obtain rfl := Option.some.inj hc
  exact ⟨rfl, List.append_cancel_left h⟩

theorem utf8_prefix_iff {a b : List Char} : utf8 a <+: utf8 b ↔ a <+: b := by
  constructor
  · intro h
    induction a generalizing b with
    | nil => exact List.nil_prefix
    | cons c a ih =>
      obtain ⟨rest, hrest⟩ := h
      cases b with
      | nil =>
        have hpos := length_utf8_pos (List.cons_ne_nil c a)
        have hlen := congrArg List.length hrest
        simp only [List.length_append, utf8_nil, List.length_nil] at hlen
        omega
      | cons d b =>
        rw [utf8_cons, utf8_cons, List.append_assoc] at hrest
        obtain ⟨rfl, htail⟩ := utf8EncodeChar_append_inj hrest
        exact List.cons_prefix_cons.2 ⟨rfl, ih ⟨rest, htail⟩⟩
  · rintro ⟨rest, rfl⟩
    rw [utf8_append]
    exact List.prefix_append _ _

theorem utf8_inj {a b : List Char} : utf8 a = utf8 b ↔ a = b := by
  constructor
  · intro h
    have hab : a <+: b := utf8_prefix_iff.1 (h ▸ List.prefix_refl _)
    have hba : b <+: a := utf8_prefix_iff.1 (h ▸ List.prefix_refl _)
    exact hab.eq_of_length_le hba.length_le
  · exact congrArg utf8

/-- A proper end of the bytes of a character does not start a text. -/
theorem utf8_ne_continued {c : Char} {front back : Bytes} {text rest : List Char}
    (hc : String.utf8EncodeChar c = front ++ back) (hfront : front ≠ []) (hback : back ≠ []) :
    utf8 text ≠ back ++ utf8 rest := by
  intro h
  obtain ⟨byte, more, rfl⟩ := List.exists_cons_of_ne_nil hback
  cases text with
  | nil => cases h
  | cons d text =>
    have hinside : front.length < (String.utf8EncodeChar c).length := by rw [hc]; simp
    have hfirst : 0 < (String.utf8EncodeChar d).length := by
      rw [String.length_utf8EncodeChar]
      exact d.utf8Size_pos
    have hbyte : (String.utf8EncodeChar c)[front.length] = byte := by simp [hc]
    have hhead : (String.utf8EncodeChar d)[0] = byte := by
      have hget := congrArg (·[0]?) h
      simp only [utf8_cons, List.getElem?_append_left hfirst, List.cons_append,
        List.getElem?_cons_zero] at hget
      rwa [List.getElem?_eq_getElem hfirst, Option.some.injEq] at hget
    have hstart : byte.IsUTF8FirstByte := by
      rw [← hhead]
      exact UInt8.isUTF8FirstByte_getElem_utf8EncodeChar.2 rfl
    rw [← hbyte, UInt8.isUTF8FirstByte_getElem_utf8EncodeChar] at hstart
    exact hfront (List.length_eq_zero_iff.1 hstart)

theorem utf8_suffix_iff {a b : List Char} : utf8 a <:+ utf8 b ↔ a <:+ b := by
  constructor
  · intro h
    induction b with
    | nil =>
      have hnil : utf8 a = utf8 [] := List.suffix_nil.1 h
      obtain rfl := utf8_inj.1 hnil
      exact List.suffix_refl _
    | cons c b ih =>
      obtain ⟨front, hfront⟩ := h
      rw [utf8_cons] at hfront
      rcases List.append_eq_append_iff.1 hfront with ⟨back, hc, ha⟩ | ⟨more, -, hb⟩
      · by_cases hnone : front = []
        · subst hnone
          rw [List.nil_append, ← utf8_cons] at hfront
          obtain rfl := utf8_inj.1 hfront
          exact List.suffix_refl _
        · by_cases hback : back = []
          · rw [hback, List.nil_append] at ha
            exact (ih ⟨[], ha⟩).trans (List.suffix_cons c b)
          · exact absurd ha (utf8_ne_continued hc hnone hback)
      · exact (ih ⟨more, hb.symm⟩).trans (List.suffix_cons c b)
  · rintro ⟨front, rfl⟩
    rw [utf8_append]
    exact List.suffix_append _ _

/-! ## Case -/

/-- Equality up to the case of ASCII letters. -/
def SameLetters (a b : List Char) : Prop := a.map Char.toLower = b.map Char.toLower

instance (a b : List Char) : Decidable (SameLetters a b) :=
  inferInstanceAs (Decidable (_ = _))

theorem lowerByte_of_ge {b : UInt8} (h : 128 ≤ b.toNat) : lowerByte b = b := by
  have hout : ¬ (65 ≤ b ∧ b ≤ 90) := by
    rintro ⟨-, hle⟩
    have : b.toNat ≤ 90 := hle
    omega
  rw [lowerByte, if_neg hout]

theorem toLower_of_not_upper {c : Char} (h : ¬ ('A'.val ≤ c.val ∧ c.val ≤ 'Z'.val)) :
    c.toLower = c :=
  dif_neg h

theorem val_toLower_of_upper {c : Char} (h : 'A'.val ≤ c.val ∧ c.val ≤ 'Z'.val) :
    c.toLower.val = c.val + 32 :=
  congrArg Char.val (dif_pos h)

theorem toLower_of_not_ascii {c : Char} (h : ¬ c.toNat < 128) : c.toLower = c := by
  refine toLower_of_not_upper ?_
  rintro ⟨-, hle⟩
  have hsmall : c.toNat ≤ 90 := hle
  omega

theorem forall_ascii {P : Char → Prop} (hall : ∀ n : Fin 128, P (.ofNat n)) {c : Char}
    (h : c.toNat < 128) : P c := by
  have hc := hall ⟨c.toNat, h⟩
  rwa [show Char.ofNat c.toNat = c from Char.ofNat_toNat c] at hc

/-- What holds of every ASCII character and its lower case, and of other characters, which have
none, holds of all. -/
theorem forall_toLower {P : Char → Char → Prop}
    (hascii : ∀ n : Fin 128, P (.ofNat n) (Char.ofNat n).toLower)
    (hother : ∀ c : Char, ¬ c.toNat < 128 → P c c) (c : Char) : P c c.toLower := by
  by_cases h : c.toNat < 128
  · exact forall_ascii (P := fun c => P c c.toLower) hascii h
  · rw [toLower_of_not_ascii h]
    exact hother c h

theorem toLower_toLower (c : Char) : c.toLower.toLower = c.toLower := by
  refine forall_toLower (P := fun _ l => l.toLower = l) (by decide +kernel) ?_ c
  exact fun c h => toLower_of_not_ascii h

/-- The case of a character is that of its byte. -/
theorem utf8EncodeChar_toLower (c : Char) :
    String.utf8EncodeChar c.toLower = (String.utf8EncodeChar c).map lowerByte := by
  refine forall_toLower
    (P := fun c l => String.utf8EncodeChar l = (String.utf8EncodeChar c).map lowerByte)
    (by decide +kernel) (fun c hascii => ?_) c
  have hlarge : ¬ c.val.toNat < 128 := hascii
  have hbytes : ∀ b ∈ String.utf8EncodeChar c, lowerByte b = id b := by
    intro b hb
    refine lowerByte_of_ge ?_
    simp only [String.utf8EncodeChar] at hb
    rw [if_neg (by omega)] at hb
    split at hb
    · simp only [List.mem_cons, List.not_mem_nil, or_false] at hb
      rcases hb with rfl | rfl <;> simp only [UInt8.toNat_ofNat'] <;> omega
    · split at hb
      · simp only [List.mem_cons, List.not_mem_nil, or_false] at hb
        rcases hb with rfl | rfl | rfl <;> simp only [UInt8.toNat_ofNat'] <;> omega
      · simp only [List.mem_cons, List.not_mem_nil, or_false] at hb
        rcases hb with rfl | rfl | rfl | rfl <;> simp only [UInt8.toNat_ofNat'] <;> omega
  rw [List.map_congr_left hbytes, List.map_id]

theorem map_lowerByte_utf8 (text : List Char) :
    (utf8 text).map lowerByte = utf8 (text.map Char.toLower) := by
  induction text with
  | nil => rfl
  | cons c text ih =>
    rw [List.map_cons, utf8_cons, utf8_cons, List.map_append, ih, utf8EncodeChar_toLower]

theorem length_utf8_map_toLower (text : List Char) :
    (utf8 (text.map Char.toLower)).length = (utf8 text).length := by
  rw [← map_lowerByte_utf8, List.length_map]

namespace SameLetters

theorem refl (a : List Char) : SameLetters a a := rfl

theorem symm {a b : List Char} (h : SameLetters a b) : SameLetters b a := Eq.symm h

theorem trans {a b c : List Char} (h : SameLetters a b) (k : SameLetters b c) : SameLetters a c :=
  Eq.trans h k

theorem append {a b c d : List Char} (h : SameLetters a b) (k : SameLetters c d) :
    SameLetters (a ++ c) (b ++ d) := by
  rw [SameLetters, List.map_append, List.map_append, h, k]

theorem split {a b text : List Char} (h : SameLetters (a ++ b) text) :
    ∃ front back, text = front ++ back ∧ SameLetters a front ∧ SameLetters b back := by
  rw [SameLetters, List.map_append] at h
  obtain ⟨front, back, htext, hfront, hback⟩ := List.map_eq_append_iff.1 h.symm
  exact ⟨front, back, htext, hfront.symm, hback.symm⟩

theorem length_utf8 {a b : List Char} (h : SameLetters a b) : (utf8 a).length = (utf8 b).length := by
  rw [← length_utf8_map_toLower a, h, length_utf8_map_toLower]

end SameLetters

/-! ## Comparing -/

theorem eqIgnoreCase_utf8 {a b : List Char} :
    eqIgnoreCase (utf8 a) (utf8 b) = true ↔ SameLetters a b := by
  rw [eqIgnoreCase, beq_iff_eq, map_lowerByte_utf8, map_lowerByte_utf8, utf8_inj]
  rfl

theorem lower_prefix_iff {start text : List Char} :
    start.map Char.toLower <+: text.map Char.toLower ↔
      ∃ front back, text = front ++ back ∧ SameLetters start front := by
  constructor
  · rintro ⟨rest, hrest⟩
    obtain ⟨front, back, htext, hfront, -⟩ := List.map_eq_append_iff.1 hrest.symm
    exact ⟨front, back, htext, hfront.symm⟩
  · rintro ⟨front, back, rfl, hsame⟩
    rw [List.map_append, hsame]
    exact List.prefix_append _ _

theorem lower_suffix_iff {ending text : List Char} :
    ending.map Char.toLower <:+ text.map Char.toLower ↔
      ∃ front back, text = front ++ back ∧ SameLetters ending back := by
  constructor
  · rintro ⟨rest, hrest⟩
    obtain ⟨front, back, htext, -, hback⟩ := List.map_eq_append_iff.1 hrest.symm
    exact ⟨front, back, htext, hback.symm⟩
  · rintro ⟨front, back, rfl, hsame⟩
    rw [List.map_append, hsame]
    exact List.suffix_append _ _

theorem startsWithIgnoreCase?_eq (text start : List Char) :
    startsWithIgnoreCase? text start =
      some (decide (start.map Char.toLower <+: text.map Char.toLower)) := by
  by_cases hle : (utf8 start).length ≤ (utf8 text).length
  · rw [startsWithIgnoreCase?, if_pos hle, Bytes.cut?_of_le hle]
    refine congrArg some (Bool.eq_iff_iff.2 ?_)
    rw [eqIgnoreCase, beq_iff_eq, decide_eq_true_iff, List.map_take, map_lowerByte_utf8,
      map_lowerByte_utf8, ← utf8_prefix_iff, List.prefix_iff_eq_take, length_utf8_map_toLower,
      eq_comm]
  · rw [startsWithIgnoreCase?, if_neg hle]
    refine congrArg some (decide_eq_false fun hprefix => hle ?_).symm
    have hlen := (utf8_prefix_iff.2 hprefix).length_le
    rwa [length_utf8_map_toLower, length_utf8_map_toLower] at hlen

theorem endsWithIgnoreCase?_eq (text ending : List Char) :
    endsWithIgnoreCase? text ending =
      some (decide (ending.map Char.toLower <:+ text.map Char.toLower)) := by
  by_cases hle : (utf8 ending).length ≤ (utf8 text).length
  · rw [endsWithIgnoreCase?, if_pos hle, Bytes.cut?_of_le (Nat.sub_le _ _)]
    refine congrArg some (Bool.eq_iff_iff.2 ?_)
    rw [eqIgnoreCase, beq_iff_eq, decide_eq_true_iff, List.map_drop, map_lowerByte_utf8,
      map_lowerByte_utf8, ← utf8_suffix_iff, List.suffix_iff_eq_drop, length_utf8_map_toLower,
      length_utf8_map_toLower, eq_comm]
  · rw [endsWithIgnoreCase?, if_neg hle]
    refine congrArg some (decide_eq_false fun hsuffix => hle ?_).symm
    have hlen := (utf8_suffix_iff.2 hsuffix).length_le
    rwa [length_utf8_map_toLower, length_utf8_map_toLower] at hlen

end TlsTransport
