import Mathlib.Data.List.Basic
import TlsTransport.Proofs.Hostname.Letters

/-! # The names that a pattern admits

A pattern is a name, or it has a wildcard in its first label. Said of characters, with no place in
it: what stands around the wildcard is the same in the host, up to case, and the wildcard covers the
rest of the first label, which is not empty.

* `WildcardEnabled`: when the star of a pattern is a wildcard.
* `Parts`: a pattern with a wildcard, taken apart.
* `Admits`: the grammar, which does not look at case.
* `matchesPattern?_eq`: matching finds all its places, and answers as the grammar says.
* `matchesPattern_grammar`: the same for patterns and hosts, with what follows from the grammar.
-/

namespace TlsTransport

/-- The first star stands before the first dot, another dot follows, and the pattern does not start
with `xn--`. -/
def WildcardEnabled (pattern : List Char) : Prop :=
  pattern.idxOf '*' < pattern.idxOf '.' ∧ 2 ≤ pattern.count '.' ∧
    ¬ ['x', 'n', '-', '-'] <+: pattern.map Char.toLower

instance (pattern : List Char) : Decidable (WildcardEnabled pattern) :=
  inferInstanceAs (Decidable (_ ∧ _ ∧ _))

/-- What stands before the first star of a pattern, between it and the first dot, and from that dot
on. -/
structure Parts (pattern before after rest : List Char) : Prop where
  text : pattern = before ++ '*' :: (after ++ rest)
  firstStar : '*' ∉ before
  firstDot : '.' ∉ before ++ after
  dot : rest.head? = some '.'

/-- The hosts that a pattern with a wildcard between these parts admits. -/
def Covers (before after rest host : List Char) : Prop :=
  ∃ front covered back tail, host = front ++ covered ++ back ++ tail ∧
    SameLetters before front ∧ SameLetters after back ∧ SameLetters rest tail ∧
    covered ≠ [] ∧ '.' ∉ covered

/-- The hosts that a pattern admits. -/
inductive Admits (pattern host : List Char) : Prop
  | literal (h : ¬ WildcardEnabled pattern) (same : SameLetters pattern host)
  | wildcard {before after rest : List Char} (h : WildcardEnabled pattern)
      (parts : Parts pattern before after rest) (covers : Covers before after rest host)

/-! ## Stars and dots have no case -/

theorem toLower_eq_iff {c d : Char} (hd : d = '.' ∨ d = '*') : c.toLower = d ↔ c = d := by
  have hval : d.val.toNat < 65 := by rcases hd with rfl | rfl <;> decide
  constructor
  · intro h
    by_cases hc : 'A'.val ≤ c.val ∧ c.val ≤ 'Z'.val
    · have hsum : (c.val + 32).toNat = d.val.toNat := by
        rw [← val_toLower_of_upper hc, h]
      have hlow : 65 ≤ c.val.toNat := hc.1
      have hhigh : c.val.toNat ≤ 90 := hc.2
      rw [UInt32.toNat_add] at hsum
      have h32 : (32 : UInt32).toNat = 32 := rfl
      omega
    · rwa [toLower_of_not_upper hc] at h
  · rintro rfl
    refine toLower_of_not_upper fun hc => ?_
    have hlow : 65 ≤ c.val.toNat := hc.1
    omega

theorem count_map_toLower {d : Char} (hd : d = '.' ∨ d = '*') (text : List Char) :
    (text.map Char.toLower).count d = text.count d := by
  induction text with
  | nil => rfl
  | cons c text ih => simp only [List.map_cons, List.count_cons, beq_iff_eq, toLower_eq_iff hd, ih]

theorem idxOf_map_toLower {d : Char} (hd : d = '.' ∨ d = '*') (text : List Char) :
    (text.map Char.toLower).idxOf d = text.idxOf d := by
  induction text with
  | nil => rfl
  | cons c text ih =>
    simp only [List.map_cons, List.idxOf_cons, Bool.cond_eq_ite, beq_iff_eq, toLower_eq_iff hd, ih]

theorem SameLetters.count {a b : List Char} {d : Char} (h : SameLetters a b)
    (hd : d = '.' ∨ d = '*') : a.count d = b.count d := by
  rw [← count_map_toLower hd a, h, count_map_toLower hd]

theorem SameLetters.notMem {a b : List Char} {d : Char} (h : SameLetters a b)
    (hd : d = '.' ∨ d = '*') (ha : d ∉ a) : d ∉ b := by
  rw [← List.count_eq_zero] at ha ⊢
  rw [← h.count hd, ha]

theorem SameLetters.head? {a b : List Char} {d : Char} (h : SameLetters a b)
    (hd : d = '.' ∨ d = '*') (ha : a.head? = some d) : b.head? = some d := by
  have hmap : (b.map Char.toLower).head? = some d := by
    rw [← h, List.head?_map, ha, Option.map_some, (toLower_eq_iff hd).2 rfl]
  rw [List.head?_map, Option.map_eq_some_iff] at hmap
  obtain ⟨c, hc, hlower⟩ := hmap
  rw [hc, (toLower_eq_iff hd).1 hlower]

theorem WildcardEnabled.same {p q : List Char} (h : WildcardEnabled p) (hpq : SameLetters p q) :
    WildcardEnabled q := by
  obtain ⟨horder, hdots, hplain⟩ := h
  refine ⟨?_, by rwa [← hpq.count (.inl rfl)], by rwa [← hpq]⟩
  rw [← idxOf_map_toLower (.inr rfl), ← idxOf_map_toLower (.inl rfl), ← hpq,
    idxOf_map_toLower (.inr rfl), idxOf_map_toLower (.inl rfl)]
  exact horder

/-! ## Taking patterns and hosts apart -/

/-- There is one way to split a text at the first of a character. -/
theorem split_unique {d : Char} {a b x y : List Char} (h : a ++ x = b ++ y) (ha : d ∉ a)
    (hb : d ∉ b) (hx : x = [] ∨ x.head? = some d) (hy : y = [] ∨ y.head? = some d) :
    a = b ∧ x = y := by
  rcases List.append_eq_append_iff.1 h with ⟨more, rfl, rfl⟩ | ⟨more, rfl, rfl⟩
  · cases more with
    | nil => simp
    | cons c more =>
      have hc : c = d := by simpa using hx
      exact absurd (by simp [hc]) hb
  · cases more with
    | nil => simp
    | cons c more =>
      have hc : c = d := by simpa using hy
      exact absurd (by simp [hc]) ha

/-- A text up to its first dot. The place of the dot, or of the end, is where the label ends. -/
theorem exists_label (text : List Char) : ∃ label rest, text = label ++ rest ∧ '.' ∉ label ∧
    (rest = [] ∨ rest.head? = some '.') ∧
    (placeOf? '.' text).getD (utf8 text).length = (utf8 label).length := by
  by_cases hdot : '.' ∈ text
  · obtain ⟨label, tail, rfl, hlabel⟩ := List.eq_append_cons_of_mem hdot
    exact ⟨label, '.' :: tail, rfl, hlabel, .inr rfl, by rw [placeOf?_append hlabel]; rfl⟩
  · exact ⟨text, [], (List.append_nil text).symm, hdot, .inl rfl,
      by rw [placeOf?_of_notMem hdot]; rfl⟩

theorem idxOf_append_cons {d : Char} {front : List Char} (h : d ∉ front) (back : List Char) :
    (front ++ d :: back).idxOf d = front.length := by
  rw [List.idxOf_append_of_notMem h, List.idxOf_cons_self, Nat.add_zero]

/-- The first star stands before the first dot if it is in the first label. -/
theorem idxOf_star_lt_iff {label tail : List Char} (h : '.' ∉ label) :
    (label ++ '.' :: tail).idxOf '*' < (label ++ '.' :: tail).idxOf '.' ↔ '*' ∈ label := by
  rw [idxOf_append_cons h]
  by_cases hstar : '*' ∈ label
  · rw [List.idxOf_append_of_mem hstar, List.idxOf_lt_length_iff]
  · rw [List.idxOf_append_of_notMem hstar]
    exact iff_of_false (by omega) hstar

/-- A pattern with a wildcard can be taken apart. -/
theorem WildcardEnabled.parts {pattern : List Char} (h : WildcardEnabled pattern) :
    ∃ before after rest, Parts pattern before after rest := by
  obtain ⟨horder, hdots, -⟩ := h
  have hdot : '.' ∈ pattern := List.count_pos_iff.1 (by omega)
  obtain ⟨label, tail, rfl, hlabel⟩ := List.eq_append_cons_of_mem hdot
  have hstar : '*' ∈ label := (idxOf_star_lt_iff hlabel).1 horder
  obtain ⟨before, after, rfl, hbefore⟩ := List.eq_append_cons_of_mem hstar
  refine ⟨before, after, '.' :: tail, by simp, hbefore, ?_, rfl⟩
  simp only [List.mem_append, List.mem_cons, not_or] at hlabel ⊢
  exact ⟨hlabel.1, hlabel.2.2⟩

namespace Parts

variable {pattern before after rest : List Char}

theorem label (h : Parts pattern before after rest) : '.' ∉ before ++ '*' :: after := by
  have hdot := h.firstDot
  simp only [List.mem_append, List.mem_cons, not_or] at hdot ⊢
  exact ⟨hdot.1, by decide, hdot.2⟩

theorem label_append (h : Parts pattern before after rest) :
    pattern = (before ++ '*' :: after) ++ rest := by
  rw [h.text, List.append_assoc, List.cons_append]

theorem places (h : Parts pattern before after rest) :
    placeOf? '*' pattern = some (utf8 before).length ∧
      placeOf? '.' pattern = some (utf8 (before ++ '*' :: after)).length := by
  obtain ⟨tail, hrest⟩ := List.head?_eq_some_iff.1 h.dot
  refine ⟨?_, ?_⟩
  · rw [h.text]
    exact placeOf?_append h.firstStar _
  · rw [h.label_append, hrest]
    exact placeOf?_append h.label tail

/-- There is one way to take a pattern apart. -/
theorem unique {before' after' rest' : List Char} (h : Parts pattern before after rest)
    (k : Parts pattern before' after' rest') : before = before' ∧ after = after' ∧ rest = rest' := by
  obtain ⟨hlabel, rfl⟩ :=
    split_unique (h.label_append.symm.trans k.label_append) h.label k.label (.inr h.dot) (.inr k.dot)
  obtain ⟨rfl, hafter⟩ := split_unique hlabel h.firstStar k.firstStar (.inr rfl) (.inr rfl)
  exact ⟨rfl, (List.cons.inj hafter).2, rfl⟩

/-- Patterns that differ in case have parts that differ in case. -/
theorem same {pattern' : List Char} (h : Parts pattern before after rest)
    (hp : SameLetters pattern pattern') : ∃ before' after' rest', Parts pattern' before' after' rest' ∧
      SameLetters before before' ∧ SameLetters after after' ∧ SameLetters rest rest' := by
  rw [h.text] at hp
  obtain ⟨before', more, rfl, hbefore, hmore⟩ := hp.split
  obtain ⟨star, more, rfl, hstar, hmore⟩ := (show SameLetters (['*'] ++ _) _ from hmore).split
  obtain ⟨after', rest', rfl, hafter, hrest⟩ := hmore.split
  have hstar : star = ['*'] := by
    obtain ⟨c, rfl, hc⟩ := List.map_eq_singleton_iff.1 hstar.symm
    rw [(toLower_eq_iff (.inr rfl)).1 (hc : c.toLower = '*')]
  refine ⟨before', after', rest', ⟨by rw [hstar]; rfl, hbefore.notMem (.inr rfl) h.firstStar,
    (hbefore.append hafter).notMem (.inl rfl) h.firstDot, hrest.head? (.inl rfl) h.dot⟩, hbefore,
    hafter, hrest⟩

end Parts

/-! ## The grammar -/

/-- Case does not matter, neither in the parts nor in the host. -/
theorem Covers.same {before after rest host before' after' rest' host' : List Char}
    (h : Covers before after rest host) (hbefore : SameLetters before before')
    (hafter : SameLetters after after') (hrest : SameLetters rest rest')
    (hhost : SameLetters host host') : Covers before' after' rest' host' := by
  obtain ⟨front, covered, back, tail, rfl, hfront, hback, htail, hne, hdot⟩ := h
  obtain ⟨left, tail', rfl, hleft, htail'⟩ := hhost.split
  obtain ⟨left, back', rfl, hleft, hback'⟩ := hleft.split
  obtain ⟨front', covered', rfl, hfront', hcovered⟩ := hleft.split
  refine ⟨front', covered', back', tail', rfl, hbefore.symm.trans (hfront.trans hfront'),
    hafter.symm.trans (hback.trans hback'), hrest.symm.trans (htail.trans htail'), ?_,
    hcovered.notMem (.inl rfl) hdot⟩
  rintro rfl
  exact hne (List.map_eq_nil_iff.1 hcovered)

namespace Admits

variable {pattern host : List Char}

theorem same {pattern' host' : List Char} (h : Admits pattern host)
    (hp : SameLetters pattern pattern') (hh : SameLetters host host') : Admits pattern' host' := by
  cases h with
  | literal h same => exact .literal (fun h' => h (h'.same hp.symm)) (hp.symm.trans (same.trans hh))
  | wildcard h parts covers =>
    obtain ⟨before', after', rest', parts', hbefore, hafter, hrest⟩ := parts.same hp
    exact .wildcard (h.same hp) parts' (covers.same hbefore hafter hrest hh)

/-- A pattern admits itself, its wildcard covers the star. -/
theorem refl (pattern : List Char) : Admits pattern pattern := by
  by_cases h : WildcardEnabled pattern
  · obtain ⟨before, after, rest, parts⟩ := h.parts
    exact .wildcard h parts ⟨before, ['*'], after, rest, by simp [parts.text], .refl _, .refl _,
      .refl _, by simp, by decide⟩
  · exact .literal h (.refl pattern)

/-- Pattern and host have as many labels. -/
theorem labels (h : Admits pattern host) : pattern.count '.' = host.count '.' := by
  cases h with
  | literal _ same => exact same.count (.inl rfl)
  | wildcard _ parts covers =>
    obtain ⟨front, covered, back, tail, rfl, hfront, hback, htail, -, hdot⟩ := covers
    have hnone : covered.count '.' = 0 := List.count_eq_zero.2 hdot
    rw [parts.text]
    simp only [List.count_append, List.count_cons, hnone, hfront.count (.inl rfl),
      hback.count (.inl rfl), htail.count (.inl rfl)]
    simp
    omega

theorem literal_iff (h : ¬ WildcardEnabled pattern) :
    Admits pattern host ↔ SameLetters pattern host := by
  refine ⟨fun hadmits => ?_, .literal h⟩
  cases hadmits with
  | literal _ same => exact same
  | wildcard h' => exact absurd h' h

theorem wildcard_iff {before after rest : List Char} (h : WildcardEnabled pattern)
    (parts : Parts pattern before after rest) :
    Admits pattern host ↔ Covers before after rest host := by
  refine ⟨fun hadmits => ?_, .wildcard h parts⟩
  cases hadmits with
  | literal h' => exact absurd h h'
  | wildcard _ parts' covers =>
    obtain ⟨rfl, rfl, rfl⟩ := parts.unique parts'
    exact covers

end Admits

/-! ## Matching -/

/-- What is compared around a wildcard. The label is too long for its start and its end to overlap,
so that something is left for the wildcard. -/
theorem covers_iff {before after rest label tail : List Char} (hdot : '.' ∉ before ++ after)
    (hrest : rest.head? = some '.') (hlabel : '.' ∉ label)
    (htail : tail = [] ∨ tail.head? = some '.') :
    Covers before after rest (label ++ tail) ↔
      SameLetters rest tail ∧
        (utf8 before).length + 1 + (utf8 after).length ≤ (utf8 label).length ∧
        before.map Char.toLower <+: label.map Char.toLower ∧
        after.map Char.toLower <:+ label.map Char.toLower := by
  rw [lower_prefix_iff, lower_suffix_iff]
  constructor
  · rintro ⟨front, covered, back, tail', htext, hfront, hback, htail', hne, hcovered⟩
    have hlabel' : '.' ∉ front ++ covered ++ back := by
      have hends := (hfront.append hback).notMem (.inl rfl) hdot
      simp only [List.mem_append, not_or] at hends ⊢
      exact ⟨⟨hends.1, hcovered⟩, hends.2⟩
    obtain ⟨rfl, rfl⟩ :=
      split_unique htext hlabel hlabel' htail (.inr (htail'.head? (.inl rfl) hrest))
    have hpos := length_utf8_pos hne
    refine ⟨htail', ?_, ⟨front, covered ++ back, by simp, hfront⟩, ⟨_, back, rfl, hback⟩⟩
    rw [hfront.length_utf8, hback.length_utf8]
    simp only [utf8_append, List.length_append]
    omega
  · rintro ⟨hsame, hlen, ⟨front, more, rfl, hfront⟩, ⟨less, back, hends, hback⟩⟩
    rw [hfront.length_utf8, hback.length_utf8] at hlen
    rcases List.append_eq_append_iff.1 hends with ⟨covered, rfl, rfl⟩ | ⟨shared, rfl, rfl⟩
    · refine ⟨front, covered, back, tail, by simp, hfront, hback, hsame, ?_, ?_⟩
      · rintro rfl
        simp only [utf8_append, List.nil_append, List.length_append] at hlen
        omega
      · simp only [List.mem_append, not_or] at hlabel
        exact hlabel.2.1
    · simp only [utf8_append, List.length_append] at hlen
      omega

/-- The first star stands before the first dot if its place is the lower one. -/
theorem place_lt_iff {before rest label tail : List Char}
    (h : before ++ '*' :: rest = label ++ '.' :: tail) (hstar : '*' ∉ before) :
    (utf8 before).length < (utf8 label).length ↔ '*' ∈ label := by
  rcases List.append_eq_append_iff.1 h with ⟨more, rfl, hmore⟩ | ⟨more, rfl, -⟩
  · cases more with
    | nil => cases hmore
    | cons c more =>
      obtain ⟨rfl, -⟩ := List.cons.inj hmore
      have hpos := length_utf8_pos (List.cons_ne_nil '*' more)
      refine iff_of_true ?_ (by simp)
      rw [utf8_append, List.length_append]
      omega
  · simp only [List.mem_append, not_or] at hstar
    exact iff_of_false (by simp) hstar.1

theorem isWildcard?_eq {before rest : List Char} (h : '*' ∉ before) :
    isWildcard? (before ++ '*' :: rest) (utf8 before).length =
      some (decide (WildcardEnabled (before ++ '*' :: rest))) := by
  by_cases hdot : '.' ∈ before ++ '*' :: rest
  · obtain ⟨label, tail, htext, hlabel⟩ := List.eq_append_cons_of_mem hdot
    have hcut : cut? (label ++ '.' :: tail) ((utf8 label).length + 1) =
        some (label ++ ['.'], tail) := by
      rw [cut?_eq_some_iff]
      simp [Char.utf8Size]
    have hdots : 2 ≤ (label ++ '.' :: tail).count '.' ↔ '.' ∈ tail := by
      rw [List.count_append, List.count_cons_self, List.count_eq_zero.2 hlabel,
        ← List.count_pos_iff]
      omega
    have horder := place_lt_iff htext h
    have hname : ['x', 'n', '-', '-'].map Char.toLower = ['x', 'n', '-', '-'] := by decide
    rw [htext, isWildcard?, placeOf?_append hlabel]
    simp only [hcut, Option.bind_eq_bind, Option.bind_some, startsWithIgnoreCase?_eq, hname,
      WildcardEnabled, idxOf_star_lt_iff hlabel, hdots, horder]
    by_cases htail : '.' ∈ tail <;> by_cases hfirst : '*' ∈ label <;> simp [htail, hfirst]
  · have hnone : ¬ WildcardEnabled (before ++ '*' :: rest) := by
      rintro ⟨-, hdots, -⟩
      rw [List.count_eq_zero.2 hdot] at hdots
      omega
    rw [isWildcard?, placeOf?_of_notMem hdot, decide_eq_false hnone]

/-- All places around a wildcard are found, those of the label by `exists_label`. -/
theorem matchesAround?_eq {pattern before after rest label tail : List Char}
    (parts : Parts pattern before after rest)
    (hend : (placeOf? '.' (label ++ tail)).getD (utf8 (label ++ tail)).length =
      (utf8 label).length) :
    matchesAround? pattern (label ++ tail) (utf8 before).length =
      some (decide (SameLetters rest tail ∧
        (utf8 before).length + 1 + (utf8 after).length ≤ (utf8 label).length ∧
        before.map Char.toLower <+: label.map Char.toLower ∧
        after.map Char.toLower <:+ label.map Char.toLower)) := by
  have hsize : (utf8 (before ++ '*' :: after)).length =
      (utf8 before).length + 1 + (utf8 after).length := by
    simp [Char.utf8Size, Nat.add_assoc]
  have hlabel : cut? pattern ((utf8 before).length + 1 + (utf8 after).length) =
      some (before ++ '*' :: after, rest) := cut?_eq_some_iff.2 ⟨parts.label_append, hsize⟩
  have hbefore : cut? pattern (utf8 before).length = some (before, '*' :: (after ++ rest)) :=
    cut?_eq_some_iff.2 ⟨parts.text, rfl⟩
  have hafter : cut? (before ++ '*' :: after) ((utf8 before).length + 1) =
      some (before ++ ['*'], after) := by
    rw [cut?_eq_some_iff]
    simp [Char.utf8Size]
  have hsame : eqIgnoreCase (utf8 rest) (utf8 tail) = decide (SameLetters rest tail) :=
    Bool.eq_iff_iff.2 (by rw [eqIgnoreCase_utf8, decide_eq_true_iff])
  simp only [matchesAround?, parts.places.2, Option.getD_some, hend, hlabel, hbefore, hafter,
    cut?_append, Option.bind_eq_bind, Option.bind_some, startsWithIgnoreCase?_eq,
    endsWithIgnoreCase?_eq, hsame, hsize]
  by_cases htail : SameLetters rest tail
  · by_cases hlong : (utf8 before).length + 1 + (utf8 after).length ≤ (utf8 label).length
    · by_cases hstart : before.map Char.toLower <+: label.map Char.toLower
      · simp [htail, hlong, Nat.not_lt.2 hlong, hstart]
      · simp [hstart]
    · simp [hlong, Nat.not_le.1 hlong]
  · simp [htail]

/-- Matching finds all its places, and answers as the grammar says. -/
theorem matchesPattern?_eq (pattern host : List Char) :
    ∃ answer, matchesPattern? pattern host = some answer ∧
      (answer = true ↔ Admits pattern host) := by
  by_cases h : WildcardEnabled pattern
  · obtain ⟨before, after, rest, parts⟩ := h.parts
    obtain ⟨label, tail, rfl, hlabel, htail, hend⟩ := exists_label host
    have hwildcard : isWildcard? pattern (utf8 before).length = some true := by
      rw [← decide_eq_true h, parts.text]
      exact isWildcard?_eq parts.firstStar
    have haround : matchesPattern? pattern (label ++ tail) =
        matchesAround? pattern (label ++ tail) (utf8 before).length := by
      simp only [matchesPattern?, parts.places.1, hwildcard, Option.bind_eq_bind,
        Option.bind_some, if_true]
    refine ⟨_, haround.trans (matchesAround?_eq parts hend), ?_⟩
    rw [decide_eq_true_iff, Admits.wildcard_iff h parts,
      covers_iff parts.firstDot parts.dot hlabel htail]
  · refine ⟨_, ?_, eqIgnoreCase_utf8.trans (Admits.literal_iff h).symm⟩
    cases hstar : placeOf? '*' pattern with
    | none => simp only [matchesPattern?, hstar]
    | some star =>
      obtain ⟨before, rest, rfl, hbefore, rfl⟩ := placeOf?_eq_some_iff.1 hstar
      simp only [matchesPattern?, hstar, isWildcard?_eq hbefore, decide_eq_false h,
        Option.bind_eq_bind, Option.bind_some, Bool.false_eq_true, if_false]

theorem matchesPattern?_eq_some (pattern host : String) :
    matchesPattern? pattern.toList host.toList = some (matchesPattern pattern host) := by
  obtain ⟨answer, hanswer, -⟩ := matchesPattern?_eq pattern.toList host.toList
  rw [matchesPattern, hanswer]
  rfl

theorem matchesPattern_iff {pattern host : String} :
    matchesPattern pattern host = true ↔ Admits pattern.toList host.toList := by
  obtain ⟨answer, hanswer, hiff⟩ := matchesPattern?_eq pattern.toList host.toList
  rw [matchesPattern, hanswer]
  exact hiff

/-- A pattern matches as the grammar says. Where its star is no wildcard, it matches what it equals;
where the star is one, it covers characters of one label, at least one. So pattern and host have as
many labels, each pattern matches itself, and case does not matter. All cuts on the way are made
inside the text and between two characters. -/
theorem matchesPattern_grammar (pattern host : String) :
    (¬ WildcardEnabled pattern.toList →
      (matchesPattern pattern host = true ↔ SameLetters pattern.toList host.toList)) ∧
    (WildcardEnabled pattern.toList →
      (∃ before after rest, Parts pattern.toList before after rest) ∧
      ∀ before after rest, Parts pattern.toList before after rest →
        (matchesPattern pattern host = true ↔
          ∃ front covered back tail, host.toList = front ++ covered ++ back ++ tail ∧
            SameLetters before front ∧ SameLetters after back ∧ SameLetters rest tail ∧
            covered ≠ [] ∧ '.' ∉ covered)) ∧
    (matchesPattern pattern host = true → pattern.toList.count '.' = host.toList.count '.') ∧
    matchesPattern pattern pattern = true ∧
    (∀ pattern' host' : String, SameLetters pattern.toList pattern'.toList →
      SameLetters host.toList host'.toList →
        matchesPattern pattern' host' = matchesPattern pattern host) ∧
    matchesPattern? pattern.toList host.toList = some (matchesPattern pattern host) := by
  refine ⟨fun h => ?_, fun h => ?_, fun h => ?_, ?_, fun pattern' host' hp hh => ?_,
    matchesPattern?_eq_some pattern host⟩
  · rw [matchesPattern_iff, Admits.literal_iff h]
  · refine ⟨h.parts, fun before after rest parts => ?_⟩
    rw [matchesPattern_iff, Admits.wildcard_iff h parts]
    rfl
  · exact (matchesPattern_iff.1 h).labels
  · exact matchesPattern_iff.2 (.refl _)
  · rw [Bool.eq_iff_iff, matchesPattern_iff, matchesPattern_iff]
    exact ⟨fun h => h.same hp.symm hh.symm, fun h => h.same hp hh⟩

/-- A wildcard between an accented letter and a digit covers two letters; that of a pattern with one
dot covers nothing. -/
theorem accented_matches :
    (WildcardEnabled "é*1.example.com".toList ∧
      matchesPattern "é*1.example.com" "éww1.EXAMPLE.com" = true) ∧
    (¬ WildcardEnabled "*.com".toList ∧ matchesPattern "*.com" "example.com" = false) ∧
    (SameLetters "*.com".toList "*.COM".toList ∧ matchesPattern "*.COM" "*.com" = true) := by
  obtain ⟨-, hcovers, -⟩ := matchesPattern_grammar "é*1.example.com" "éww1.EXAMPLE.com"
  obtain ⟨hliteral, -⟩ := matchesPattern_grammar "*.com" "example.com"
  obtain ⟨-, -, -, hself, hcase, -⟩ := matchesPattern_grammar "*.com" "*.com"
  have hwildcard : WildcardEnabled "é*1.example.com".toList := by decide
  have hplain : ¬ WildcardEnabled "*.com".toList := by decide
  have hsame : SameLetters "*.com".toList "*.COM".toList := by decide
  have hparts : Parts "é*1.example.com".toList ['é'] ['1'] ".example.com".toList :=
    ⟨by decide, by decide, by decide, by decide⟩
  refine ⟨⟨hwildcard, ?_⟩, ⟨hplain, ?_⟩, hsame, ?_⟩
  · exact ((hcovers hwildcard).2 _ _ _ hparts).2 ⟨['é'], ['w', 'w'], ['1'], ".EXAMPLE.com".toList,
      by decide, by decide, by decide, by decide, by decide, by decide⟩
  · rw [Bool.eq_false_iff, ne_eq, hliteral hplain]
    decide
  · rw [hcase "*.COM" "*.com" hsame (.refl _), hself]

end TlsTransport
