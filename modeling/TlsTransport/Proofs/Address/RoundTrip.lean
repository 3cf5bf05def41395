import TlsTransport.Proofs.Address.Digits

/-! # Addresses, written and read

The canonical text of an address is read as that address. An IPv6 address has three forms: eight
groups, groups around a gap that stands for zeros, and an IPv4 address behind a fixed front.

* `IpAddress.readGroups_eq`: groups are read up to what is no group.
* `IpAddress.longestZeros_spec`: the gap that is left out stands for zeros.
* `IpAddress.renderV6_forms`: the forms, each with a lemma that it is read.
* `IpAddress.parse?_render`: the round trip.
-/

namespace TlsTransport
namespace IpAddress

open NumberFormat

/-! ## IPv4 -/

theorem toList_renderV4 (a b c d : UInt8) : (renderV4 a b c d).toList =
    Nat.toDigits 10 a.toNat ++ '.' :: (Nat.toDigits 10 b.toNat ++ '.' ::
      (Nat.toDigits 10 c.toNat ++ '.' :: Nat.toDigits 10 d.toNat)) := by
  have hdot : (toString ".").toList = ['.'] := rfl
  simp [renderV4, hdot]

theorem readV4?_render (a b c d : UInt8) {rest : List Char} (hrest : NoDigit 10 rest) :
    readV4? ((renderV4 a b c d).toList ++ rest) = some ((a, b, c, d), rest) := by
  have hdot : ∀ tail, NoDigit 10 ('.' :: tail) := noDigit_cons (by decide)
  simp only [toList_renderV4, List.append_assoc, List.cons_append]
  simp [readV4?, octet_read? _ (hdot _), octet_read? _ hrest, expect?]

/-- An IPv4 address has dots. -/
theorem readV4?_eq_none {text : List Char} (h : '.' ∉ text) : readV4? text = none := by
  rw [readV4?]
  cases hread : octet.read? text with
  | none => rfl
  | some r =>
    obtain ⟨n, rest⟩ := r
    have hno : '.' ∉ rest := fun hmem => h ((read?_suffix hread).mem hmem)
    have hexpect : expect? '.' rest = none := by
      cases rest with
      | nil => rfl
      | cons c rest =>
        have hc : c ≠ '.' := fun hc => hno (hc ▸ List.mem_cons_self)
        rw [expect?, if_neg hc]
    simp [hexpect]

theorem readV4?_of_noDigit {text : List Char} (h : NoDigit 10 text) : readV4? text = none := by
  rw [readV4?, read?_of_noDigit h]
  rfl

/-! ## Groups -/

/-- The digits of a group. -/
def groupText (g : UInt16) : List Char := Nat.toDigits 16 g.toNat

/-- Groups, each behind a colon. -/
def groupTail (gs : List UInt16) : List Char := gs.flatMap fun g => ':' :: groupText g

theorem toList_renderGroups_cons (g : UInt16) (gs : List UInt16) :
    (renderGroups (g :: gs)).toList = groupText g ++ groupTail gs := by
  induction gs generalizing g with
  | nil => simp [renderGroups, renderGroup, groupText, groupTail]
  | cons next gs ih =>
    have hcons : renderGroups (g :: next :: gs) = renderGroup g ++ ":" ++ renderGroups (next :: gs) := by
      simp [renderGroups, String.intercalate_cons_cons]
    rw [hcons, String.toList_append, String.toList_append, ih]
    simp [renderGroup, groupText, groupTail]

theorem dot_notMem_groupText (g : UInt16) : '.' ∉ groupText g := by
  obtain ⟨digits, h⟩ := exists_isDigits (show 1 < 16 by decide) g.toNat
  have hall : ∀ d : Fin 16, Nat.digitChar d ≠ '.' := by decide
  rw [groupText, h.text]
  simp only [List.mem_map, not_exists, not_and]
  intro d hd
  exact hall ⟨d, h.lt d hd⟩

theorem dot_notMem_groupTail (gs : List UInt16) : '.' ∉ groupTail gs := by
  simp only [groupTail, List.mem_flatMap, List.mem_cons, not_exists, not_and, not_or]
  exact fun g _ => ⟨by decide, dot_notMem_groupText g⟩

theorem dot_notMem_renderGroups (gs : List UInt16) : '.' ∉ (renderGroups gs).toList := by
  cases gs with
  | nil => simp [renderGroups]
  | cons g gs =>
    rw [toList_renderGroups_cons, List.mem_append, not_or]
    exact ⟨dot_notMem_groupText g, dot_notMem_groupTail gs⟩

/-- What ends a list of groups: the end of the text, or a gap. -/
def Ends (rest : List Char) : Prop := rest = [] ∨ ∃ tail, rest = ':' :: ':' :: tail

theorem Ends.noDigit {rest : List Char} (h : Ends rest) : NoDigit 16 rest := by
  rcases h with rfl | ⟨tail, rfl⟩
  · exact noDigit_nil 16
  · exact noDigit_cons (by decide) _

theorem noDigit_groupTail (gs : List UInt16) {rest : List Char} (h : Ends rest) :
    NoDigit 16 (groupTail gs ++ rest) := by
  cases gs with
  | nil => exact h.noDigit
  | cons g gs => exact noDigit_cons (by decide) _

/-- Nothing is read where neither a group nor an IPv4 address can start. -/
theorem readGroups_nothing (limit : Nat) {first : Bool} {rest : List Char}
    (h : ∀ text, groupStart? first rest = some text → NoDigit 16 text) :
    readGroups limit first rest = ([], false, rest) := by
  have hv4 : (groupStart? first rest).bind readV4? = none := by
    rw [Option.bind_eq_none_iff]
    exact fun text htext => readV4?_of_noDigit ((h text htext).mono (by decide))
  have hgroup : (groupStart? first rest).bind group.read? = none := by
    rw [Option.bind_eq_none_iff]
    exact fun text htext => read?_of_noDigit (h text htext)
  cases limit with
  | zero => rfl
  | succ limit =>
    rw [readGroups, hv4, hgroup]
    simp

/-- No group follows where the groups end, neither at the front nor behind others. -/
theorem readGroups_of_ends (limit : Nat) (first : Bool) {rest : List Char} (h : Ends rest) :
    readGroups limit first rest = ([], false, rest) := by
  refine readGroups_nothing limit fun text htext => ?_
  cases first with
  | true =>
    obtain rfl := Option.some.inj htext
    exact h.noDigit
  | false =>
    rcases h with rfl | ⟨tail, rfl⟩
    · cases htext
    · obtain rfl := Option.some.inj htext
      exact noDigit_cons (by decide) _

/-- Groups do not start with an IPv4 address. -/
theorem readV4?_groups (g : UInt16) (gs : List UInt16) {rest : List Char} (hdot : '.' ∉ rest) :
    readV4? (groupText g ++ (groupTail gs ++ rest)) = none := by
  refine readV4?_eq_none ?_
  simp only [List.mem_append, not_or]
  exact ⟨dot_notMem_groupText g, dot_notMem_groupTail gs, hdot⟩

theorem group_read?_groups (g : UInt16) (gs : List UInt16) {rest : List Char} (h : Ends rest) :
    group.read? (groupText g ++ (groupTail gs ++ rest)) = some (g.toNat, groupTail gs ++ rest) :=
  group_read? g (noDigit_groupTail gs h)

/-- Groups behind others are read up to where they end. -/
theorem readGroups_tail {gs : List UInt16} {limit : Nat} (hle : gs.length ≤ limit)
    {rest : List Char} (hrest : Ends rest) (hdot : '.' ∉ rest) :
    readGroups limit false (groupTail gs ++ rest) = (gs, false, rest) := by
  induction gs generalizing limit with
  | nil => exact readGroups_of_ends limit false hrest
  | cons g gs ih =>
    obtain ⟨limit, rfl⟩ : ∃ n, limit = n + 1 := Nat.exists_eq_add_one.2 (by simp at hle; omega)
    have hlater : readGroups limit false (groupTail gs ++ rest) = (gs, false, rest) :=
      ih (by simpa using hle)
    have htext : groupTail (g :: gs) ++ rest = ':' :: (groupText g ++ (groupTail gs ++ rest)) := by
      simp [groupTail]
    rw [htext, readGroups]
    simp [groupStart?, expect?, readV4?_groups g gs hdot, group_read?_groups g gs hrest, hlater]

/-- Groups at the front are read up to where they end. -/
theorem readGroups_eq {gs : List UInt16} {limit : Nat} (hle : gs.length ≤ limit)
    {rest : List Char} (hrest : Ends rest) (hdot : '.' ∉ rest) :
    readGroups limit true ((renderGroups gs).toList ++ rest) = (gs, false, rest) := by
  cases gs with
  | nil => exact readGroups_of_ends limit true hrest
  | cons g gs =>
    obtain ⟨limit, rfl⟩ : ∃ n, limit = n + 1 := Nat.exists_eq_add_one.2 (by simp at hle; omega)
    have hlater : readGroups limit false (groupTail gs ++ rest) = (gs, false, rest) :=
      readGroups_tail (by simpa using hle) hrest hdot
    rw [toList_renderGroups_cons, List.append_assoc, readGroups]
    simp [groupStart?, readV4?_groups g gs hdot, group_read?_groups g gs hrest, hlater]

theorem readGroups_all {gs : List UInt16} {limit : Nat} (hle : gs.length ≤ limit) :
    readGroups limit true (renderGroups gs).toList = (gs, false, []) := by
  rw [← List.append_nil (renderGroups gs).toList]
  exact readGroups_eq hle (.inl rfl) (by simp)

/-! ## The gap -/

theorem zeroRun_spec (gs : List UInt16) :
    gs = List.replicate (zeroRun gs) 0 ++ gs.drop (zeroRun gs) := by
  induction gs with
  | nil => rfl
  | cons g gs ih =>
    by_cases hg : g = 0
    · rw [zeroRun, if_pos hg, List.replicate_succ, List.drop_succ_cons, List.cons_append, ← ih, hg]
    · rw [zeroRun, if_neg hg]
      rfl

/-- The run of zeros that is left out is where it is said to be. -/
theorem longestZeros_spec (at_ : Nat) (gs : List UInt16) :
    ∃ before, (longestZeros at_ gs).1 = at_ + before ∧
      gs = gs.take before ++ List.replicate (longestZeros at_ gs).2 0 ++
        gs.drop (before + (longestZeros at_ gs).2) := by
  induction gs generalizing at_ with
  | nil => exact ⟨0, rfl, rfl⟩
  | cons g gs ih =>
    rw [longestZeros]
    split
    · exact ⟨0, rfl, by simpa using zeroRun_spec (g :: gs)⟩
    · obtain ⟨before, hplace, hsplit⟩ := ih (at_ + 1)
      refine ⟨before + 1, by omega, ?_⟩
      rw [List.take_succ_cons, Nat.add_right_comm, List.drop_succ_cons, List.cons_append,
        List.cons_append, ← hsplit]

/-! ## IPv6 -/

theorem groups?_eq_some_iff {gs : List UInt16} {v : Vector UInt16 8} :
    groups? gs = some v ↔ v.toList = gs := by
  unfold groups?
  constructor
  · intro h
    split at h
    · obtain rfl := Option.some.inj h
      rfl
    · cases h
  · rintro rfl
    rw [dif_pos (by simp)]
    rfl

theorem ends_gap (text : List Char) : Ends (':' :: ':' :: text) := .inr ⟨text, rfl⟩

/-- The high and the low octet of a group. -/
def halves (g : UInt16) : UInt8 × UInt8 := (.ofNat (g.toNat / 256), .ofNat (g.toNat % 256))

theorem ofNat_halves (g : UInt16) :
    UInt16.ofNat (256 * (halves g).1.toNat + (halves g).2.toNat) = g := by
  have hg := g.toNat_lt
  have hsum : 256 * (halves g).1.toNat + (halves g).2.toNat = g.toNat := by
    simp only [halves, UInt8.toNat_ofNat']
    omega
  rw [hsum, UInt16.ofNat_toNat]

/-- The three forms of the text of an IPv6 address. -/
theorem renderV6_forms (groups : Vector UInt16 8) :
    (∃ x y, groups.toList = [0, 0, 0, 0, 0, 0xffff, x, y] ∧ renderV6 groups = "::ffff:" ++
      renderV4 (halves x).1 (halves x).2 (halves y).1 (halves y).2) ∨
    (∃ front back len, 1 < len ∧ groups.toList = front ++ List.replicate len 0 ++ back ∧
      renderV6 groups = renderGroups front ++ "::" ++ renderGroups back) ∨
    renderV6 groups = renderGroups groups.toList := by
  obtain ⟨before, hplace, hsplit⟩ := longestZeros_spec 0 groups.toList
  unfold renderV6
  split
  · rename_i x y hgroups
    exact .inl ⟨x, y, hgroups, rfl⟩
  · refine .inr ?_
    rcases hlongest : longestZeros 0 groups.toList with ⟨start, len⟩
    rw [hlongest] at hplace hsplit
    simp only [Nat.zero_add] at hplace hsplit
    subst hplace
    by_cases hlen : 1 < len
    · simp only [if_pos hlen]
      exact .inl ⟨_, _, len, hlen, hsplit, rfl⟩
    · simp only [if_neg hlen]
      exact .inr trivial

theorem readV6?_groups (groups : Vector UInt16 8) :
    readV6? (renderGroups groups.toList).toList = some (groups, []) := by
  have hread : readGroups 8 true (renderGroups groups.toList).toList =
      (groups.toList, false, []) := readGroups_all (by simp)
  have hgroups := groups?_eq_some_iff.2 (Eq.refl groups.toList)
  simp [readV6?, hread, hgroups]

theorem readV6?_gap {groups : Vector UInt16 8} {front back : List UInt16} {len : Nat}
    (hlen : 1 < len) (hgroups : groups.toList = front ++ List.replicate len 0 ++ back) :
    readV6? ((renderGroups front).toList ++ ':' :: ':' :: (renderGroups back).toList) =
      some (groups, []) := by
  have hsize : front.length + len + back.length = 8 := by
    have hlength := congrArg List.length hgroups
    simp only [Vector.length_toList, List.length_append, List.length_replicate] at hlength
    omega
  have hfront : readGroups 8 true
      ((renderGroups front).toList ++ ':' :: ':' :: (renderGroups back).toList) =
      (front, false, ':' :: ':' :: (renderGroups back).toList) := by
    refine readGroups_eq (by omega) (ends_gap _) ?_
    simp [dot_notMem_renderGroups]
  have hback : readGroups (7 - front.length) true (renderGroups back).toList =
      (back, false, []) := readGroups_all (by omega)
  have hzeros : 8 - front.length - back.length = len := by omega
  have hshort : front.length ≠ 8 := by omega
  have hall := groups?_eq_some_iff.2 hgroups
  rw [List.append_assoc] at hall
  simp [readV6?, hfront, hshort, expect?, hback, hzeros, hall]

theorem readGroups_embedded {x y : UInt16} {text : List Char}
    (h : readV4? text = some (((halves x).1, (halves x).2, (halves y).1, (halves y).2), [])) :
    readGroups 6 false (':' :: text) = ([x, y], true, []) := by
  have hstart : (groupStart? false (':' :: text)).bind readV4? =
      some (((halves x).1, (halves x).2, (halves y).1, (halves y).2), []) := h
  rw [readGroups, if_neg (by decide), hstart]
  simp only [ofNat_halves]

theorem readV6?_embedded {groups : Vector UInt16 8} {x y : UInt16}
    (hgroups : groups.toList = [0, 0, 0, 0, 0, 0xffff, x, y]) :
    readV6? ("::ffff:" ++ renderV4 (halves x).1 (halves x).2 (halves y).1 (halves y).2).toList =
      some (groups, []) := by
  have hread := readV4?_render (halves x).1 (halves x).2 (halves y).1 (halves y).2 (noDigit_nil 10)
  rw [List.append_nil] at hread
  generalize hv4 : (renderV4 (halves x).1 (halves x).2 (halves y).1 (halves y).2).toList = v4 at hread
  have htext : ("::ffff:" ++ renderV4 (halves x).1 (halves x).2 (halves y).1 (halves y).2).toList =
      ':' :: ':' :: (groupText 0xffff ++ ':' :: v4) := by
    rw [String.toList_append, hv4]
    rfl
  have hgroup : group.read? (groupText 0xffff ++ ':' :: v4) = some (0xffff, ':' :: v4) :=
    group_read? 0xffff (noDigit_cons (by decide) _)
  have hno : readV4? (groupText 0xffff ++ ':' :: v4) = none :=
    readV4?_of_noDigit (noDigit_cons (by decide) _)
  have hback : readGroups 7 true (groupText 0xffff ++ ':' :: v4) = ([0xffff, x, y], true, []) := by
    rw [readGroups]
    simp [groupStart?, hno, hgroup, readGroups_embedded hread]
  have hall := groups?_eq_some_iff.2 hgroups
  rw [htext]
  simp [readV6?, readGroups_of_ends 8 true (ends_gap _), expect?, hback, hall]

/-- The text of an IPv6 address is read as that address. -/
theorem readV6?_render (groups : Vector UInt16 8) :
    readV6? (renderV6 groups).toList = some (groups, []) := by
  rcases renderV6_forms groups with ⟨x, y, hgroups, htext⟩ | ⟨front, back, len, hlen, hgroups, htext⟩
    | htext
  · rw [htext]
    exact readV6?_embedded hgroups
  · rw [htext, String.toList_append, String.toList_append, List.append_assoc]
    exact readV6?_gap hlen hgroups
  · rw [htext]
    exact readV6?_groups groups

/-- The text of an IPv6 address does not start with an IPv4 address. -/
theorem readV4?_renderV6 (groups : Vector UInt16 8) : readV4? (renderV6 groups).toList = none := by
  rcases renderV6_forms groups with ⟨x, y, -, htext⟩ | ⟨front, back, -, -, -, htext⟩ | htext
  · rw [htext, String.toList_append]
    exact readV4?_of_noDigit (noDigit_cons (by decide) _)
  · rw [htext]
    refine readV4?_eq_none ?_
    simp [dot_notMem_renderGroups]
  · rw [htext]
    exact readV4?_eq_none (dot_notMem_renderGroups _)

/-- The text of an address is read as that address. -/
theorem parse?_render (a : IpAddress) : parse? a.render = some a := by
  cases a with
  | v4 a b c d =>
    have hread := readV4?_render a b c d (noDigit_nil 10)
    rw [List.append_nil] at hread
    simp [parse?, read?, render, hread]
  | v6 groups => simp [parse?, read?, render, readV4?_renderV6, readV6?_render]

theorem render_inj {a b : IpAddress} (h : a.render = b.render) : a = b := by
  have hparse := parse?_render a
  rw [h, parse?_render] at hparse
  exact (Option.some.inj hparse).symm

/-- An address does not start with a bracket. -/
theorem parse?_bracketed (text : String) : parse? ("[" ++ text) = none := by
  have htext : ("[" ++ text).toList = '[' :: text.toList := by simp
  have hdigit : NoDigit 16 ('[' :: text.toList) := noDigit_cons (by decide) _
  have hgroups : readGroups 8 true ('[' :: text.toList) = ([], false, '[' :: text.toList) :=
    readGroups_nothing 8 fun rest hrest => Option.some.inj hrest ▸ hdigit
  have hv6 : readV6? ('[' :: text.toList) = none := by simp [readV6?, hgroups, expect?]
  have hv4 := readV4?_of_noDigit (hdigit.mono (show 10 ≤ 16 by decide))
  simp [parse?, read?, htext, hv4, hv6]

end IpAddress
end TlsTransport
