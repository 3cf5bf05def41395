import TlsTransport.Proofs.CipherPolicy.Filtering
import TlsTransport.Proofs.Session.Gate

/-! # What a cipher rule can say

A rule is one text, and whoever reads it splits it at its colons. A fragment is any text, so one
with a colon in it could add words of its own to the rule. None does: a fragment stands in the rule
as one exclusion or not at all, and what the rule leaves out is checked on the negotiated suite.

* `CipherPolicy.words`: the words of a rule; `CipherPolicy.Expressible`: what can be one of them.
* `CipherPolicy.blocked_blocking`: the added fragments, each once, in the order of their first
  block.
* `CipherPolicy.words_rule`: the words of the rule of any policy.
* `CipherPolicy.rule_excludes`: the rule only adds exclusions, and a handshake with a suite that
  contains an added fragment fails.
-/

namespace TlsTransport
namespace CipherPolicy

/-! ## Words -/

/-- The words of a rule, as they are read: what stands between its colons. -/
def words (rule : String) : List String := (rule.split ':').toList.map String.Slice.copy

/-- The word that excludes what a keyword stands for. -/
def exclusion (keyword : String) : String := "!" ++ keyword

/-- The words of the rule that every policy has. -/
def baseWords : List String :=
  "HIGH" :: ["aNULL", "eNULL", "MD5", "EXP", "DES", "3DES", "IDEA"].map exclusion

theorem words_eq (rule : String) : words rule = (rule.toList.splitOn ':').map String.ofList :=
  String.toList_split_char

theorem words_baseRule : words baseRule = baseWords := by
  rw [words_eq]
  decide

theorem words_add {word : String} (h : ':' ∉ word.toList) (rule : String) :
    words (rule ++ ":" ++ word) = words rule ++ [word] := by
  have hlist : (rule ++ ":" ++ word).toList = rule.toList ++ ':' :: word.toList := by
    simp only [String.toList_append, List.append_assoc]
    rfl
  rw [words_eq, words_eq, hlist, List.splitOn_append_cons_self, List.splitOn_eq_singleton h,
    List.map_append, List.map_singleton, String.ofList_toList]

/-! ## Fragments -/

/-- A letter or a digit in ASCII. -/
def IsPlain (c : Char) : Prop :=
  'a' ≤ c ∧ c ≤ 'z' ∨ 'A' ≤ c ∧ c ≤ 'Z' ∨ '0' ≤ c ∧ c ≤ '9'

/-- A fragment that is written into the rule. -/
def Expressible (fragment : String) : Prop :=
  fragment ≠ "" ∧ fragment ∉ defaultBlocked ∧ ∀ c ∈ fragment.toList, IsPlain c

theorem isAlphanum_iff (c : Char) : c.isAlphanum = true ↔ IsPlain c := by
  have hupper : c.isUpper = true ↔ 'A' ≤ c ∧ c ≤ 'Z' := decide_eq_true_iff
  have hlower : c.isLower = (decide ('a' ≤ c) && decide (c ≤ 'z')) := rfl
  have hdigit : c.isDigit = (decide ('0' ≤ c) && decide (c ≤ '9')) := rfl
  have hall : c.isAlphanum = (c.isUpper || c.isLower || c.isDigit) := rfl
  simp only [hall, hlower, hdigit, IsPlain, Bool.or_eq_true, Bool.and_eq_true,
    decide_eq_true_iff, hupper]
  tauto

theorem isKeyword_iff (fragment : String) :
    isKeyword fragment = true ↔ ∀ c ∈ fragment.toList, IsPlain c := by
  simp only [isKeyword, List.all_eq_true, isAlphanum_iff]

theorem not_colon_of_isPlain {c : Char} (h : IsPlain c) : c ≠ ':' := by
  rintro rfl
  revert h
  unfold IsPlain
  decide

theorem colon_notMem_exclusion {keyword : String} (h : isKeyword keyword = true) :
    ':' ∉ (exclusion keyword).toList := by
  rw [exclusion, String.toList_append]
  intro hmem
  rcases List.mem_append.1 hmem with hmark | hcolon
  · revert hmark
    decide
  · exact not_colon_of_isPlain ((isKeyword_iff keyword).1 h ':' hcolon) rfl

/-! ## Blocked fragments in order -/

/-- These are the fragments that were added to the default ones, in the order in which each was
blocked first. -/
structure Added (fragments added : List String) : Prop where
  mem : ∀ f, f ∈ added ↔ f ∈ fragments ∧ f ≠ "" ∧ f ∉ defaultBlocked
  ordered : added.Pairwise fun f g => fragments.idxOf f < fragments.idxOf g

theorem idxOf_concat {fragments : List String} {f : String} (h : f ∈ fragments) (g : String) :
    (fragments ++ [g]).idxOf f = fragments.idxOf f := List.idxOf_append_of_mem h

/-- One more fragment changes nothing, or it comes last. -/
theorem Added.block {fragments added : List String} (h : Added fragments added) (f : String) :
    ∃ added', Added (fragments ++ [f]) added' ∧
      (⟨defaultBlocked ++ added⟩ : CipherPolicy).block f = ⟨defaultBlocked ++ added'⟩ := by
  have hordered : added.Pairwise fun a b =>
      (fragments ++ [f]).idxOf a < (fragments ++ [f]).idxOf b := by
    refine h.ordered.imp_of_mem fun ha hb hlt => ?_
    rwa [idxOf_concat ((h.mem _).1 ha).1, idxOf_concat ((h.mem _).1 hb).1]
  rw [CipherPolicy.block]
  split
  · rename_i hskip
    have hknown : f = "" ∨ f ∈ defaultBlocked ∨ f ∈ added := by simpa using hskip
    refine ⟨added, ⟨fun g => ?_, hordered⟩, rfl⟩
    rw [h.mem, List.mem_append, List.mem_singleton]
    constructor
    · rintro ⟨hg, hrest⟩
      exact ⟨.inl hg, hrest⟩
    · rintro ⟨hg | rfl, hne, hnew⟩
      · exact ⟨hg, hne, hnew⟩
      · have hadded := (hknown.resolve_left hne).resolve_left hnew
        exact (h.mem g).1 hadded
  · rename_i hadd
    obtain ⟨hne, hnew, hfresh⟩ : f ≠ "" ∧ f ∉ defaultBlocked ∧ f ∉ added := by simpa using hadd
    have hfirst : f ∉ fragments := fun hf => hfresh ((h.mem f).2 ⟨hf, hne, hnew⟩)
    refine ⟨added ++ [f], ⟨fun g => ?_, ?_⟩, by simp⟩
    · rw [List.mem_append, List.mem_singleton, h.mem, List.mem_append, List.mem_singleton,
        or_and_right]
      refine or_congr_right ⟨?_, And.left⟩
      rintro rfl
      exact ⟨rfl, hne, hnew⟩
    · refine List.pairwise_append.2 ⟨hordered, List.pairwise_singleton _ _, fun g hg f' hf' => ?_⟩
      rw [List.mem_singleton.1 hf']
      have hmem := ((h.mem g).1 hg).1
      have hlt := List.idxOf_lt_length_of_mem hmem
      rw [idxOf_concat hmem, List.idxOf_append_of_notMem hfirst]
      omega

theorem blocked_blocking (fragments : List String) :
    ∃ added, Added fragments added ∧ blocking fragments = ⟨defaultBlocked ++ added⟩ := by
  induction fragments using List.reverseRecOn with
  | nil => exact ⟨[], ⟨by simp, .nil⟩, rfl⟩
  | append_singleton fragments f ih =>
    obtain ⟨added, hadded, hpolicy⟩ := ih
    obtain ⟨added', hadded', hblock⟩ := hadded.block f
    refine ⟨added', hadded', ?_⟩
    rw [blocking, List.foldl_concat, ← hblock, ← hpolicy]
    rfl

/-! ## The rule -/

/-- Whether a blocked fragment is written into the rule. -/
def isWritten (f : String) : Bool := !defaultBlocked.contains f && isKeyword f

theorem words_rule (p : CipherPolicy) :
    words p.rule = baseWords ++ (p.blocked.filter isWritten).map exclusion := by
  rw [← words_baseRule, rule]
  generalize baseRule = start
  -- The rule grows at its end, so what was written before is the accumulator.
  induction p.blocked generalizing start with
  | nil => simp
  | cons f rest ih =>
    rw [List.foldl_cons, ih, List.filter_cons]
    change words (if isWritten f = true then s!"{start}:!{f}" else start) ++ _ = _
    cases hf : isWritten f with
    | false => simp
    | true =>
      have hkey : isKeyword f = true := (Bool.and_eq_true_iff.1 hf).2
      have hmark : toString ":!" = ":" ++ "!" := by decide
      have hlong : s!"{start}:!{f}" = start ++ ":" ++ exclusion f := by
        rw [hmark, exclusion]
        simp only [String.append_assoc]
        rfl
      rw [if_pos rfl, hlong, words_add (colon_notMem_exclusion hkey)]
      simp

theorem isWritten_iff {f : String} (hne : f ≠ "") : isWritten f = true ↔ Expressible f := by
  rw [isWritten, Bool.and_eq_true, isKeyword_iff, Bool.not_eq_true', List.contains_eq_mem,
    decide_eq_false_iff_not]
  exact ⟨fun h => ⟨hne, h⟩, fun h => h.2⟩

/-- Of the added fragments the rule excludes those that it can express, and the default ones are in
its base already. -/
theorem filter_isWritten {fragments added : List String} (h : Added fragments added) :
    (defaultBlocked ++ added).filter isWritten = added.filter isWritten ∧
    (∀ f, f ∈ added.filter isWritten ↔ f ∈ fragments ∧ Expressible f) := by
  have hdefault : defaultBlocked.filter isWritten = [] := by decide
  refine ⟨by rw [List.filter_append, hdefault, List.nil_append], fun f => ?_⟩
  rw [List.mem_filter, h.mem]
  constructor
  · rintro ⟨⟨hf, hne, -⟩, hwritten⟩
    exact ⟨hf, (isWritten_iff hne).1 hwritten⟩
  · rintro ⟨hf, hexpr⟩
    exact ⟨⟨hf, hexpr.1, hexpr.2.1⟩, (isWritten_iff hexpr.1).2 hexpr⟩

/-! ## The negotiated suite -/

section Negotiated

variable {σ ω ε : Type} [Engine σ ε]

/-- A handshake that ends with a blocked suite fails, and because of it if the peer is who it should
be. -/
theorem finishHandshake_blocked {s : Session σ ω ε} {suite : String}
    (hsuite : Engine.cipherSuite s.engine = some suite) (h : s.policy.allows suite = false) :
    ∃ f, s.finishHandshake = s.failStep f ∧ (s.identityFault? = none → f = .cipher suite) := by
  have hblocked : s.blockedSuite? = some suite := by
    rw [Session.blockedSuite?, hsuite]
    simp [h]
  unfold Session.finishHandshake
  cases hid : s.identityFault? with
  | some fault => exact ⟨.identity fault, rfl, nofun⟩
  | none =>
    simp only [hblocked]
    exact ⟨.cipher suite, rfl, fun _ => rfl⟩

theorem allows_of_contains {fragments : List String} {f suite : String} (hf : f ∈ fragments)
    (hne : f ≠ "") (h : Contains suite f) : (blocking fragments).allows suite = false := by
  rw [allows_blocking, decide_eq_false_iff_not]
  rintro ⟨-, -, hnone⟩
  exact hnone f hf hne h

/-- Whatever fragments are blocked, the rule says what the default rule says and then excludes some
words: once each added fragment that is neither empty nor a default one and has ASCII letters and
digits only, in the order in which they were blocked first. What it can not exclude does not pass in
the end either: no handshake succeeds with a suite whose name contains an added fragment. -/
theorem rule_excludes (fragments : List String) :
    (∃ added : List String,
      words (blocking fragments).rule = words default.rule ++ added.map exclusion ∧
      (∀ f, f ∈ added ↔ f ∈ fragments ∧ Expressible f) ∧
      added.Pairwise fun f g => fragments.idxOf f < fragments.idxOf g) ∧
    ∀ f ∈ fragments, f ≠ "" → ∀ suite, Contains suite f →
      (blocking fragments).allows suite = false ∧
      ∀ s : Session σ ω ε, s.policy = blocking fragments →
        Engine.cipherSuite s.engine = some suite →
        ∃ failure, s.finishHandshake = s.failStep failure ∧
          (s.identityFault? = none → failure = .cipher suite) := by
  constructor
  · obtain ⟨added, hadded, hpolicy⟩ := blocked_blocking fragments
    obtain ⟨hfilter, hmem⟩ := filter_isWritten hadded
    have hdefault : words default.rule = baseWords := by
      rw [words_rule]
      decide
    refine ⟨added.filter isWritten, ?_, hmem, hadded.ordered.filter _⟩
    rw [words_rule, hdefault, hpolicy, hfilter]
  · intro f hf hne suite hcontains
    have hblocked := allows_of_contains hf hne hcontains
    refine ⟨hblocked, fun s hpolicy hsuite => finishHandshake_blocked hsuite ?_⟩
    rw [hpolicy, hblocked]

end Negotiated

/-- Of these fragments the rule can express one. Another one is in the name of the suite that the
prompt engine negotiates, and a client that blocks it does not connect. -/
theorem unspoken_fragment_blocks :
    let fragments := ["_GCM_", "SEED:ALL", "SEED", "", "MD5", "SEED"]
    let s : Session (ScriptedEngine false) ScriptedSocket String :=
      .ofEngine ⟨Session.promptScript⟩ .client false (blocking fragments)
    words (blocking fragments).rule = words default.rule ++ ["!SEED"] ∧
    (blocking fragments).allows "TLS_AES_128_GCM_SHA256" = false ∧
    s.finishHandshake = s.failStep (.cipher "TLS_AES_128_GCM_SHA256") := by
  intro fragments s
  obtain ⟨-, hblocks⟩ := rule_excludes (σ := ScriptedEngine false) (ω := ScriptedSocket) fragments
  obtain ⟨hblocked, hfails⟩ := hblocks "_GCM_" (by decide) (by decide) "TLS_AES_128_GCM_SHA256"
    (by decide)
  obtain ⟨failure, hfails, hwhy⟩ := hfails s rfl rfl
  obtain rfl := hwhy rfl
  refine ⟨?_, hblocked, hfails⟩
  rw [words_rule, words_rule]
  decide

end CipherPolicy
end TlsTransport
