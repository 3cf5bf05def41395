import Mathlib.Data.List.Infix
import TlsTransport.CipherPolicy

/-! # What a policy lets through

A policy is the default one with fragments blocked one after the other. Of these only the set counts
that is left when the empty fragment is taken out: it says which suites pass, each on its own.

* `CipherPolicy.Offerable`: the suites that pass, said without a policy.
* `CipherPolicy.allows_blocking`: they are the allowed ones.
* `CipherPolicy.allows_block`: one more fragment only takes suites away.
* `CipherPolicy.filter_offerable`: what filtering a list gives, and what does not change it.
-/

namespace TlsTransport
namespace CipherPolicy

/-! ## Blocked fragments -/

/-- The default policy with fragments blocked one after the other. -/
def blocking (fragments : List String) : CipherPolicy := fragments.foldl block default

theorem mem_blocked_block {p : CipherPolicy} {f g : String} :
    g ∈ (p.block f).blocked ↔ g ∈ p.blocked ∨ g = f ∧ g ≠ "" := by
  rw [block]
  split
  · rename_i hskip
    have hknown : f = "" ∨ f ∈ p.blocked := by simpa using hskip
    constructor
    · exact Or.inl
    · rintro (hg | ⟨rfl, hne⟩)
      · exact hg
      · exact hknown.resolve_left hne
  · rename_i hadd
    obtain ⟨hne, -⟩ : f ≠ "" ∧ f ∉ p.blocked := by simpa using hadd
    rw [List.mem_append, List.mem_singleton]
    refine or_congr_right ⟨?_, And.left⟩
    rintro rfl
    exact ⟨rfl, hne⟩

theorem mem_blocked_foldl {p : CipherPolicy} {fragments : List String} {g : String} :
    g ∈ (fragments.foldl block p).blocked ↔ g ∈ p.blocked ∨ g ∈ fragments ∧ g ≠ "" := by
  induction fragments generalizing p with
  | nil => simp
  | cons f fragments ih =>
    rw [List.foldl_cons, ih, mem_blocked_block, List.mem_cons, or_and_right, or_assoc]

theorem mem_blocked_blocking {fragments : List String} {g : String} :
    g ∈ (blocking fragments).blocked ↔ g ∈ defaultBlocked ∨ g ∈ fragments ∧ g ≠ "" :=
  mem_blocked_foldl

/-! ## Allowed suites -/

/-- A fragment occurs in the name of a suite. -/
def Contains (suite fragment : String) : Prop := fragment.toList <:+: suite.toList

instance (suite fragment : String) : Decidable (Contains suite fragment) :=
  inferInstanceAs (Decidable (_ <:+: _))

/-- A suite that may be offered when fragments are blocked beside the default ones. -/
def Offerable (fragments : List String) (suite : String) : Prop :=
  suite ≠ "" ∧ (∀ f ∈ defaultBlocked, ¬ Contains suite f) ∧
    ∀ f ∈ fragments, f ≠ "" → ¬ Contains suite f

instance (fragments : List String) (suite : String) : Decidable (Offerable fragments suite) :=
  inferInstanceAs (Decidable (_ ∧ _))

theorem allows_blocking (fragments : List String) (suite : String) :
    (blocking fragments).allows suite = decide (Offerable fragments suite) := by
  have hblocked : (∀ f ∈ (blocking fragments).blocked, ¬ Contains suite f) ↔
      (∀ f ∈ defaultBlocked, ¬ Contains suite f) ∧
        ∀ f ∈ fragments, f ≠ "" → ¬ Contains suite f := by
    simp only [mem_blocked_blocking, or_imp, forall_and, and_imp]
  rw [Bool.eq_iff_iff, decide_eq_true_iff, allows_iff]
  exact and_congr_right fun _ => hblocked

theorem allows_block (p : CipherPolicy) {f : String} (hf : f ≠ "") (suite : String) :
    (p.block f).allows suite = (!decide (Contains suite f) && p.allows suite) := by
  have hblocked : (∀ g ∈ (p.block f).blocked, ¬ Contains suite g) ↔
      (∀ g ∈ p.blocked, ¬ Contains suite g) ∧ ¬ Contains suite f := by
    simp only [mem_blocked_block, or_imp, forall_and, and_imp, forall_eq, hf, ne_eq,
      not_false_eq_true, true_implies]
  rw [Bool.eq_iff_iff, Bool.and_eq_true, Bool.not_eq_true', decide_eq_false_iff_not, allows_iff,
    allows_iff]
  constructor
  · rintro ⟨hne, hnone⟩
    obtain ⟨hold, hnew⟩ := hblocked.1 hnone
    exact ⟨hnew, hne, hold⟩
  · rintro ⟨hnew, hne, hold⟩
    exact ⟨hne, hblocked.2 ⟨hold, hnew⟩⟩

theorem block_empty (p : CipherPolicy) : p.block "" = p := by
  rw [block, if_pos (by simp)]

/-! ## Filtered lists -/

theorem filter_block (p : CipherPolicy) {f : String} (hf : f ≠ "") (suites : List String) :
    (p.block f).filter suites = (p.filter suites).filter fun s => !decide (Contains s f) := by
  rw [filter, filter, List.filter_filter]
  exact List.filter_congr fun s _ => p.allows_block hf s

theorem offerable_congr {fragments fragments' : List String}
    (h : ∀ f, f ≠ "" → (f ∈ fragments' ↔ f ∈ fragments)) (suite : String) :
    Offerable fragments' suite ↔ Offerable fragments suite := by
  refine and_congr_right fun _ => and_congr_right fun _ => forall_congr' fun f => ?_
  constructor
  · exact fun hall hf hne => hall ((h f hne).2 hf) hne
  · exact fun hall hf hne => hall ((h f hne).1 hf) hne

theorem allows_congr {fragments fragments' : List String}
    (h : ∀ f, f ≠ "" → (f ∈ fragments' ↔ f ∈ fragments)) (suite : String) :
    (blocking fragments').allows suite = (blocking fragments).allows suite := by
  rw [allows_blocking, allows_blocking, Bool.eq_iff_iff, decide_eq_true_iff, decide_eq_true_iff]
  exact offerable_congr h suite

/-- Filtering keeps the suites that may be offered, each where it stands and as often as it stands
there; none of them contains a default fragment, and filtering again changes nothing. To block one
more fragment is to drop the suites that contain it, unless the fragment is empty: then nothing
changes. Fragments blocked in another order, repeated or with empty ones between them make the same
policy. -/
theorem filter_offerable (fragments suites : List String) :
    (blocking fragments).filter suites =
      suites.filter (fun s => decide (Offerable fragments s)) ∧
    (∀ s ∈ (blocking fragments).filter suites, ∀ f ∈ defaultBlocked, ¬ Contains s f) ∧
    (blocking fragments).filter ((blocking fragments).filter suites) =
      (blocking fragments).filter suites ∧
    (∀ f, f ≠ "" → ((blocking fragments).block f).filter suites =
      ((blocking fragments).filter suites).filter fun s => !decide (Contains s f)) ∧
    (blocking fragments).block "" = blocking fragments ∧
    ∀ fragments', (∀ f, f ≠ "" → (f ∈ fragments' ↔ f ∈ fragments)) →
      (∀ s, (blocking fragments').allows s = (blocking fragments).allows s) ∧
      (blocking fragments').filter suites = (blocking fragments).filter suites := by
  have hfilter : (blocking fragments).filter suites =
      suites.filter (fun s => decide (Offerable fragments s)) :=
    List.filter_congr fun s _ => allows_blocking fragments s
  refine ⟨hfilter, fun s hs => ?_, ?_, fun f hf => filter_block _ hf suites, block_empty _,
    fun fragments' h => ⟨allows_congr h, List.filter_congr fun s _ => allows_congr h s⟩⟩
  · rw [hfilter, List.mem_filter, decide_eq_true_iff] at hs
    obtain ⟨-, -, hdefault, -⟩ := hs
    exact hdefault
  · rw [filter, filter, List.filter_filter]
    exact List.filter_congr fun s _ => Bool.and_self _

/-- A suite that is twice there and one that a later fragment takes away; the same fragments with an
empty one between them and in another order. -/
theorem repeated_suites_filtered :
    (blocking ["CBC", "", "PSK"]).filter ["AES-GCM", "RC4-MD5", "AES-CBC", "RSA-AES", "AES-GCM"] =
      ["AES-GCM", "RSA-AES", "AES-GCM"] ∧
    ((blocking ["CBC", "", "PSK"]).block "RSA").filter
        ["AES-GCM", "RC4-MD5", "AES-CBC", "RSA-AES", "AES-GCM"] = ["AES-GCM", "AES-GCM"] ∧
    (blocking ["PSK", "CBC", "PSK"]).filter
        ["AES-GCM", "RC4-MD5", "AES-CBC", "RSA-AES", "AES-GCM"] =
      ["AES-GCM", "RSA-AES", "AES-GCM"] := by
  obtain ⟨hfilter, -, -, hblock, -, hsame⟩ := filter_offerable ["CBC", "", "PSK"]
    ["AES-GCM", "RC4-MD5", "AES-CBC", "RSA-AES", "AES-GCM"]
  have hleft : (blocking ["CBC", "", "PSK"]).filter
      ["AES-GCM", "RC4-MD5", "AES-CBC", "RSA-AES", "AES-GCM"] =
        ["AES-GCM", "RSA-AES", "AES-GCM"] := hfilter.trans (by decide)
  refine ⟨hleft, ?_, ?_⟩
  · rw [hblock "RSA" (by decide), hleft]
    decide
  · obtain ⟨-, hequal⟩ := hsame ["PSK", "CBC", "PSK"] fun f hf => by
      simp only [List.mem_cons, List.not_mem_nil, hf, false_or, or_false]
      tauto
    exact hequal.trans hleft

/-- The empty fragment occurs in every name, and blocking it takes no suite away. -/
theorem block_empty_drops_nothing :
    ((blocking []).block "").filter ["TLS13_AES_128_GCM_SHA256"] = ["TLS13_AES_128_GCM_SHA256"] ∧
    (((blocking []).filter ["TLS13_AES_128_GCM_SHA256"]).filter fun s =>
      !decide (Contains s "")) = [] := by
  decide

end CipherPolicy
end TlsTransport
