/-! # Cipher-suite policy

A `CipherPolicy` is the default list of blocked name fragments and the fragments added to it. A
suite is allowed when its name is not empty and contains none of them.

* `CipherPolicy.allows_iff`: what `allows` decides, said with list infixes.
-/

namespace TlsTransport

/-- Whether `part` occurs in a text at any place. -/
def occursIn (part : List Char) : List Char → Bool
  | [] => part.isEmpty
  | c :: rest => part.isPrefixOf (c :: rest) || occursIn part rest

theorem occursIn_iff (part text : List Char) : occursIn part text = true ↔ part <:+: text := by
  induction text with
  | nil => simp [occursIn, List.infix_nil]
  | cons c rest ih => simp [occursIn, ih, List.infix_cons_iff]

/-- The name fragments that no suite may contain. -/
def defaultBlocked : List String :=
  ["NULL", "anon", "MD5", "EXPORT", "DES", "IDEA", "NO_SUCH", "EMPTY"]

/-- The blocked name fragments, in the order in which they were added. -/
structure CipherPolicy where
  blocked : List String
  deriving DecidableEq, Repr

namespace CipherPolicy

/-- The policy every context starts with. -/
def default : CipherPolicy := ⟨defaultBlocked⟩

instance : Inhabited CipherPolicy := ⟨default⟩

/-- Blocks one more fragment. The empty fragment and a repeated one change nothing. -/
def block (p : CipherPolicy) (fragment : String) : CipherPolicy :=
  if fragment.isEmpty || p.blocked.contains fragment then p
  else ⟨p.blocked ++ [fragment]⟩

/-- Whether a suite may be offered and used. -/
def allows (p : CipherPolicy) (suite : String) : Bool :=
  !suite.isEmpty && !p.blocked.any fun f => occursIn f.toList suite.toList

/-- The allowed suites, in their order. -/
def filter (p : CipherPolicy) (suites : List String) : List String := suites.filter p.allows

/-- The rule that excludes the default families, by keyword. -/
def baseRule : String := "HIGH:!aNULL:!eNULL:!MD5:!EXP:!DES:!3DES:!IDEA"

/-- Whether a fragment can be written as an exclusion: ASCII letters and digits only. -/
def isKeyword (fragment : String) : Bool := fragment.toList.all fun c => c.isAlphanum

/-- The policy as a cipher rule: the default families by keyword, then one exclusion for each added
fragment that is a keyword. Other fragments act on the negotiated suite only. -/
def rule (p : CipherPolicy) : String :=
  p.blocked.foldl
    (fun rule f =>
      if !defaultBlocked.contains f && isKeyword f then s!"{rule}:!{f}" else rule)
    baseRule

theorem allows_iff (p : CipherPolicy) (suite : String) :
    p.allows suite = true ↔
      suite ≠ "" ∧ ∀ f ∈ p.blocked, ¬ f.toList <:+: suite.toList := by
  simp [allows, ← occursIn_iff]

end CipherPolicy
end TlsTransport
