import TlsTransport.Bytes

/-! # Decoding UTF-8 with replacement

Reads a byte string as UTF-8. Each longest piece that starts a character and cannot be completed
becomes one replacement character, and so does each byte that can start none.
-/

namespace TlsTransport

/-- The bounds of the byte that follows a first byte, and how many more follow that one; `none`
for a byte that starts no character of several bytes. -/
def utf8Follow? (first : UInt8) : Option (UInt8 × UInt8 × Nat) :=
  if 0xC2 ≤ first ∧ first ≤ 0xDF then some (0x80, 0xBF, 0)
  else if first = 0xE0 then some (0xA0, 0xBF, 1)
  else if first = 0xED then some (0x80, 0x9F, 1)
  else if 0xE1 ≤ first ∧ first ≤ 0xEF then some (0x80, 0xBF, 1)
  else if first = 0xF0 then some (0x90, 0xBF, 2)
  else if 0xF1 ≤ first ∧ first ≤ 0xF3 then some (0x80, 0xBF, 2)
  else if first = 0xF4 then some (0x80, 0x8F, 2)
  else none

/-- Reads `more` further bytes of a character with the given value so far. Answers the character,
or nothing when a byte is missing or wrong, and the bytes left. -/
def utf8Rest (value : Nat) : Nat → Bytes → Option Char × Bytes
  | 0, rest => (some (Char.ofNat value), rest)
  | _ + 1, [] => (none, [])
  | more + 1, b :: rest =>
    if 0x80 ≤ b ∧ b ≤ 0xBF then utf8Rest (64 * value + b.toNat % 64) more rest
    else (none, b :: rest)

/-- Reads one character, or nothing, from a byte string that is not empty. -/
def utf8Next (first : UInt8) (rest : Bytes) : Option Char × Bytes :=
  if first < 0x80 then (some (Char.ofNat first.toNat), rest)
  else
    match utf8Follow? first, rest with
    | some (low, high, more), second :: tail =>
      if low ≤ second ∧ second ≤ high then
        let lead := first.toNat % (if more = 0 then 32 else if more = 1 then 16 else 8)
        utf8Rest (64 * lead + second.toNat % 64) more tail
      else (none, rest)
    | _, _ => (none, rest)

theorem utf8Rest_length (value more : Nat) (bytes : Bytes) :
    (utf8Rest value more bytes).2.length ≤ bytes.length := by
  induction more generalizing value bytes with
  | zero => simp [utf8Rest]
  | succ more ih =>
    cases bytes with
    | nil => simp [utf8Rest]
    | cons b rest =>
      simp only [utf8Rest]
      split
      · exact Nat.le_trans (ih _ _) (by simp)
      · simp

theorem utf8Next_length (first : UInt8) (rest : Bytes) :
    (utf8Next first rest).2.length ≤ rest.length := by
  unfold utf8Next
  split
  · simp
  · split
    · split
      · exact Nat.le_trans (utf8Rest_length _ _ _) (by simp)
      · simp
    · simp

/-- The character that stands for bytes that are no text. -/
def replacementChar : Char := '\ufffd'

/-- The characters of a byte string, `none` where it is not well formed. -/
def utf8Decode : Bytes → List (Option Char)
  | [] => []
  | first :: rest =>
    (utf8Next first rest).1 :: utf8Decode (utf8Next first rest).2
termination_by bytes => bytes.length
decreasing_by
  have := utf8Next_length first rest
  simp; omega

/-- A byte string as text, with replacement characters where it is not well formed. -/
def Bytes.toText (bytes : Bytes) : String :=
  String.ofList ((utf8Decode bytes).map fun c => c.getD replacementChar)

/-- A byte string as text, if it is well formed. -/
def Bytes.toText? (bytes : Bytes) : Option String :=
  (utf8Decode bytes).mapM id |>.map String.ofList

end TlsTransport
