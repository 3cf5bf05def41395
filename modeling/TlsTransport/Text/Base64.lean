import TlsTransport.Bytes

/-! # Base64

Six bits to a character, four characters to three bytes.

* `Base64.encode`: the padded form. `Base64.decode` reads it with padding and blanks as people write
  them, `Base64.decodeBlocks?` as whole blocks only.
-/

namespace TlsTransport.Base64

/-! ## Digits -/

/-- The digit of a number below 64. -/
def digit (n : Nat) : UInt8 :=
  if n < 26 then UInt8.ofNat (0x41 + n)
  else if n < 52 then UInt8.ofNat (0x61 + n - 26)
  else if n < 62 then UInt8.ofNat (0x30 + n - 52)
  else if n = 62 then 0x2b
  else 0x2f

/-- The value of a digit. -/
def value? (b : UInt8) : Option Nat :=
  if 0x41 ≤ b ∧ b ≤ 0x5a then some (b.toNat - 0x41)
  else if 0x61 ≤ b ∧ b ≤ 0x7a then some (b.toNat - 0x61 + 26)
  else if 0x30 ≤ b ∧ b ≤ 0x39 then some (b.toNat - 0x30 + 52)
  else if b = 0x2b then some 62
  else if b = 0x2f then some 63
  else none

/-- The padding character. -/
def pad : UInt8 := 0x3d

/-! ## Writing -/

/-- The digits of a byte string, padded to whole groups of four. -/
def encode : Bytes → Bytes
  | a :: b :: c :: rest =>
    let n := 65536 * a.toNat + 256 * b.toNat + c.toNat
    digit (n / 262144) :: digit (n / 4096 % 64) :: digit (n / 64 % 64) :: digit (n % 64) ::
      encode rest
  | [a, b] =>
    let n := 65536 * a.toNat + 256 * b.toNat
    [digit (n / 262144), digit (n / 4096 % 64), digit (n / 64 % 64), pad]
  | [a] =>
    let n := 65536 * a.toNat
    [digit (n / 262144), digit (n / 4096 % 64), pad, pad]
  | [] => []

/-! ## Reading -/

/-- The bytes of a list of digit values. Of an incomplete last group, what makes whole bytes. -/
def pack : List Nat → Bytes
  | a :: b :: c :: d :: rest =>
    let n := 262144 * a + 4096 * b + 64 * c + d
    UInt8.ofNat (n / 65536) :: UInt8.ofNat (n / 256 % 256) :: UInt8.ofNat (n % 256) :: pack rest
  | [a, b, c] =>
    let n := 262144 * a + 4096 * b + 64 * c
    [UInt8.ofNat (n / 65536), UInt8.ofNat (n / 256 % 256)]
  | [a, b] => [UInt8.ofNat (4 * a + b / 16)]
  | _ => []

/-- What is wrong with a text. -/
inductive Fault where
  | invalidCharacter (byte : UInt8)
  /-- A digit follows padding. -/
  | prematurePadding
  /-- The last group has too few digits, or not the padding that it needs. -/
  | invalidTrailingPadding
  deriving DecidableEq, Repr

/-- The name of a fault. -/
def Fault.render : Fault → String
  | invalidCharacter b => s!"InvalidCharacter({b.toNat})"
  | prematurePadding => "PrematurePadding"
  | invalidTrailingPadding => "InvalidTrailingPadding"

/-- Blanks between digits: tab, line feed, vertical tab, form feed, carriage return and space. -/
def isBlank (b : UInt8) : Bool := b = 0x20 || (0x09 ≤ b && b ≤ 0x0d)

/-- The digit values of a text without blanks and the number of padding characters, which all stand
at the end. -/
def scan (padding : Nat) : Bytes → Except Fault (List Nat × Nat)
  | [] => .ok ([], padding)
  | b :: rest =>
    if b = pad then scan (padding + 1) rest
    else
      match value? b with
      | none => .error (.invalidCharacter b)
      | some v =>
        if padding = 0 then (scan 0 rest).map fun r => (v :: r.1, r.2)
        else .error .prematurePadding

/-- Reads digits with blanks anywhere. Padding may be left out, but not in part. -/
def decode (text : Bytes) : Except Fault Bytes := do
  let (values, padding) ← scan 0 (text.filter (!isBlank ·))
  match values.length % 4, padding with
  | 0, 0 | 2, 0 | 2, 2 | 3, 0 | 3, 1 => .ok (pack values)
  | _, _ => .error .invalidTrailingPadding

/-- Reads whole groups of four digits, the last one padded. Blanks are skipped, and a dash ends the
text. -/
def decodeBlocks? (text : Bytes) : Option Bytes := do
  let digits := (text.takeWhile (· != 0x2d)).filter fun b =>
    !(b == 0x20 || b == 0x09 || b == 0x0a || b == 0x0d)
  let (values, padding) ← (scan 0 digits).toOption
  if padding ≤ 2 ∧ (values.length + padding) % 4 = 0 then some (pack values) else none

end TlsTransport.Base64
