/-! # Byte strings

`Bytes` is the type of everything that crosses a wire or is read from a file. Beside it stand the
two written forms that the library needs: hexadecimal digits (`Bytes.toHex`, `Bytes.ofHex?`) and
big-endian numbers (`Bytes.toNat`, `Bytes.ofNat`).

* `Bytes.ofHexDigits?_hexDigits`: what was written in hexadecimal digits is read back.
-/

namespace TlsTransport

/-- A byte string. -/
abbrev Bytes := List UInt8

/-! ## Hexadecimal digits -/

/-- The digit of a number below sixteen, in lower case. -/
def hexDigit (n : Nat) : Char :=
  if n < 10 then Char.ofNat (48 + n) else Char.ofNat (87 + n)

/-- The value of a hexadecimal digit of either case. -/
def hexValue? (c : Char) : Option Nat :=
  if '0' ≤ c ∧ c ≤ '9' then some (c.toNat - 48)
  else if 'a' ≤ c ∧ c ≤ 'f' then some (c.toNat - 87)
  else if 'A' ≤ c ∧ c ≤ 'F' then some (c.toNat - 55)
  else none

theorem hexValue?_hexDigit {n : Nat} (h : n < 16) : hexValue? (hexDigit n) = some n := by
  revert n
  decide

namespace Bytes

/-- The hexadecimal digits of a byte string, two to a byte. -/
def hexDigits : Bytes → List Char
  | [] => []
  | b :: rest => hexDigit (b.toNat / 16) :: hexDigit (b.toNat % 16) :: hexDigits rest

/-- Reads pairs of hexadecimal digits; an odd digit or any other character is refused. -/
def ofHexDigits? : List Char → Option Bytes
  | [] => some []
  | [_] => none
  | a :: b :: rest => do
      let hi ← hexValue? a
      let lo ← hexValue? b
      let tail ← ofHexDigits? rest
      return UInt8.ofNat (16 * hi + lo) :: tail

/-- A byte string in lower-case hexadecimal. -/
def toHex (bytes : Bytes) : String := String.ofList bytes.hexDigits

/-- Reads hexadecimal text of either case. -/
def ofHex? (text : String) : Option Bytes := ofHexDigits? text.toList

theorem ofHexDigits?_hexDigits (bytes : Bytes) : ofHexDigits? bytes.hexDigits = some bytes := by
  induction bytes with
  | nil => rfl
  | cons b rest ih =>
    have hb : b.toNat < 256 := b.toNat_lt
    have hhi : hexValue? (hexDigit (b.toNat / 16)) = some (b.toNat / 16) :=
      hexValue?_hexDigit (by omega)
    have hlo : hexValue? (hexDigit (b.toNat % 16)) = some (b.toNat % 16) :=
      hexValue?_hexDigit (by omega)
    have hsum : UInt8.ofNat (16 * (b.toNat / 16) + b.toNat % 16) = b := by
      rw [Nat.div_add_mod]; exact UInt8.ofNat_toNat
    simp only [hexDigits, ofHexDigits?, hhi, hlo, ih, Option.bind_eq_bind, Option.bind_some, hsum]
    rfl

theorem length_hexDigits (bytes : Bytes) : bytes.hexDigits.length = 2 * bytes.length := by
  induction bytes with
  | nil => rfl
  | cons b rest ih => simp [hexDigits, ih]; omega

/-! ## Big-endian numbers -/

/-- The number written by a byte string, most significant byte first. -/
def toNat (bytes : Bytes) : Nat := bytes.foldl (fun n b => 256 * n + b.toNat) 0

/-- The last `width` base-256 digits of a number, most significant first. -/
def ofNat (width n : Nat) : Bytes :=
  (List.range width).reverse.map fun i => UInt8.ofNat (n / Nat.pow 256 i)

/-- The bytes of a text in UTF-8. -/
def ofString (text : String) : Bytes := text.toUTF8.toList

/-- Exclusive or, byte by byte, as far as the shorter of the two. -/
def xor (a b : Bytes) : Bytes := List.zipWith (fun x y : UInt8 => x ^^^ y) a b

end Bytes
end TlsTransport
