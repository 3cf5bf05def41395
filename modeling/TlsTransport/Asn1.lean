import TlsTransport.Bytes

/-! # Tagged values

The encoding of certificates and keys: each value has an identifier byte, a length and its content.

* `Asn1.readItem`: one value from the front of a byte string.
* `Asn1.Parser`: reads the fields of a sequence; `Asn1.Parser.run` reads a whole value.
-/

namespace TlsTransport.Asn1

/-- What is wrong with an encoding. -/
inductive Fault where
  | tooSmall | headerTooLong | tooLong | badHeader | wrongTag | fieldMissing | unexpectedEnd
  | lengthMismatch | notConstructed | emptyNumber | paddedNumber | badBits | badIdentifier
  | badTime | badText | badValue
  deriving DecidableEq, Repr

/-- How strictly lengths are read: in one form only, or also in longer ones. -/
inductive Rules where
  | canonical | relaxed
  deriving DecidableEq, Repr

/-- One value. -/
structure Item where
  tag : UInt8
  content : Bytes
  /-- The whole value as it stands. -/
  encoding : Bytes
  deriving DecidableEq, Repr

/-! ## Single values -/

/-- Whether a length is written in the one way that the canonical form admits. -/
def isCanonicalLength (first : UInt8) (digits : Bytes) (length : Nat) : Bool :=
  if first < 0x80 then true
  else digits.length ≤ 4 && digits.head? != some 0 && 0x80 ≤ length

/-- The length of a content and the number of bytes it is written in, from its first byte and what
follows. Indefinite lengths are refused. -/
def readLength (rules : Rules) (first : UInt8) (rest : Bytes) : Except Fault (Nat × Nat) :=
  if first < 0x80 then .ok (first.toNat, 1)
  else
    let count := first.toNat - 0x80
    let digits := rest.take count
    if count = 0 ∨ digits.length < count then .error .headerTooLong
    else
      let length := Bytes.toNat digits
      if rules = .canonical ∧ isCanonicalLength first digits length = false then .error .badHeader
      else if 8 < (digits.dropWhile (· == 0)).length then .error .headerTooLong
      else .ok (length, count + 1)

/-- Reads one value from the front. Identifiers of more than one byte are refused. -/
def readItem (rules : Rules) : Bytes → Except Fault (Item × Bytes)
  | [] => .error .tooSmall
  | [_] => .error .headerTooLong
  | tag :: first :: rest =>
    if tag.toNat % 32 = 31 then .error .headerTooLong
    else do
      let (length, used) ← readLength rules first rest
      let body := rest.drop (used - 1)
      if body.length < length then .error .tooLong
      else .ok (⟨tag, body.take length, (tag :: first :: rest).take (1 + used + length)⟩,
        body.drop length)

/-! ## Tags -/

def booleanTag : UInt8 := 0x01
def integerTag : UInt8 := 0x02
def bitStringTag : UInt8 := 0x03
def octetStringTag : UInt8 := 0x04
def nullTag : UInt8 := 0x05
def identifierTag : UInt8 := 0x06
def utcTimeTag : UInt8 := 0x17
def generalizedTimeTag : UInt8 := 0x18
def sequenceTag : UInt8 := 0x30
def setTag : UInt8 := 0x31

/-- The tag of a primitive field that is told by its number. -/
def contextTag (n : Nat) : UInt8 := UInt8.ofNat (0x80 + n)

/-- The tag of a constructed field that is told by its number. -/
def fieldTag (n : Nat) : UInt8 := UInt8.ofNat (0xa0 + n)

/-! ## Fields -/

/-- Reads fields from the front of what is left of a sequence. -/
abbrev Parser (α : Type) := ReaderT Rules (StateT Bytes (Except Fault)) α

namespace Parser

/-- Runs a parser on a byte string of its own, all of which it has to use. -/
def within {α : Type} (content : Bytes) (p : Parser α) : Parser α := do
  let rules ← read
  match (p.run rules).run content with
  | .error fault => throw fault
  | .ok (a, []) => return a
  | .ok (_, _) => throw .lengthMismatch

/-- Whether anything is left. -/
def atEnd : Parser Bool := return (← get).isEmpty

/-- The next field, whatever it is. -/
def any : Parser Item := do
  match ← get with
  | [] => throw .fieldMissing
  | 0 :: 0 :: _ => throw .unexpectedEnd
  | rest =>
    let (item, rest) ← readItem (← read) rest
    set rest
    return item

/-- The next field, which has to bear a tag. -/
def expect (tag : UInt8) : Parser Item := do
  let item ← any
  if item.tag = tag then return item
  else throw (if item.tag = tag - 0x20 ∧ 0x20 ≤ tag then .notConstructed else .wrongTag)

/-- The next field, if it bears a tag. -/
def optional (tag : UInt8) : Parser (Option Item) := do
  let rest ← get
  if rest.isEmpty then return none
  let item ← any
  if item.tag = tag then return some item
  set rest
  return none

/-- A sequence with given fields. -/
def sequence {α : Type} (fields : Parser α) : Parser α := do
  within (← expect sequenceTag).content fields

/-- A field wrapped in one that is told by its number. -/
def explicit? {α : Type} (n : Nat) (p : Parser α) : Parser (Option α) := do
  match ← optional (fieldTag n) with
  | none => return none
  | some item => return some (← within item.content p)

/-- Repeats a parser until nothing is left, at most so many times. -/
def repeatFor {α : Type} (p : Parser α) : Nat → Parser (List α)
  | 0 => return []
  | n + 1 => do
    if ← atEnd then return []
    return (← p) :: (← repeatFor p n)

/-- Repeats a parser until nothing is left. Every field is two bytes long at least. -/
def many {α : Type} (p : Parser α) : Parser (List α) := do
  repeatFor p (← get).length

/-- Everything that is left. -/
def rest : Parser Bytes := do
  let left ← get
  set ([] : Bytes)
  return left

/-! ## Values -/

/-- Whether the content of a number is in its shortest form. -/
def isShortest : Bytes → Bool
  | a :: b :: _ => !((a == 0 && b < 0x80) || (a == 0xff && 0x80 ≤ b))
  | _ => true

/-- The content of a whole number. -/
def integerBytes : Parser Bytes := do
  let item ← expect integerTag
  if item.content.isEmpty then throw .emptyNumber
  else if isShortest item.content then return item.content
  else throw .paddedNumber

/-- A whole number that is not negative. -/
def natural : Parser Nat := do
  let content ← integerBytes
  match content with
  | b :: _ => if b < 0x80 then return content.toNat else throw .badValue
  | [] => throw .emptyNumber

/-- The bytes of a bit string of whole bytes. -/
def bitString : Parser Bytes := do
  match (← expect bitStringTag).content with
  | unused :: bytes => if 8 ≤ unused then throw .badBits else return bytes
  | [] => throw .badBits

/-- The content of a byte string. -/
def octetString : Parser Bytes := return (← expect octetStringTag).content

/-- Whether the content of an identifier is well formed: it ends a number, and no number starts
with an empty digit. -/
def isIdentifier (content : Bytes) : Bool :=
  content.getLast?.any (· < 0x80) &&
    (List.zip (0 :: content) content).all fun (before, b) => !(before < 0x80 && b == 0x80)

/-- The content of an identifier. -/
def identifier : Parser Bytes := do
  let item ← expect identifierTag
  if isIdentifier item.content then return item.content else throw .badIdentifier

/-- Reads one value from the front of a byte string; answers it and what follows. Two zeros, which
elsewhere end a list of fields, are a value of another kind here. -/
def run {α : Type} (rules : Rules) (bytes : Bytes) (p : Parser α) : Except Fault (α × Bytes) :=
  match bytes with
  | [] => .error .tooSmall
  | 0 :: 0 :: _ => .error .wrongTag
  | bytes => (ReaderT.run p rules).run bytes

/-- Reads a byte string that is one value. -/
def parse? {α : Type} (rules : Rules) (bytes : Bytes) (p : Parser α) : Option α :=
  match run rules bytes p with
  | .ok (a, []) => some a
  | _ => none

end Parser

/-! ## Writing -/

/-- The length of a content, in the shortest form. -/
def writeLength (n : Nat) : Bytes :=
  if n < 0x80 then [UInt8.ofNat n]
  else
    let digits := (Bytes.ofNat 8 n).dropWhile (· == 0)
    UInt8.ofNat (0x80 + digits.length) :: digits

/-- A value with its tag and length. -/
def write (tag : UInt8) (content : Bytes) : Bytes := tag :: writeLength content.length ++ content

/-- A sequence of encoded fields. -/
def writeSequence (fields : List Bytes) : Bytes := write sequenceTag fields.flatten

end TlsTransport.Asn1
