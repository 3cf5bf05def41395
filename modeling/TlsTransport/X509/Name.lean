import TlsTransport.Asn1
import TlsTransport.Text.Utf8

/-! # Names in certificates

A name is a list of attributes, each with an identifier and a text in one of several encodings.

* `Name.commonName?`: the last common name.
* `Name.sameAs`: whether two names denote the same holder, whatever their case and spacing.
-/

namespace TlsTransport

open Asn1

/-- One attribute of a name. -/
structure NameAttribute where
  id : Bytes
  value : Item

/-- The name of a holder or an issuer. -/
structure Name where
  attributes : List NameAttribute
  /-- The name as it stands. -/
  encoding : Bytes

namespace Name

/-! ## Texts -/

/-- The character of a number, if it is one. -/
def char? (n : Nat) : Option Char :=
  if n < 0xd800 ∨ (0xe000 ≤ n ∧ n < 0x110000) then some (Char.ofNat n) else none

/-- A text of two bytes to a character. -/
def wideText? : Bytes → Option (List Char)
  | [] => some []
  | a :: b :: rest => return (← char? (256 * a.toNat + b.toNat)) :: (← wideText? rest)
  | _ => none

/-- A text of four bytes to a character. -/
def universalText? : Bytes → Option (List Char)
  | [] => some []
  | a :: b :: c :: d :: rest =>
    return (← char? (Bytes.toNat [a, b, c, d])) :: (← universalText? rest)
  | _ => none

/-- A text of one byte to a character. -/
def narrowText (bytes : Bytes) : String := String.ofList (bytes.map fun b => Char.ofNat b.toNat)

/-- The tags of texts of one byte to a character: numeric, printable, teletex and IA5 texts and, in
other places, times and visible texts. -/
def narrowTags : List UInt8 := [0x12, 0x13, 0x14, 0x16, 0x17, 0x18, 0x1a]

/-- The text of a value. -/
def text? (value : Item) : Option String :=
  if value.tag = 0x0c then value.content.toText?
  else if value.tag = 0x1e then (wideText? value.content).map String.ofList
  else if value.tag = 0x1c then (universalText? value.content).map String.ofList
  else if narrowTags.contains value.tag then some (narrowText value.content)
  else none

/-- The tags of values that have to be well-formed texts. -/
def textTags : List UInt8 := [0x0c, 0x1e, 0x1c, 0x13, 0x14, 0x16]

/-- The other tags that the value of an attribute may bear. -/
def otherTags : List UInt8 :=
  [0x12, 0x03, 0x30, 0x07, 0x08, 0x09, 0x0b, 0x0d, 0x0e, 0x0f, 0x1d]

/-! ## Reading -/

/-- One attribute. -/
def readAttribute : Parser NameAttribute :=
  Parser.sequence do
    let id ← Parser.identifier
    let value ← Parser.any
    let rules ← read
    if rules = .relaxed then
      if textTags.contains value.tag then
        if (text? value).isNone then throw .badText
      else if !otherTags.contains value.tag then throw .wrongTag
    return ⟨id, value⟩

/-- A name: sets of attributes, in order. -/
def parser : Parser Name := do
  let item ← Parser.expect sequenceTag
  let sets ← Parser.within item.content <| Parser.many do
    Parser.within (← Parser.expect setTag).content (Parser.many readAttribute)
  return ⟨sets.flatten, item.encoding⟩

/-! ## Using names -/

/-- The identifier of a common name. -/
def commonNameId : Bytes := [0x55, 0x04, 0x03]

/-- The last common name. -/
def commonName? (n : Name) : Option String :=
  ((n.attributes.filter (·.id == commonNameId)).getLast?).bind (text? ·.value)

/-- Words with single spaces between them. -/
def collapse : List Char → List Char
  | ' ' :: ' ' :: rest => collapse (' ' :: rest)
  | ' ' :: [] => []
  | c :: rest => c :: collapse rest
  | [] => []

/-- A text with ASCII letters in lower case and one space between words. -/
def fold (text : String) : List Char :=
  collapse ((text.toList.map fun c =>
    if c.isWhitespace then ' ' else if c.toNat < 128 then c.toLower else c).dropWhile (· == ' '))

/-- Whether two attributes say the same. -/
def sameAttribute (a b : NameAttribute) : Bool :=
  a.id == b.id &&
    match text? a.value, text? b.value with
    | some x, some y => fold x == fold y
    | _, _ => a.value == b.value

/-- Whether two names denote the same holder. -/
def sameAs (a b : Name) : Bool :=
  a.attributes.length == b.attributes.length &&
    (a.attributes.zip b.attributes).all fun p => sameAttribute p.1 p.2

end Name
end TlsTransport
