import TlsTransport.X509.Name

/-! # Certificates

What a certificate says and how it is signed.

* `X509.parser`: reads one.
* `X509.altNames?`: the alternative names of its holder.
-/

namespace TlsTransport

open Asn1

/-! ## Moments -/

/-- A point in time, as the number whose digits are year, month, day, hour, minute and second. -/
abbrev Moment := Nat

/-- Two digits. -/
def twoDigits? : Bytes → Option (Nat × Bytes)
  | a :: b :: rest =>
    if 0x30 ≤ a ∧ a ≤ 0x39 ∧ 0x30 ≤ b ∧ b ≤ 0x39 then
      some (10 * (a.toNat - 0x30) + (b.toNat - 0x30), rest)
    else none
  | _ => none

/-- Pairs of digits up to the letter that stands for universal time. -/
def digitPairs? : Nat → Bytes → Option (List Nat)
  | 0, [0x5a] => some []
  | n + 1, text => do
    let (pair, rest) ← twoDigits? text
    return pair :: (← digitPairs? n rest)
  | _, _ => none

/-- The moment written in a value: with two digits for the year, of which those from 50 belong to
the last century, or with four. -/
def moment? (value : Item) : Option Moment := do
  let pairs ←
    if value.tag = utcTimeTag then
      match ← digitPairs? 6 value.content with
      | year :: rest => some ((if year < 50 then 20 else 19) :: year :: rest)
      | [] => none
    else if value.tag = generalizedTimeTag then digitPairs? 7 value.content
    else none
  match pairs with
  | [_, _, month, day, hour, minute, second] =>
    if 1 ≤ month ∧ month ≤ 12 ∧ 1 ≤ day ∧ day ≤ 31 ∧ hour ≤ 23 ∧ minute ≤ 59 ∧ second ≤ 59 then
      some (pairs.foldl (fun n p => 100 * n + p) 0)
    else none
  | _ => none

/-! ## Certificates -/

/-- An algorithm: its identifier and what follows it. -/
structure Algorithm where
  id : Bytes
  parameters : Bytes
  deriving DecidableEq, Repr

/-- A public key and its algorithm. -/
structure PublicKeyInfo where
  algorithm : Algorithm
  key : Bytes
  /-- The whole as it stands. -/
  encoding : Bytes
  deriving DecidableEq, Repr

/-- An extension of a certificate. -/
structure Extension where
  id : Bytes
  critical : Bool
  value : Bytes
  deriving DecidableEq, Repr

/-- A certificate. -/
structure X509 where
  /-- Zero for the first version. -/
  version : Nat
  issuer : Name
  notBefore : Item
  notAfter : Item
  subject : Name
  key : PublicKeyInfo
  extensions : List Extension
  /-- What is signed. -/
  signed : Bytes
  innerAlgorithm : Algorithm
  signatureAlgorithm : Algorithm
  signature : Bytes
  /-- The certificate as it stands. -/
  encoding : Bytes

namespace X509

/-- An algorithm with its parameters. -/
def algorithm : Parser Algorithm :=
  Parser.sequence do
    let id ← Parser.identifier
    return ⟨id, ← Parser.rest⟩

/-- A public key. -/
def publicKey : Parser PublicKeyInfo := do
  let item ← Parser.expect sequenceTag
  Parser.within item.content do
    let a ← algorithm
    return ⟨a, ← Parser.bitString, item.encoding⟩

/-- The value of a truth value. -/
def truth (item : Item) : Parser Bool :=
  match item.content with
  | [b] => return b != 0
  | _ => throw .badValue

/-- An extension; it is not critical unless it says so. -/
def extension : Parser Extension :=
  Parser.sequence do
    let id ← Parser.identifier
    let critical ← match ← Parser.optional booleanTag with
      | none => pure false
      | some item => truth item
    return ⟨id, critical, ← Parser.octetString⟩

/-- The list of extensions, which is the last field and may be absent. -/
def extensionList : Parser (List Extension) := do
  if ← Parser.atEnd then return []
  let field ← Parser.expect (fieldTag 3)
  Parser.within field.content (Parser.sequence (Parser.many extension))

/-- A point in time. -/
def time : Parser Item := do
  let item ← Parser.any
  if item.tag = utcTimeTag ∨ item.tag = generalizedTimeTag then return item else throw .wrongTag

/-- A certificate. -/
def parser : Parser X509 := do
  let whole ← Parser.expect sequenceTag
  Parser.within whole.content do
    let signed ← Parser.expect sequenceTag
    let body ← Parser.within signed.content do
      let version ← Parser.explicit? 0 Parser.natural
      let _ ← Parser.integerBytes
      let inner ← algorithm
      let issuer ← Name.parser
      let (notBefore, notAfter) ← Parser.sequence do return (← time, ← time)
      let subject ← Name.parser
      let key ← publicKey
      let _ ← Parser.optional (contextTag 1)
      let _ ← Parser.optional (contextTag 2)
      let extensions ← extensionList
      return { version := version.getD 0, issuer, notBefore, notAfter, subject, key, extensions
               signed := signed.encoding, innerAlgorithm := inner, signatureAlgorithm := inner
               signature := [], encoding := whole.encoding : X509 }
    let outer ← algorithm
    return { body with signatureAlgorithm := outer, signature := ← Parser.bitString }

/-! ## Extensions -/

/-- The identifier of a standard extension. -/
def extensionId (n : UInt8) : Bytes := [0x55, 0x1d, n]

/-- The one extension of a kind. -/
def extension? (c : X509) (id : Bytes) : Option Extension :=
  match c.extensions.filter (·.id == id) with
  | [e] => some e
  | _ => none

/-- Another name of a holder. -/
inductive AltName where
  | dns (text : Bytes)
  | address (octets : Bytes)
  | uri (text : Bytes)
  | directory
  /-- A kind that is not looked at. -/
  | other (tag : UInt8)
  deriving DecidableEq, Repr

/-- The kind of a name by its tag. -/
def AltName.ofItem? (item : Item) : Option AltName :=
  if item.tag = contextTag 2 then some (.dns item.content)
  else if item.tag = contextTag 7 then some (.address item.content)
  else if item.tag = contextTag 6 then some (.uri item.content)
  else if item.tag = fieldTag 4 then some .directory
  else if item.tag = contextTag 1 ∨ item.tag = contextTag 8 ∨ item.tag = fieldTag 0 ∨
      item.tag = fieldTag 3 ∨ item.tag = fieldTag 5 then some (.other item.tag)
  else none

/-- The names in the value of the extension for them. -/
def readAltNames (rules : Rules) (value : Bytes) : Except Fault (List AltName) := do
  let (items, _) ← Parser.run rules value (Parser.sequence (Parser.many Parser.any))
  items.mapM fun item => match AltName.ofItem? item with
    | some name => .ok name
    | none => .error .wrongTag

/-- The alternative names of a holder; `none` when there are none or they cannot be read. -/
def altNames? (c : X509) : Option (List AltName) :=
  (c.extension? (extensionId 17)).bind fun e => (readAltNames .relaxed e.value).toOption

end X509
end TlsTransport
