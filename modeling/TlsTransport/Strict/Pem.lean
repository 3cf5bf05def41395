import TlsTransport.Pem
import TlsTransport.Text.Character
import TlsTransport.Text.Utf8

/-! # Sections as the strict provider reads them

Outside a section only a line that begins one counts. Inside one, every line up to the end is
base64; a line that begins another section changes the label and keeps what was collected.

* `Strict.Pem.read`: the sections of a text up to the first fault.
-/

namespace TlsTransport.Strict.Pem

/-- What is wrong with a text. -/
inductive Fault where
  | illegalStart (line : Bytes)
  | missingEnd (label : Bytes)
  | base64 (fault : Base64.Fault)
  deriving DecidableEq, Repr

/-- The text of a fault. -/
def Fault.message : Fault → String
  | illegalStart line => s!"illegal section start: {quoted line.toText}"
  | missingEnd label => s!"section end {quoted label.toText} missing"
  | base64 fault => fault.render

/-- The lines of a text, each with the line feed or carriage return that ends it. -/
def lines (line : Bytes) : Bytes → List Bytes
  | [] => if line.isEmpty then [] else [line.reverse]
  | b :: rest =>
    if b = 0x0a ∨ b = 0x0d then (b :: line).reverse :: lines [] rest else lines (b :: line) rest

/-- Counts dashes from the end of a line, over blanks, up to anything else: how many there are and
how far the first of them is from the end. -/
def trailer (seen dashes first : Nat) : Bytes → Nat × Nat
  | [] => (dashes, first)
  | b :: rest =>
    if b = 0x2d then trailer (seen + 1) (dashes + 1) (seen + 1) rest
    else if b = 0x0a ∨ b = 0x0d ∨ b = 0x20 then trailer (seen + 1) dashes first rest
    else (dashes, first)

/-- The label on a line that begins a section. -/
def beginLabel? (line : Bytes) : Except Fault Bytes :=
  let (dashes, first) := trailer 0 0 0 line.reverse
  if dashes = 5 then
    .ok ((line.take (line.length - first)).drop PemSection.beginMark.length)
  else .error (.illegalStart line)

/-- The labels of sections that are decoded; others are skipped over. -/
def knownLabels : List String :=
  ["CERTIFICATE", "PUBLIC KEY", "RSA PRIVATE KEY", "PRIVATE KEY", "EC PRIVATE KEY", "X509 CRL",
   "CERTIFICATE REQUEST", "ECHCONFIG"]

/-- Whether a section with a label is decoded. -/
def isKnown (label : Bytes) : Bool := knownLabels.any fun l => Bytes.ofString l == label

/-- The sections in a list of lines and the fault that ends them, if any. The state is the label of
the section that is open and what was collected for it. -/
def readLines (state : Option Bytes) (text : Bytes) :
    List Bytes → List PemSection × Option Fault
  | [] => ([], state.map .missingEnd)
  | line :: rest =>
    if PemSection.beginMark.isPrefixOf line then
      match beginLabel? line with
      | .ok label => readLines (some label) text rest
      | .error fault => ([], some fault)
    else
      match state with
      | none => readLines none text rest
      | some label =>
        if (PemSection.endMark ++ label ++ PemSection.dashes).isPrefixOf line then
          if isKnown label then
            match Base64.decode text with
            | .ok body =>
              let (sections, fault) := readLines none [] rest
              (⟨label, body⟩ :: sections, fault)
            | .error fault => ([], some (.base64 fault))
          else readLines none [] rest
        else readLines state (text ++ line) rest

/-- The sections of a text up to the first fault, and that fault. -/
def read (text : Bytes) : List PemSection × Option Fault := readLines none [] (lines [] text)

/-- The certificates in a text. -/
def certificates (text : Bytes) : Except Fault (List Bytes) :=
  match read text with
  | (_, some fault) => .error fault
  | (sections, none) =>
    .ok ((sections.filter (·.isLabelled "CERTIFICATE")).map PemSection.body)

/-- The labels of private keys. -/
def keyLabels : List String := ["RSA PRIVATE KEY", "PRIVATE KEY", "EC PRIVATE KEY"]

/-- The first private key in a text. What follows it does not matter. -/
def privateKey? (text : Bytes) : Except Fault (Option PemSection) :=
  let (sections, fault) := read text
  match sections.find? fun s => keyLabels.any s.isLabelled, fault with
  | some key, _ => .ok (some key)
  | none, some fault => .error fault
  | none, none => .ok none

end TlsTransport.Strict.Pem
