import TlsTransport.Classic.Reason
import TlsTransport.Pem

/-! # Sections as the classic provider reads them

Blanks at the end of a line do not count, long lines are read in pieces, and a section may open with
header fields, which end at an empty line.

* `Classic.Pem.next`: the first section of a text and what follows it.
-/

namespace TlsTransport.Classic.Pem

/-- The most bytes that are read as one line. -/
def maxPiece : Nat := 254

/-- A text in lines, each with its line feed; a longer line comes in pieces. -/
def pieces (piece : Bytes) (length : Nat) : Bytes → List Bytes
  | [] => if piece.isEmpty then [] else [piece.reverse]
  | b :: rest =>
    if b = 0x0a ∨ length + 1 = maxPiece then (b :: piece).reverse :: pieces [] 0 rest
    else pieces (b :: piece) (length + 1) rest

/-- A line without what ends it: blanks, control characters and bytes beyond ASCII. -/
def trimEnd (line : Bytes) : Bytes :=
  (line.reverse.dropWhile fun b => b ≤ 0x20 || 0x80 ≤ b).reverse

/-- A byte order mark, which may precede the first line that is looked at. -/
def byteOrderMark : Bytes := [0xef, 0xbb, 0xbf]

/-- A line without a byte order mark. -/
def dropMark (line : Bytes) : Bytes :=
  if byteOrderMark.isPrefixOf line ∧ 3 < line.length then line.drop 3 else line

/-- The label on a line that begins a section. -/
def beginLabel? (line : Bytes) : Option Bytes :=
  let line := trimEnd line
  if PemSection.beginMark.isPrefixOf line ∧ PemSection.dashes.isSuffixOf line then
    some ((line.drop PemSection.beginMark.length).dropLast.dropLast.dropLast.dropLast.dropLast)
  else none

/-- The first section that begins in a list of lines: its label and the lines after. -/
def seekFrom (first : Bool) : List Bytes → Option (Bytes × List Bytes)
  | [] => none
  | line :: rest =>
    match beginLabel? (if first then dropMark line else line) with
    | some label => some (label, rest)
    | none => seekFrom false rest

/-- Where the lines of a section stand: in what may be header fields or content already, in header
fields, or in content behind an empty line. -/
inductive Part where
  | start | header | content
  deriving DecidableEq

/-- The header fields and the content of a section, and the lines after it. The state holds what was
collected, whether the last line was cut, and whether a short line said that the content ends. -/
def readBody (label : Bytes) (part : Part) (header content : Bytes) (cut short : Bool) :
    List Bytes → Except Reason (Bytes × Bytes × List Bytes)
  | [] => .error .badEndLine
  | line :: rest =>
    let part := if part = .start ∧ line.contains 0x3a then .header else part
    let nowCut := line.length == maxPiece && line.getLast? != some 0x0a
    let text := trimEnd line
    if text.isEmpty then
      if cut then readBody label part header content nowCut short rest
      else if part = .content then .error .badEndLine
      else readBody label .content header content nowCut short rest
    else if PemSection.endMark.isPrefixOf text then
      if text == PemSection.endMark ++ label ++ PemSection.dashes then
        .ok (if part = .start then ([], header, rest) else (header, content, rest))
      else .error .badEndLine
    else if short then .error .badEndLine
    else
      let text := text ++ [0x0a]
      if part = .content then
        if 65 < text.length then .error .unnamed
        else readBody label part header (content ++ text) nowCut (text.length < 65) rest
      else readBody label part (header ++ text) content nowCut short rest

/-- Whether a list of lines is shorter than another. -/
theorem length_seekFrom {first : Bool} {ls rest : List Bytes} {label : Bytes}
    (h : seekFrom first ls = some (label, rest)) : rest.length < ls.length := by
  induction ls generalizing first with
  | nil => simp [seekFrom] at h
  | cons line ls ih =>
    simp only [seekFrom] at h
    split at h
    · simp only [Option.some.injEq, Prod.mk.injEq] at h
      simp [← h.2]
    · exact Nat.lt_trans (ih h) (by simp)

theorem length_readBody {label : Bytes} {part : Part} {header content : Bytes} {cut short : Bool}
    {ls : List Bytes} {h c : Bytes} {rest : List Bytes}
    (e : readBody label part header content cut short ls = .ok (h, c, rest)) :
    rest.length < ls.length := by
  induction ls generalizing part header content cut short with
  | nil => simp [readBody] at e
  | cons line ls ih =>
    simp only [readBody] at e
    repeat' split at e
    all_goals first
      | exact Nat.lt_trans (ih e) (by simp)
      | (simp only [Except.ok.injEq, Prod.mk.injEq] at e; simp [← e.2.2])
      | simp at e

/-- The first section of a list of lines: the section, its header fields and the lines after. -/
def next (ls : List Bytes) : Except Reason (Option (PemSection × Bytes × List Bytes)) :=
  match seekFrom true ls with
  | none => .ok none
  | some (label, rest) =>
    match readBody label .start [] [] false false rest with
    | .error reason => .error reason
    | .ok (header, content, rest) =>
      match Base64.decodeBlocks? content with
      | none => .error .badBase64
      | some [] => .error .unnamed
      | some body => .ok (some (⟨label, body⟩, header, rest))

theorem length_next {ls rest : List Bytes} {s : PemSection} {header : Bytes}
    (h : next ls = .ok (some (s, header, rest))) : rest.length < ls.length := by
  unfold next at h
  split at h
  · simp at h
  · rename_i hs
    split at h
    · simp at h
    · rename_i hb
      split at h <;>
        simp only [Except.ok.injEq, Option.some.injEq, Prod.mk.injEq, reduceCtorEq] at h
      rw [← h.2.2]
      exact Nat.lt_trans (length_readBody hb) (length_seekFrom hs)

/-- The sections of a list of lines up to the first fault, each with its header fields, and that
fault. -/
def sections (ls : List Bytes) : List (PemSection × Bytes) × Option Reason :=
  match _h : next ls with
  | .error reason => ([], some reason)
  | .ok none => ([], none)
  | .ok (some (s, header, rest)) =>
    let (more, fault) := sections rest
    ((s, header) :: more, fault)
termination_by ls.length
decreasing_by exact length_next ‹_›

/-- The sections of a text. -/
def read (text : Bytes) : List (PemSection × Bytes) × Option Reason := sections (pieces [] 0 text)

/-- The labels of certificates. -/
def isCertificate (s : PemSection) : Bool :=
  s.isLabelled "CERTIFICATE" || s.isLabelled "X509 CERTIFICATE"

end TlsTransport.Classic.Pem
