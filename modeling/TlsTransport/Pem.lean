import TlsTransport.Text.Base64

/-! # Labelled sections of text

A section is a byte string in base64 between a line that begins it and one that ends it, both of
which bear its label.

* `PemSection.encode`: the form in which sections are written.
-/

namespace TlsTransport

/-- A labelled byte string. -/
structure PemSection where
  label : Bytes
  body : Bytes
  deriving DecidableEq, Repr

namespace PemSection

/-- What a line that begins a section starts with. -/
def beginMark : Bytes := Bytes.ofString "-----BEGIN "

/-- What a line that ends a section starts with. -/
def endMark : Bytes := Bytes.ofString "-----END "

/-- What follows a label. -/
def dashes : Bytes := Bytes.ofString "-----"

/-- Cuts a text into lines of a length, each with its line feed. -/
def wrap (width : Nat) (text : Bytes) : Bytes :=
  if h : text.isEmpty ∨ width = 0 then []
  else text.take width ++ [0x0a] ++ wrap width (text.drop width)
termination_by text.length
decreasing_by
  simp only [List.isEmpty_iff, not_or] at h
  have := List.length_pos_iff.2 h.1
  simp only [List.length_drop]; omega

/-- A section in lines of 64 characters. -/
def encode (s : PemSection) : Bytes :=
  beginMark ++ s.label ++ dashes ++ [0x0a] ++ wrap 64 (Base64.encode s.body) ++
    endMark ++ s.label ++ dashes ++ [0x0a]

/-- Whether a section bears a label. -/
def isLabelled (s : PemSection) (label : String) : Bool := s.label == Bytes.ofString label

end PemSection
end TlsTransport
