import TlsTransport.Bytes
import TlsTransport.Digest.Sip

/-! # Records

What two engines exchange is cut into records: a kind, a version, the length of the body and the
body. Once keys are agreed on, records are protected: the body hides the kind of its content and
ends in a tag that shows every change.

* `Record.split?`: the first record of a byte string.
* `Record.protect`: a record that hides the kind of its content; `Record.unprotect?` reads it back.
-/

namespace TlsTransport

/-- A record. -/
structure Record where
  kind : UInt8
  body : Bytes
  deriving DecidableEq, Repr

namespace Record

/-! ## Kinds -/

def cipherChange : UInt8 := 20
def alert : UInt8 := 21
def handshake : UInt8 := 22
def data : UInt8 := 23
def heartbeat : UInt8 := 24

/-- The kinds that the protocol knows. -/
def isKnown (kind : UInt8) : Bool := cipherChange ≤ kind && kind ≤ heartbeat

/-! ## Framing -/

/-- Length of a header: kind, version and the length of the body. -/
def headerLength : Nat := 5

/-- The most bytes of content in one record. -/
def maxContent : Nat := 16384

/-- The longest body, with what protection may add. -/
def maxBody : Nat := maxContent + 2048

/-- A record as it is sent. -/
def encode (r : Record) : Bytes := r.kind :: 3 :: 3 :: Bytes.ofNat 2 r.body.length ++ r.body

/-- The first record of a byte string and what follows it; `none` while it is not all there. -/
def split? (bytes : Bytes) : Option (Record × Bytes) :=
  match bytes with
  | kind :: _ :: _ :: hi :: lo :: rest =>
    let n := Bytes.toNat [hi, lo]
    if rest.length < n then none else some (⟨kind, rest.take n⟩, rest.drop n)
  | _ => none

theorem length_split? {bytes rest : Bytes} {r : Record} (h : split? bytes = some (r, rest)) :
    rest.length < bytes.length := by
  unfold split? at h
  split at h
  · simp only [Option.ite_none_left_eq_some, Option.some.injEq, Prod.mk.injEq] at h
    rw [← h.2.2]
    simp only [List.length_drop, List.length_cons]
    omega
  · simp at h

/-- A byte string in pieces, none of them empty or longer than a record's content. -/
def fragments (bytes : Bytes) : List Bytes :=
  if _h : bytes = [] then []
  else bytes.take maxContent :: fragments (bytes.drop maxContent)
termination_by bytes.length
decreasing_by
  have := List.length_pos_iff.mpr ‹_›
  simp only [maxContent, List.length_drop]
  omega

/-- Bytes as records of one kind. -/
def encodeAll (kind : UInt8) (bytes : Bytes) : Bytes :=
  (fragments bytes).flatMap fun piece => encode ⟨kind, piece⟩

/-! ## Protection -/

/-- Length of the tag of a protected body. -/
def tagLength : Nat := 16

/-- The tag of a content. -/
def tag (content : Bytes) : Bytes :=
  List.replicate 8 0 ++ Bytes.ofNat 8 (Digest.sip content).toNat

/-- A protected record: its content, the kind of the content and the tag. -/
def protect (kind : UInt8) (content : Bytes) : Record :=
  let inner := content ++ [kind]
  ⟨data, inner ++ tag inner⟩

/-- The kind and the content of a protected record, if nothing was changed. -/
def unprotect? (r : Record) : Option (UInt8 × Bytes) :=
  let inner := r.body.take (r.body.length - tagLength)
  match inner.reverse with
  | kind :: content =>
    if r.kind = data ∧ r.body.drop (r.body.length - tagLength) = tag inner then
      some (kind, content.reverse)
    else none
  | [] => none

/-- Bytes as protected records. -/
def protectAll (kind : UInt8) (bytes : Bytes) : Bytes :=
  (fragments bytes).flatMap fun piece => (protect kind piece).encode

end Record
end TlsTransport
