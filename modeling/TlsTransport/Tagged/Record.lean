import TlsTransport.Buffer

/-! # Tagged records

The records of a small protocol that has all that a session can meet and no cryptography: a kind, a
length in two bytes, a payload, and a tag byte that depends on all of them.

* `Record.encode`: a record as bytes.
* `Record.take?`: the record at the front of a buffer, once it is complete.
* `Record.take?_size`: taking a record makes the buffer smaller.
-/

namespace TlsTransport.Tagged

/-- A record: its kind and its payload. -/
structure Record where
  kind : UInt8
  payload : Bytes
  deriving DecidableEq, Repr

/-! ## Kinds -/

/-- Opens a handshake. -/
def hello : UInt8 := 1

/-- Answers the opening. -/
def helloDone : UInt8 := 2

/-- Ends a handshake. -/
def finished : UInt8 := 3

/-- Carries data. -/
def data : UInt8 := 4

/-- Says that no more data follows. -/
def close : UInt8 := 5

/-- Asks for a new handshake. -/
def helloRequest : UInt8 := 6

namespace Record

/-- Turns a byte to the left by one bit. -/
def turn (b : UInt8) : UInt8 := (b <<< 1) ||| (b >>> 7)

/-- The tag of a record. -/
def tag (r : Record) : UInt8 :=
  r.payload.foldl (fun acc b => turn acc ^^^ b) (r.kind + UInt8.ofNat r.payload.length) ^^^ 0xa5

/-- A record as bytes. -/
def encode (r : Record) : Bytes :=
  r.kind :: Bytes.ofNat 2 r.payload.length ++ r.payload ++ [r.tag]

/-- How many bytes a record has besides its payload. -/
def overhead : Nat := 4

/-- Takes the record at the front of a buffer; `none` while it is incomplete. A record with a wrong
tag stays in place. -/
def take? (b : Buffer) : Except Unit (Option (Record × Buffer)) :=
  match b.data with
  | kind :: hi :: lo :: rest =>
    let length := 256 * hi.toNat + lo.toNat
    match rest.drop length with
    | [] => .ok none
    | tag :: _ =>
      let r : Record := ⟨kind, rest.take length⟩
      if tag = r.tag then .ok (some (r, b.drop (length + overhead))) else .error ()
  | _ => .ok none

theorem take?_size {b b' : Buffer} {r : Record} (h : take? b = .ok (some (r, b'))) :
    b'.size < b.size := by
  unfold take? at h
  split at h
  · rename_i kind hi lo rest hd
    simp only at h
    split at h
    · simp at h
    · split at h
      · simp only [Except.ok.injEq, Option.some.injEq, Prod.mk.injEq] at h
        rw [← h.2]
        simp only [Buffer.size, Buffer.data_drop, List.length_drop, hd, List.length_cons, overhead]
        omega
      · simp at h
  · simp at h

end Record
end TlsTransport.Tagged
