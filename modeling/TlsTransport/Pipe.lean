import TlsTransport.Socket
import TlsTransport.Status

/-! # In-memory pipes

Two wires, one for each direction, between a client's end and a server's end. A wire can limit how
much is written to it and how much one read takes from it.

* `Pipe.End`: one end of a pipe, which is a socket.
-/

namespace TlsTransport

/-- The bytes on their way in one direction. -/
structure Wire where
  bytes : Bytes
  closed : Bool
  /-- How many more bytes may be written; `none` for no limit. -/
  budget : Option Nat
  /-- The most bytes that one read takes; `none` for no limit. -/
  chunk : Option Nat

namespace Wire

/-- An open wire without limits. -/
def empty : Wire := ⟨[], false, none, none⟩

/-- Takes bytes off a wire. An empty one ends when it is closed, and else would block. -/
def read (w : Wire) (max : Nat) : Except IoError Bytes × Wire :=
  if w.bytes.isEmpty then
    (if w.closed then .ok [] else .error (.bare .wouldBlock), w)
  else
    let n := match w.chunk with
      | none => max
      | some c => Nat.min max (Nat.max c 1)
    (.ok (w.bytes.take n), { w with bytes := w.bytes.drop n })

/-- Puts bytes on a wire, as many as its budget admits. -/
def write (w : Wire) (bytes : Bytes) : Except IoError Nat × Wire :=
  if w.closed then (.error (.bare .brokenPipe), w)
  else
    match w.budget with
    | none => (.ok bytes.length, { w with bytes := w.bytes ++ bytes })
    | some b =>
      if b = 0 ∧ bytes ≠ [] then (.error (.bare .wouldBlock), w)
      else
        let part := bytes.take b
        (.ok part.length, { w with bytes := w.bytes ++ part, budget := some (b - part.length) })

/-- Changes one of the bytes on a wire, if it is there. -/
def tamper (w : Wire) (index : Nat) (mask : UInt8) : Wire :=
  { w with bytes := w.bytes.modify index fun b => b ^^^ mask }

end Wire

/-- Both wires, each named for the side that writes to it. -/
structure Pipe where
  fromClient : Wire
  fromServer : Wire

namespace Pipe

/-- A pipe with nothing in it. -/
def empty : Pipe := ⟨.empty, .empty⟩

/-- The wire that a side writes to. -/
def outgoing (p : Pipe) : Side → Wire
  | .client => p.fromClient
  | .server => p.fromServer

/-- The wire that a side reads from. -/
def incoming (p : Pipe) (side : Side) : Wire := p.outgoing side.other

/-- Replaces the wire that a side writes to. -/
def setOutgoing (p : Pipe) (side : Side) (w : Wire) : Pipe :=
  match side with
  | .client => { p with fromClient := w }
  | .server => { p with fromServer := w }

/-- Replaces the wire that a side reads from. -/
def setIncoming (p : Pipe) (side : Side) (w : Wire) : Pipe := p.setOutgoing side.other w

/-- One end of a pipe. -/
structure End where
  pipe : Pipe
  side : Side

namespace End

/-- Reads from the incoming wire. -/
def read (e : End) (max : Nat) : Except IoError Bytes × End :=
  let r := (e.pipe.incoming e.side).read max
  (r.1, { e with pipe := e.pipe.setIncoming e.side r.2 })

/-- Writes to the outgoing wire. -/
def write (e : End) (bytes : Bytes) : Except IoError Nat × End :=
  let r := (e.pipe.outgoing e.side).write bytes
  (r.1, { e with pipe := e.pipe.setOutgoing e.side r.2 })

/-- How much stands on the incoming wire. -/
def supply (e : End) : Nat := (e.pipe.incoming e.side).bytes.length

theorem supply_write (e : End) (bytes : Bytes) : (e.write bytes).2.supply = e.supply := by
  cases hs : e.side <;> simp [write, supply, incoming, outgoing, setOutgoing, Side.other, hs]

theorem supply_read (e : End) (n : Nat) :
    (e.read n).2.supply = ((e.pipe.incoming e.side).read n).2.bytes.length := by
  cases hs : e.side <;>
    simp [read, supply, incoming, outgoing, setIncoming, setOutgoing, Side.other, hs]

theorem not_interrupts_write (e : End) (bytes : Bytes) :
    WriteAnswer.interrupts (e.write bytes).1 = false := by
  simp only [write, Wire.write]
  split
  · rfl
  · split
    · rfl
    · split <;> rfl

theorem read_lt (w : Wire) (n : Nat) (h : ReadAnswer.progresses (w.read n).1 = true) :
    (w.read n).2.bytes.length < w.bytes.length := by
  unfold Wire.read at *
  split at h
  · split at h <;> simp [ReadAnswer.progresses, IoError.isInterruption, IoError.kind] at h
  · rename_i he
    rw [if_neg he]
    simp only [ReadAnswer.progresses, Bool.not_eq_true', List.isEmpty_eq_false_iff, ne_eq,
      List.take_eq_nil_iff, not_or] at h
    have := List.length_pos_iff.2 h.2
    simp only [List.length_drop]; omega

instance : Socket End where
  read := read
  write := write
  flush e := (.ok (), e)
  supply := supply
  supply_read_lt e n h := by rw [supply_read]; exact read_lt _ n h
  supply_write_le e bytes := Nat.le_of_eq (supply_write e bytes)
  supply_write_lt e bytes h := by simp [not_interrupts_write] at h

end End
end Pipe
end TlsTransport
