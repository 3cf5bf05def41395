import TlsTransport.Buffer
import TlsTransport.Socket

/-! # Moving bytes between buffers and sockets

The two loops through which all bytes pass. Both repeat interrupted calls; neither waits.

* `Buffer.fillFrom`: one read into the free region of a buffer.
* `fill`: the same, repeated while it is interrupted.
* `drain`: writes a buffer out until it is empty or the socket takes no more.
* `supply_fill_lt`, `supply_drain_le`: what the loops leave of a socket's supply.
-/

namespace TlsTransport

variable {ω : Type} [Socket ω]

/-! ## Reading -/

/-- What a read into a buffer leaves. -/
structure Filling (ω : Type) where
  answer : Except IoError Bytes
  buffer : Buffer
  socket : ω
  /-- The calls that were made, in order. -/
  calls : List SocketCall

/-- Reads at most `max` bytes into the free region, which is grown to that size first. -/
def Buffer.fillFrom (b : Buffer) (k : ω) (max : Nat) : Filling ω :=
  let r := Socket.read k max
  let b := b.reserve max
  { answer := r.1
    buffer := match r.1 with
      | .ok bytes => b.append bytes
      | .error _ => b
    socket := r.2
    calls := [.read max r.1] }

/-- Whether a read was interrupted. -/
def Filling.isInterrupted (r : Filling ω) : Bool :=
  match r.answer with
  | .ok _ => false
  | .error e => e.isInterruption

theorem supply_fillFrom_lt (b : Buffer) (k : ω) (max : Nat)
    (h : (b.fillFrom k max).isInterrupted = true) :
    Socket.supply (b.fillFrom k max).socket < Socket.supply k := by
  apply Socket.supply_read_lt
  simp only [Filling.isInterrupted, Buffer.fillFrom] at h
  cases hr : (Socket.read k max).1 <;> simp_all [ReadAnswer.progresses]

/-- Reads once into a buffer, not counting interrupted calls. -/
def fill (b : Buffer) (k : ω) (max : Nat) : Filling ω :=
  let r := b.fillFrom k max
  if r.isInterrupted then
    let rest := fill r.buffer r.socket max
    { rest with calls := r.calls ++ rest.calls }
  else r
termination_by Socket.supply k
decreasing_by exact supply_fillFrom_lt b k max ‹_›

theorem supply_fill_lt (b : Buffer) (k : ω) (max : Nat) {bytes : Bytes}
    (ha : (fill b k max).answer = .ok bytes) (hne : bytes ≠ []) :
    Socket.supply (fill b k max).socket < Socket.supply k := by
  fun_induction fill b k max with
  | case1 b k r h _ ih => exact Nat.lt_trans (ih ha) (supply_fillFrom_lt b k max h)
  | case2 b k =>
    apply Socket.supply_read_lt
    have hr : (Socket.read k max).1 = .ok bytes := ha
    simpa [hr, ReadAnswer.progresses] using hne

/-! ## Writing -/

/-- What writing out a buffer leaves. -/
structure Draining (ω : Type) where
  /-- Whether all of it was taken; `false` when the socket takes no more. -/
  answer : Except IoError Bool
  buffer : Buffer
  socket : ω
  /-- The calls that were made, in order. -/
  calls : List SocketCall

/-- Writes a buffer out. Taking nothing without saying why is an error. -/
def drain (b : Buffer) (k : ω) : Draining ω :=
  if b.isEmpty then { answer := .ok true, buffer := b, socket := k, calls := [] }
  else
    let r := Socket.write k b.data
    let call := SocketCall.write b.data r.1
    match _h : r.1 with
    | .ok 0 => { answer := .error (.bare .writeZero), buffer := b, socket := r.2, calls := [call] }
    | .ok (n + 1) =>
      let rest := drain (b.drop (n + 1)) r.2
      { rest with calls := call :: rest.calls }
    | .error e =>
      if e.isBlock then { answer := .ok false, buffer := b, socket := r.2, calls := [call] }
      else if e.isInterruption then
        let rest := drain b r.2
        { rest with calls := call :: rest.calls }
      else { answer := .error e, buffer := b, socket := r.2, calls := [call] }
termination_by b.size + Socket.supply k
decreasing_by
  · have hne : b.data ≠ [] := by simpa [Buffer.isEmpty] using ‹¬b.isEmpty = true›
    have hpos := List.length_pos_iff.2 hne
    have hle := Socket.supply_write_le k b.data
    simp only [Buffer.size, Buffer.data_drop, List.length_drop]
    omega
  · have he : (Socket.write k b.data).1 = .error e := ‹_›
    have hlt : Socket.supply (Socket.write k b.data).2 < Socket.supply k := by
      apply Socket.supply_write_lt
      simp only [WriteAnswer.interrupts, he]
      assumption
    exact Nat.add_lt_add_left hlt b.size

theorem supply_drain_le (b : Buffer) (k : ω) :
    Socket.supply (drain b k).socket ≤ Socket.supply k := by
  fun_induction drain b k with
  | case1 => exact Nat.le_refl _
  | case2 => exact Socket.supply_write_le _ _
  | case3 _ _ _ _ _ _ _ _ ih => exact Nat.le_trans ih (Socket.supply_write_le _ _)
  | case4 => exact Socket.supply_write_le _ _
  | case5 _ _ _ _ _ _ _ _ _ _ ih => exact Nat.le_trans ih (Socket.supply_write_le _ _)
  | case6 => exact Socket.supply_write_le _ _

end TlsTransport
