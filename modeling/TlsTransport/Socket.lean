import TlsTransport.Bytes
import TlsTransport.IoError

/-! # Non-blocking sockets

A socket is a state with three operations, none of which waits. What it will still deliver without
being given more is bounded, so a loop that reads until the socket would block ends.

* `Socket.supply`: the bound. A read that delivers bytes and an interrupted call lower it, and no
  write raises it. More may have arrived when a read would block.
-/

namespace TlsTransport

/-- An error that says that the same call is to be made again at once. -/
def IoError.isInterruption (e : IoError) : Bool := e.kind == .interrupted

/-- An error that says that the socket is not ready. -/
def IoError.isBlock (e : IoError) : Bool := e.kind == .wouldBlock

/-- Whether a read moved the stream on or asks to be repeated at once. -/
def ReadAnswer.progresses : Except IoError Bytes → Bool
  | .ok bytes => !bytes.isEmpty
  | .error e => e.isInterruption

/-- Whether a write or a flush asks to be repeated at once. -/
def WriteAnswer.interrupts {α : Type} : Except IoError α → Bool
  | .ok _ => false
  | .error e => e.isInterruption

/-- A byte stream whose operations never wait. -/
class Socket (ω : Type) where
  /-- Reads at most the given number of bytes; no bytes mean the end of the stream. -/
  read : ω → Nat → Except IoError Bytes × ω
  /-- Offers bytes and answers how many of them were taken. -/
  write : ω → Bytes → Except IoError Nat × ω
  /-- Hands on what was taken. -/
  flush : ω → Except IoError Unit × ω
  /-- How much the socket can still deliver by itself. -/
  supply : ω → Nat
  supply_read_lt : ∀ k n, ReadAnswer.progresses (read k n).1 = true →
    supply (read k n).2 < supply k
  supply_write_le : ∀ k bytes, supply (write k bytes).2 ≤ supply k
  supply_write_lt : ∀ k bytes, WriteAnswer.interrupts (write k bytes).1 = true →
    supply (write k bytes).2 < supply k

/-- A call made to a socket, with its answer. -/
inductive SocketCall where
  | read (max : Nat) (answer : Except IoError Bytes)
  | write (offered : Bytes) (answer : Except IoError Nat)
  | flush (answer : Except IoError Unit)

/-- A socket call as it is reported: the length offered, then the count or the kind of error. -/
def SocketCall.render : SocketCall → String
  | read n (.ok bytes) => s!"read {n} -> {bytes.length}"
  | read n (.error e) => s!"read {n} -> err {e.kind.name}"
  | write bytes (.ok count) => s!"write {bytes.length} -> {count}"
  | write bytes (.error e) => s!"write {bytes.length} -> err {e.kind.name}"
  | flush (.ok _) => "flush -> 0"
  | flush (.error e) => s!"flush -> err {e.kind.name}"

end TlsTransport
