import TlsTransport.Bytes
import TlsTransport.IoError

/-! # Growable byte buffers

A `Buffer` is a stretch of storage whose first bytes are valid data and whose rest is free. Both
parts are kept, because what stands in the free part can be seen by whoever fills it in place:
new storage is zero, and bytes that were discarded stay behind until they are overwritten.

* `Buffer.data_append`, `data_drop`: on its data a buffer is a byte queue.
* `Buffer.capacity` never falls: the `capacity_…` lemmas.
-/

namespace TlsTransport

/-- Storage that holds `data` first and `spare` after it. -/
structure Buffer where
  /-- The valid bytes. -/
  data : Bytes
  /-- What stands in the free region. -/
  spare : Bytes
  deriving DecidableEq, Repr

namespace Buffer

/-- A buffer without storage. -/
def empty : Buffer := ⟨[], []⟩

/-- Number of valid bytes. -/
def size (b : Buffer) : Nat := b.data.length

/-- Number of bytes in the free region. -/
def free (b : Buffer) : Nat := b.spare.length

/-- Number of bytes of storage. -/
def capacity (b : Buffer) : Nat := b.size + b.free

/-- Whether there is no valid byte. -/
def isEmpty (b : Buffer) : Bool := b.data.isEmpty

/-! ## Storage -/

/-- Grows the free region to at least `extra` bytes, with zeros. -/
def reserve (b : Buffer) (extra : Nat) : Buffer :=
  { b with spare := b.spare ++ List.replicate (extra - b.spare.length) 0 }

/-- Grows the storage to at least `capacity` bytes. It never shrinks. -/
def resize (b : Buffer) (capacity : Nat) : Buffer := b.reserve (capacity - b.size)

/-- An empty buffer with `capacity` bytes of storage. -/
def withCapacity (capacity : Nat) : Buffer := empty.resize capacity

/-! ## Data -/

/-- Appends bytes, over the front of the free region and past its end. -/
def append (b : Buffer) (bytes : Bytes) : Buffer :=
  { data := b.data ++ bytes, spare := b.spare.drop bytes.length }

/-- Discards the first `n` valid bytes. The rest moves to the front, so the last bytes of the data
region keep their old content and become free. -/
def drop (b : Buffer) (n : Nat) : Buffer :=
  { data := b.data.drop n, spare := b.data.drop (b.size - n) ++ b.spare }

/-- Discards all valid bytes and keeps the storage. -/
def clear (b : Buffer) : Buffer := { data := [], spare := b.data ++ b.spare }

/-- Counts the first `n` bytes of the free region as valid; the region must have them. -/
def advance? (b : Buffer) (n : Nat) : Option Buffer :=
  if n ≤ b.free then some { data := b.data ++ b.spare.take n, spare := b.spare.drop n } else none

/-- Writes over the front of the free region, as far as it goes, without making it valid. -/
def fillSpare (b : Buffer) (bytes : Bytes) : Buffer :=
  { b with spare := bytes.take b.free ++ b.spare.drop bytes.length }

/-- Takes at most `n` leading bytes out. -/
def drain (b : Buffer) (n : Nat) : Bytes × Buffer := (b.data.take n, b.drop n)

/-- Takes at most `n` leading bytes out, as a stream that is not ready while it is empty. -/
def take? (b : Buffer) (n : Nat) : Except IoError (Bytes × Buffer) :=
  if b.isEmpty ∧ 0 < n then .error (.bare .wouldBlock) else .ok (b.drain n)

/-! ## What a step did to a buffer -/

/-- What is gone from the front, when the buffer after the step is a rest of the one before it. -/
def taken (before after : Buffer) : Bytes := before.data.take (before.size - after.size)

/-- What is new at the end, when the buffer after the step goes on from the one before it. -/
def added (before after : Buffer) : Bytes := after.data.drop before.size

/-! ## The queue view -/

@[simp] theorem data_reserve (b : Buffer) (n : Nat) : (b.reserve n).data = b.data := rfl

@[simp] theorem data_append (b : Buffer) (bytes : Bytes) :
    (b.append bytes).data = b.data ++ bytes := rfl

@[simp] theorem data_drop (b : Buffer) (n : Nat) : (b.drop n).data = b.data.drop n := rfl

theorem isEmpty_iff (b : Buffer) : b.isEmpty = true ↔ b.data = [] := by
  simp [isEmpty]

/-! ## Storage never shrinks -/

theorem free_reserve (b : Buffer) (n : Nat) : (b.reserve n).free = max n b.free := by
  simp [reserve, free]; omega

theorem capacity_resize (b : Buffer) (n : Nat) : (b.resize n).capacity = max n b.capacity := by
  have := free_reserve b (n - b.size)
  have hs : (b.reserve (n - b.size)).size = b.size := rfl
  simp only [resize, capacity, hs, this]; omega

theorem capacity_append (b : Buffer) (bytes : Bytes) :
    (b.append bytes).capacity = max b.capacity (b.size + bytes.length) := by
  simp [append, capacity, size, free]; omega

theorem capacity_drop (b : Buffer) (n : Nat) : (b.drop n).capacity = b.capacity := by
  simp [drop, capacity, size, free]; omega

theorem capacity_clear (b : Buffer) : b.clear.capacity = b.capacity := by
  simp [clear, capacity, size, free]

end Buffer
end TlsTransport
