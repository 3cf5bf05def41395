import TlsTransport.Socket

/-! # Scripted sockets

A socket that gives prepared answers in order. When they run out, reads would block and writes are
taken in full.
-/

namespace TlsTransport

/-- The answers that are left, the bytes of an answer that were not yet served, and what was
taken. -/
structure ScriptedSocket where
  reads : List (Except IoError Bytes)
  leftover : Bytes
  writes : List (Except IoError Nat)
  flushes : List (Except IoError Unit)
  /-- What was taken, newest piece first. -/
  taken : List Bytes

namespace ScriptedSocket

/-- A socket with the given answers. -/
def ofScript (reads : List (Except IoError Bytes)) (writes : List (Except IoError Nat))
    (flushes : List (Except IoError Unit)) : ScriptedSocket := ⟨reads, [], writes, flushes, []⟩

/-- Adds answers after those that are left. -/
def extend (k : ScriptedSocket) (reads : List (Except IoError Bytes))
    (writes : List (Except IoError Nat)) (flushes : List (Except IoError Unit)) : ScriptedSocket :=
  { k with
    reads := k.reads ++ reads
    writes := k.writes ++ writes
    flushes := k.flushes ++ flushes }

/-- All that was taken, in order. -/
def sent (k : ScriptedSocket) : Bytes := k.taken.reverse.flatten

/-- Forgets what was taken. -/
def forgetSent (k : ScriptedSocket) : ScriptedSocket := { k with taken := [] }

/-- Serves what is left of an answer, or else takes the next one. -/
def read (k : ScriptedSocket) (max : Nat) : Except IoError Bytes × ScriptedSocket :=
  if k.leftover.isEmpty then
    match k.reads with
    | [] => (.error (.bare .wouldBlock), k)
    | .error e :: reads => (.error e, { k with reads := reads })
    | .ok bytes :: reads =>
      (.ok (bytes.take max), { k with reads := reads, leftover := bytes.drop max })
  else (.ok (k.leftover.take max), { k with leftover := k.leftover.drop max })

/-- Takes as many bytes as the next answer says. -/
def write (k : ScriptedSocket) (bytes : Bytes) : Except IoError Nat × ScriptedSocket :=
  match k.writes with
  | [] => (.ok bytes.length, { k with taken := bytes :: k.taken })
  | .ok n :: writes =>
    let part := bytes.take n
    (.ok part.length, { k with writes := writes, taken := part :: k.taken })
  | .error e :: writes => (.error e, { k with writes := writes })

/-- Gives the next answer. -/
def flush (k : ScriptedSocket) : Except IoError Unit × ScriptedSocket :=
  match k.flushes with
  | [] => (.ok (), k)
  | answer :: flushes => (answer, { k with flushes := flushes })

/-- How much an answer to a read can deliver, the answer itself counted. -/
def weight : Except IoError Bytes → Nat
  | .ok bytes => bytes.length + 1
  | .error _ => 1

/-- The answers and the bytes that are left. -/
def supply (k : ScriptedSocket) : Nat :=
  k.reads.foldr (fun r n => weight r + n) 0 + k.leftover.length + k.writes.length

theorem supply_read_lt (k : ScriptedSocket) (n : Nat)
    (h : ReadAnswer.progresses (k.read n).1 = true) : (k.read n).2.supply < k.supply := by
  unfold read at *
  split at h
  · rename_i he
    rw [if_pos he]
    split at h
    · simp [ReadAnswer.progresses, IoError.isInterruption, IoError.kind] at h
    · simp_all [supply, weight]
    · simp_all [supply, weight]; omega
  · rename_i he
    rw [if_neg he]
    simp only [ReadAnswer.progresses, Bool.not_eq_true', List.isEmpty_eq_false_iff, ne_eq,
      List.take_eq_nil_iff, not_or] at h
    have := List.length_pos_iff.2 h.2
    simp only [supply, List.length_drop]; omega

theorem supply_write_le (k : ScriptedSocket) (bytes : Bytes) :
    (k.write bytes).2.supply ≤ k.supply := by
  unfold write
  split
  · exact Nat.le_refl _
  · simp_all [supply]
  · simp_all [supply]

theorem supply_write_lt (k : ScriptedSocket) (bytes : Bytes)
    (h : WriteAnswer.interrupts (k.write bytes).1 = true) :
    (k.write bytes).2.supply < k.supply := by
  unfold write at *
  split at h
  · simp [WriteAnswer.interrupts] at h
  · simp [WriteAnswer.interrupts] at h
  · simp_all [supply]

instance : Socket ScriptedSocket where
  read := read
  write := write
  flush := flush
  supply := supply
  supply_read_lt := supply_read_lt
  supply_write_le := supply_write_le
  supply_write_lt := supply_write_lt

end ScriptedSocket
end TlsTransport
