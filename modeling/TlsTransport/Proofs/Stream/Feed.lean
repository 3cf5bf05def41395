import TlsTransport.Socket.Transfer

/-! # Sockets that give a byte stream in pieces

A socket with a finite stream to deliver, cut into pieces in any way, with refusals in between, and
after it perhaps its end. It takes all that is written to it.

* `Piece`, `Feed`: what is left to deliver, and what was taken.
* `Feed.drain_spec`, `Feed.fill_spec`: the two loops over such a socket.
-/

namespace TlsTransport

/-- What a read finds: some bytes, or a refusal after which to try again. -/
inductive Piece where
  | arrival (first : UInt8) (rest : Bytes)
  | refusal (cause : IoError) (h : cause.isBlock = true ∨ cause.isInterruption = true)

namespace Piece

/-- The bytes of a piece. -/
def bytes : Piece → Bytes
  | arrival first rest => first :: rest
  | refusal _ _ => []

/-- The piece with these bytes, if there are any. -/
def ofBytes : Bytes → List Piece
  | [] => []
  | first :: rest => [arrival first rest]

theorem bytes_ofBytes (bytes : Bytes) : (ofBytes bytes).flatMap Piece.bytes = bytes := by
  cases bytes with
  | nil => rfl
  | cons first rest => exact List.append_nil _

/-- How many reads pieces can serve at most. -/
def reads : List Piece → Nat
  | [] => 0
  | arrival _ rest :: later => rest.length + 1 + reads later
  | refusal _ _ :: later => 1 + reads later

theorem reads_ofBytes (bytes : Bytes) (later : List Piece) :
    reads (ofBytes bytes ++ later) = bytes.length + reads later := by
  cases bytes with
  | nil => exact (Nat.zero_add _).symm
  | cons first rest => rfl

end Piece

/-- The pieces that are left, whether the stream ends after them, and the bytes that were taken. -/
structure Feed where
  pieces : List Piece
  ended : Bool
  taken : Bytes

namespace Feed

/-- The bytes that are left to deliver. -/
def content (k : Feed) : Bytes := k.pieces.flatMap Piece.bytes

/-- How many reads the pieces can serve at most. -/
def supply (k : Feed) : Nat := Piece.reads k.pieces

/-- Whether nothing is left, not even the end of the stream. -/
def isDry (k : Feed) : Bool := k.pieces.isEmpty && !k.ended

theorem isDry_iff {k : Feed} : k.isDry = true ↔ k.pieces = [] ∧ k.ended = false := by
  simp only [isDry, Bool.and_eq_true, List.isEmpty_iff, Bool.not_eq_true']

/-- Serves the first piece, as much of it as is asked for. -/
def read (k : Feed) (max : Nat) : Except IoError Bytes × Feed :=
  match k.pieces with
  | [] => (if k.ended then .ok [] else .error (.bare .wouldBlock), k)
  | .refusal cause _ :: later => (.error cause, { k with pieces := later })
  | .arrival first rest :: later =>
    (.ok ((first :: rest).take max),
      { k with pieces := Piece.ofBytes ((first :: rest).drop max) ++ later })

/-- Takes everything. -/
def write (k : Feed) (bytes : Bytes) : Except IoError Nat × Feed :=
  (.ok bytes.length, { k with taken := k.taken ++ bytes })

theorem supply_read_lt (k : Feed) (max : Nat)
    (h : ReadAnswer.progresses (k.read max).1 = true) : (k.read max).2.supply < k.supply := by
  unfold read at *
  split at h
  · cases hended : k.ended <;>
      simp [hended, ReadAnswer.progresses, IoError.isInterruption, IoError.kind] at h
  · simp_all [supply, Piece.reads]
  · rename_i first rest later hpieces
    have hmax : 0 < max := by
      refine Nat.pos_of_ne_zero fun hz => ?_
      simp [hz, ReadAnswer.progresses] at h
    simp only [supply, hpieces, Piece.reads_ofBytes, List.length_drop, Piece.reads,
      List.length_cons]
    omega

instance : Socket Feed where
  read := read
  write := write
  flush k := (.ok (), k)
  supply := supply
  supply_read_lt := supply_read_lt
  supply_write_le _ _ := Nat.le_refl _
  supply_write_lt _ _ h := by cases h

/-! ## The two loops -/

theorem drain_of_nil {b : Buffer} (k : Feed) (h : b.data = []) :
    drain b k = { answer := .ok true, buffer := b, socket := k, calls := [] } := by
  rw [drain, if_pos (b.isEmpty_iff.2 h)]

theorem drain_spec (b : Buffer) (k : Feed) :
    (drain b k).answer = .ok true ∧ (drain b k).buffer.data = [] ∧
      (drain b k).socket = { k with taken := k.taken ++ b.data } := by
  rcases hb : b.data with _ | ⟨first, rest⟩
  · rw [drain_of_nil k hb, List.append_nil]
    exact ⟨rfl, hb, rfl⟩
  · have hwrite : Socket.write k b.data =
        (.ok (rest.length + 1), { k with taken := k.taken ++ b.data }) :=
      congrArg (fun bytes => (Except.ok (List.length bytes), { k with taken := k.taken ++ b.data }))
        hb
    have hdrop : (b.drop (rest.length + 1)).data = [] := by
      rw [Buffer.data_drop, hb]
      exact List.drop_length
    have hne : ¬ b.isEmpty = true := by simp [Buffer.isEmpty, hb]
    rw [drain, if_neg hne, hwrite]
    dsimp only
    rw [drain_of_nil _ hdrop, hb]
    exact ⟨rfl, hdrop, rfl⟩

/-- What one read does: the stream goes on where it was. -/
structure Filled (b : Buffer) (k : Feed) (f : Filling Feed) : Prop where
  content : f.buffer.data ++ f.socket.content = b.data ++ k.content
  ended : f.socket.ended = k.ended
  taken : f.socket.taken = k.taken
  weight : 2 * f.socket.supply + f.buffer.size ≤ 2 * k.supply + b.size
  spent : k.pieces = [] → f.socket.pieces = []

/-- How a read ends: with bytes, at the end of the stream, or with a refusal. Only the end of the
stream and a refusal of a dry socket can be met again and again. -/
inductive Ending (b : Buffer) (k : Feed) (f : Filling Feed) : Prop where
  | arrived (first : UInt8) (rest : Bytes) (h : f.answer = .ok (first :: rest))
      (hlt : 2 * f.socket.supply + f.buffer.size < 2 * k.supply + b.size)
  | atEnd (h : f.answer = .ok []) (hended : k.ended = true) (hpieces : f.socket.pieces = [])
      (hsame : f.buffer.data = b.data)
  | refused (cause : IoError) (h : f.answer = .error cause) (hb : cause.isBlock = true)
      (hsame : f.buffer.data = b.data)
      (hless : 2 * f.socket.supply + f.buffer.size < 2 * k.supply + b.size ∨
        f.socket.isDry = true)

theorem Ending.not_interrupted {b : Buffer} {k : Feed} {f : Filling Feed} (h : Ending b k f) :
    ¬ f.isInterrupted = true := by
  unfold Filling.isInterrupted
  cases h with
  | arrived first rest ha => rw [ha]; simp
  | atEnd ha => rw [ha]; simp
  | refused cause ha hblock =>
    rw [ha]
    simp only [IoError.isBlock, IoError.isInterruption, beq_iff_eq] at hblock ⊢
    rw [hblock]
    simp

/-- The bytes of the answer to a read. -/
def arrived : Except IoError Bytes → Bytes
  | .ok bytes => bytes
  | .error _ => []

/-- What a single read leaves, by its answer. -/
theorem fillFrom_of (b : Buffer) {k k' : Feed} {max : Nat} {answer : Except IoError Bytes}
    (h : k.read max = (answer, k')) : (b.fillFrom k max).answer = answer ∧
      (b.fillFrom k max).socket = k' ∧
      (b.fillFrom k max).buffer.data = b.data ++ arrived answer := by
  have hread : Socket.read k max = (answer, k') := h
  cases answer with
  | ok bytes => simp [Buffer.fillFrom, hread, arrived]
  | error e => simp [Buffer.fillFrom, hread, arrived]

/-- A single read: it can also be interrupted. -/
theorem fillFrom_spec (b : Buffer) (k : Feed) {max : Nat} (hmax : 0 < max) :
    Filled b k (b.fillFrom k max) ∧ (Ending b k (b.fillFrom k max) ∨
      (b.fillFrom k max).isInterrupted = true ∧ (b.fillFrom k max).buffer.data = b.data) := by
  rcases hp : k.pieces with _ | ⟨⟨first, rest⟩ | ⟨cause, hcause⟩, later⟩
  · have hread : k.read max = (if k.ended then .ok [] else .error (.bare .wouldBlock), k) := by
      simp [read, hp]
    obtain ⟨ha, hk, hd⟩ := fillFrom_of b hread
    have hsame : (b.fillFrom k max).buffer.data = b.data := by
      rw [hd]
      cases k.ended <;> simp [arrived]
    refine ⟨⟨by rw [hsame, hk], by rw [hk], by rw [hk], ?_, by rw [hk]; exact id⟩, .inl ?_⟩
    · exact Nat.le_of_eq (by rw [hk, Buffer.size, Buffer.size, hsame])
    · cases hended : k.ended with
      | true => exact .atEnd (by rw [ha, hended]; rfl) hended (by rw [hk, hp]) hsame
      | false =>
        have hdry : k.isDry = true := by simp [isDry, hp, hended]
        exact .refused _ (by rw [ha, hended]; rfl) rfl hsame (.inr (by rw [hk, hdry]))
  · have hread : k.read max = (.ok ((first :: rest).take max),
        { k with pieces := Piece.ofBytes ((first :: rest).drop max) ++ later }) := by
      simp [read, hp]
    obtain ⟨ha, hk, hd⟩ := fillFrom_of b hread
    obtain ⟨m, rfl⟩ : ∃ m, max = m + 1 := Nat.exists_eq_succ_of_ne_zero (Nat.ne_of_gt hmax)
    have hlt : 2 * (b.fillFrom k (m + 1)).socket.supply + (b.fillFrom k (m + 1)).buffer.size <
        2 * k.supply + b.size := by
      rw [hk, Buffer.size, Buffer.size, hd]
      simp only [arrived, supply, hp, Piece.reads_ofBytes, List.length_drop, Piece.reads,
        List.length_cons, List.length_append, List.length_take]
      omega
    refine ⟨⟨?_, by rw [hk], by rw [hk], Nat.le_of_lt hlt, fun hnil => ?_⟩,
      .inl (.arrived _ _ ha hlt)⟩
    · rw [hd, hk]
      simp only [arrived, content, hp, List.flatMap_append, Piece.bytes_ofBytes,
        List.flatMap_cons, Piece.bytes, List.append_assoc]
      rw [← List.append_assoc (List.take _ _), List.take_append_drop]
    · rw [hp] at hnil
      cases hnil
  · have hread : k.read max = (.error cause, { k with pieces := later }) := by simp [read, hp]
    obtain ⟨ha, hk, hd⟩ := fillFrom_of b hread
    have hsame : (b.fillFrom k max).buffer.data = b.data := by rw [hd, arrived, List.append_nil]
    have hlt : 2 * (b.fillFrom k max).socket.supply + (b.fillFrom k max).buffer.size <
        2 * k.supply + b.size := by
      rw [hk, Buffer.size, Buffer.size, hsame]
      simp only [supply, hp, Piece.reads]
      omega
    refine ⟨⟨?_, by rw [hk], by rw [hk], Nat.le_of_lt hlt, fun hnil => ?_⟩, ?_⟩
    · rw [hsame, hk, content, content, hp]
      rfl
    · rw [hp] at hnil
      cases hnil
    · rcases hcause with hblock | hinterrupts
      · exact .inl (.refused cause ha hblock hsame (.inl hlt))
      · exact .inr ⟨by rw [Filling.isInterrupted, ha]; exact hinterrupts, hsame⟩

theorem fill_spec (b : Buffer) (k : Feed) {max : Nat} (hmax : 0 < max) :
    Filled b k (fill b k max) ∧ Ending b k (fill b k max) := by
  -- Along the interrupted reads, which leave the bytes as they were.
  fun_induction fill b k max with
  | case1 b k r h rest ih =>
    obtain ⟨hfirst, hending | ⟨-, hsame⟩⟩ := fillFrom_spec b k hmax
    · exact absurd h hending.not_interrupted
    obtain ⟨hlater, hending⟩ := ih
    have hle := hfirst.weight
    refine ⟨⟨hlater.content.trans hfirst.content, hlater.ended.trans hfirst.ended,
      hlater.taken.trans hfirst.taken, Nat.le_trans hlater.weight hle,
      hlater.spent ∘ hfirst.spent⟩, ?_⟩
    cases hending with
    | arrived first tail ha hlt => exact .arrived first tail ha (Nat.lt_of_lt_of_le hlt hle)
    | atEnd ha hended hpieces hrest =>
      exact .atEnd ha (hfirst.ended.symm.trans hended) hpieces (hrest.trans hsame)
    | refused cause ha hblock hrest hless =>
      exact .refused cause ha hblock (hrest.trans hsame)
        (hless.imp_left (Nat.lt_of_lt_of_le · hle))
  | case2 b k r h =>
    obtain ⟨hfilled, hending | ⟨hagain, -⟩⟩ := fillFrom_spec b k hmax
    · exact ⟨hfilled, hending⟩
    · exact absurd hagain h

end Feed
end TlsTransport
