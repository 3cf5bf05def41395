import TlsTransport.Proofs.Session.Journal
import TlsTransport.Script.Socket
import TlsTransport.Socket.Transfer

/-! # Interrupted calls

Two sockets can differ in nothing but that calls to the second one are interrupted now and then. The
two loops that move bytes repeat such calls, so they leave the same over both sockets.

* `Interspersed`: a list with more entries of one kind in it.
* `Delays`: what the second socket answers, given what the first one does; `DelaysAll` for all
  calls.
* `Delays.fill`, `Delays.drain`: the two loops over both.
* `ScriptedSocket.Interrupted`: a script with interruptions in it delays the script without them.
-/

namespace TlsTransport

variable {ω ω' α β : Type}

/-! ## Lists with more in them -/

/-- The second list is the first with more entries in it, which all have a property. -/
inductive Interspersed (p : α → Prop) : List α → List α → Prop where
  | nil : Interspersed p [] []
  | keep (a : α) {l l' : List α} (h : Interspersed p l l') : Interspersed p (a :: l) (a :: l')
  | more {a : α} {l l' : List α} (ha : p a) (h : Interspersed p l l') : Interspersed p l (a :: l')

namespace Interspersed

variable {p : α → Prop} {l l' m m' : List α}

theorem refl (p : α → Prop) (l : List α) : Interspersed p l l := by
  induction l with
  | nil => exact .nil
  | cons a l ih => exact .keep a ih

theorem append (h : Interspersed p l l') (k : Interspersed p m m') :
    Interspersed p (l ++ m) (l' ++ m') := by
  induction h with
  | nil => exact k
  | keep a _ ih => exact .keep a ih
  | more ha _ ih => exact .more ha ih

theorem reverse (h : Interspersed p l l') : Interspersed p l.reverse l'.reverse := by
  induction h with
  | nil => exact .nil
  | keep a _ ih =>
    rw [List.reverse_cons, List.reverse_cons]
    exact ih.append (refl p [a])
  | more ha _ ih =>
    have hlast := ih.append (.more ha .nil)
    rw [List.append_nil] at hlast
    rw [List.reverse_cons]
    exact hlast

theorem map (f : α → β) {q : β → Prop} (hf : ∀ a, p a → q (f a)) (h : Interspersed p l l') :
    Interspersed q (l.map f) (l'.map f) := by
  induction h with
  | nil => exact .nil
  | keep a _ ih => exact .keep (f a) ih
  | more ha _ ih => exact .more (hf _ ha) ih

/-- What the new entries contribute nothing to is the same. -/
theorem flatMap_eq {f : α → List β} (hf : ∀ a, p a → f a = []) (h : Interspersed p l l') :
    l'.flatMap f = l.flatMap f := by
  induction h with
  | nil => rfl
  | keep a _ ih => rw [List.flatMap_cons, List.flatMap_cons, ih]
  | more ha _ ih => rw [List.flatMap_cons, hf _ ha, ih, List.nil_append]

theorem eq_of_forall_not (h : Interspersed p l l') (hnone : ∀ a ∈ l', ¬ p a) : l' = l := by
  induction h with
  | nil => rfl
  | keep a _ ih => rw [ih fun b hb => hnone b (List.mem_cons_of_mem a hb)]
  | more ha _ _ => exact absurd ha (hnone _ List.mem_cons_self)

end Interspersed

/-! ## Sockets that are interrupted -/

/-- Whether a call was interrupted. -/
def SocketCall.interrupted : SocketCall → Bool
  | read _ answer => WriteAnswer.interrupts answer
  | write _ answer => WriteAnswer.interrupts answer
  | flush answer => WriteAnswer.interrupts answer

/-- An interrupted call moves nothing. -/
theorem SocketCall.accepted_of_interrupted {call : SocketCall} (h : call.interrupted = true) :
    call.accepted = [] := by
  cases call with
  | write bytes answer => cases answer with
    | ok n => cases h
    | error e => rfl
  | read | flush => rfl

theorem SocketCall.delivered_of_interrupted {call : SocketCall} (h : call.interrupted = true) :
    call.delivered = [] := by
  cases call with
  | read max answer => cases answer with
    | ok bytes => cases h
    | error e => rfl
  | write | flush => rfl

/-- How a call answers on the second socket, given how it answers on the first: it is interrupted,
and then the first socket has not moved, or it answers the same. -/
inductive Delay (R : ω → ω' → Prop) (k : ω) (r : Except IoError α × ω)
    (r' : Except IoError α × ω') : Prop where
  | interrupted {e : IoError} (h : r'.1 = .error e) (he : e.isInterruption = true) (hk : R k r'.2)
  | same (h : r'.1 = r.1) (hk : R r.2 r'.2)

variable [Socket ω] [Socket ω']

/-- A relation between sockets under which reading and writing answer alike, but for
interruptions. -/
structure Delays (R : ω → ω' → Prop) : Prop where
  read {k : ω} {k' : ω'} (h : R k k') (max : Nat) :
    Delay R k (Socket.read k max) (Socket.read k' max)
  write {k : ω} {k' : ω'} (h : R k k') (bytes : Bytes) :
    Delay R k (Socket.write k bytes) (Socket.write k' bytes)

/-- The same for all calls of a socket. -/
structure DelaysAll (R : ω → ω' → Prop) : Prop extends Delays R where
  flush {k : ω} {k' : ω'} (h : R k k') : Delay R k (Socket.flush k) (Socket.flush k')

/-! ## Reading -/

theorem Buffer.reserve_reserve (b : Buffer) (n : Nat) : (b.reserve n).reserve n = b.reserve n := by
  have hfree : n - (b.reserve n).spare.length = 0 := by
    have := b.free_reserve n
    simp only [Buffer.free] at this
    omega
  rw [Buffer.reserve, hfree, List.replicate_zero, List.append_nil]

/-- Room that was made before makes no difference. -/
theorem fill_reserve (b : Buffer) (k : ω) (max : Nat) :
    fill (b.reserve max) k max = fill b k max := by
  have hfrom : (b.reserve max).fillFrom k max = b.fillFrom k max := by
    simp only [Buffer.fillFrom, Buffer.reserve_reserve]
  rw [fill, fill.eq_def b, hfrom]

theorem isInterrupted_fillFrom (b : Buffer) (k : ω) (max : Nat) :
    (b.fillFrom k max).isInterrupted = WriteAnswer.interrupts (Socket.read k max).1 := by
  simp only [Filling.isInterrupted, Buffer.fillFrom, WriteAnswer.interrupts]
  cases (Socket.read k max).1 <;> rfl

theorem fill_of_interrupted (b : Buffer) {k : ω} {max : Nat} {e : IoError}
    (h : (Socket.read k max).1 = .error e) (he : e.isInterruption = true) :
    fill b k max = { fill b (Socket.read k max).2 max with
      calls := .read max (.error e) :: (fill b (Socket.read k max).2 max).calls } := by
  have hint : (b.fillFrom k max).isInterrupted = true := by rw [isInterrupted_fillFrom, h]; exact he
  have hbuffer : (b.fillFrom k max).buffer = b.reserve max := by simp only [Buffer.fillFrom, h]
  have hsocket : (b.fillFrom k max).socket = (Socket.read k max).2 := rfl
  have hcalls : (b.fillFrom k max).calls = [.read max (.error e)] := by rw [← h]; rfl
  rw [fill, if_pos hint, hbuffer, hsocket, hcalls, fill_reserve]
  rfl

theorem fill_of_answered (b : Buffer) {k : ω} {max : Nat}
    (h : WriteAnswer.interrupts (Socket.read k max).1 = false) :
    fill b k max = b.fillFrom k max := by
  have hint : ¬ (b.fillFrom k max).isInterrupted = true := by
    rw [isInterrupted_fillFrom, h]
    simp
  rw [fill, if_neg hint]

/-- A read leaves the same over both sockets, after the same calls and interrupted ones. -/
structure Filling.Alike (R : ω → ω' → Prop) (f : Filling ω) (f' : Filling ω') : Prop where
  answer : f'.answer = f.answer
  buffer : f'.buffer = f.buffer
  socket : R f.socket f'.socket
  calls : Interspersed (·.interrupted = true) f.calls f'.calls

theorem interrupts_iff {answer : Except IoError α} :
    WriteAnswer.interrupts answer = true ↔ ∃ e, answer = .error e ∧ e.isInterruption = true := by
  cases answer <;> simp [WriteAnswer.interrupts]

theorem Delays.fill {R : ω → ω' → Prop} (h : Delays R) (b : Buffer) {k : ω} {k' : ω'} (hk : R k k')
    (max : Nat) : (TlsTransport.fill b k max).Alike R (TlsTransport.fill b k' max) := by
  -- The second socket is interrupted only so often, and the first one waits for it each time.
  induction hm : Socket.supply k' using Nat.strongRecOn generalizing k k' with
  | ind m ih =>
    have hless : ∀ {e : IoError}, (Socket.read k' max).1 = .error e → e.isInterruption = true →
        Socket.supply (Socket.read k' max).2 < m := by
      intro e he hint
      rw [← hm]
      exact Socket.supply_read_lt k' max (by rw [he]; exact hint)
    rcases h.read hk max with ⟨he, hint, hnext⟩ | ⟨hsame, hnext⟩
    · have hrest := ih _ (hless he hint) hnext rfl
      rw [fill_of_interrupted b he hint]
      exact ⟨hrest.answer, hrest.buffer, hrest.socket, .more hint hrest.calls⟩
    · cases hr : WriteAnswer.interrupts (Socket.read k max).1 with
      | true =>
        obtain ⟨e, he, hint⟩ := interrupts_iff.1 hr
        have hrest := ih _ (hless (hsame.trans he) hint) hnext rfl
        rw [fill_of_interrupted b he hint, fill_of_interrupted b (hsame.trans he) hint]
        exact ⟨hrest.answer, hrest.buffer, hrest.socket, .keep _ hrest.calls⟩
      | false =>
        rw [fill_of_answered b hr, fill_of_answered b (by rw [hsame]; exact hr)]
        refine ⟨hsame, ?_, hnext, ?_⟩
        · simp only [Buffer.fillFrom, hsame]
        · simp only [Buffer.fillFrom, hsame]
          exact .refl _ _

/-! ## Writing -/

theorem IoError.isBlock_of_isInterruption {e : IoError} (h : e.isInterruption = true) :
    e.isBlock = false := by
  simp only [isInterruption, isBlock, beq_iff_eq] at h ⊢
  rw [h]
  rfl

section Drain

variable {b : Buffer} {k k₂ : ω} (hb : ¬ b.isEmpty = true)

theorem drain_of_isEmpty (k : ω) (h : b.isEmpty = true) :
    drain b k = { answer := .ok true, buffer := b, socket := k, calls := [] } := by
  rw [drain, if_pos h]

include hb

theorem drain_of_taken {n : Nat} (h : Socket.write k b.data = (.ok (n + 1), k₂)) :
    drain b k = { drain (b.drop (n + 1)) k₂ with
      calls := .write b.data (.ok (n + 1)) :: (drain (b.drop (n + 1)) k₂).calls } := by
  rw [drain, if_neg hb, h]

theorem drain_of_nothing (h : Socket.write k b.data = (.ok 0, k₂)) :
    drain b k = ⟨.error (.bare .writeZero), b, k₂, [.write b.data (.ok 0)]⟩ := by
  rw [drain, if_neg hb, h]

theorem drain_of_interrupted {e : IoError} (h : Socket.write k b.data = (.error e, k₂))
    (he : e.isInterruption = true) :
    drain b k = { drain b k₂ with calls := .write b.data (.error e) :: (drain b k₂).calls } := by
  have hblock : ¬ e.isBlock = true := by simp [IoError.isBlock_of_isInterruption he]
  rw [drain, if_neg hb, h]
  simp only
  rw [if_neg hblock, if_pos he]

theorem drain_of_error {e : IoError} (h : Socket.write k b.data = (.error e, k₂))
    (he : e.isInterruption = false) :
    drain b k =
      ⟨if e.isBlock then .ok false else .error e, b, k₂, [.write b.data (.error e)]⟩ := by
  rw [drain, if_neg hb, h]
  by_cases hblock : e.isBlock = true <;> simp [hblock, he]

end Drain

/-- Writing out leaves the same over both sockets, after the same calls and interrupted ones. -/
structure Draining.Alike (R : ω → ω' → Prop) (d : Draining ω) (d' : Draining ω') : Prop where
  answer : d'.answer = d.answer
  buffer : d'.buffer = d.buffer
  socket : R d.socket d'.socket
  calls : Interspersed (·.interrupted = true) d.calls d'.calls

theorem Delays.drain {R : ω → ω' → Prop} (h : Delays R) (b : Buffer) {k : ω} {k' : ω'}
    (hk : R k k') : (TlsTransport.drain b k).Alike R (TlsTransport.drain b k') := by
  -- Each write takes something off the buffer, or the second socket was interrupted once more.
  induction hm : b.size + Socket.supply k' using Nat.strongRecOn generalizing b k k' with
  | ind m ih =>
    by_cases hb : b.isEmpty = true
    · rw [drain_of_isEmpty k hb, drain_of_isEmpty k' hb]
      exact ⟨rfl, rfl, hk, .nil⟩
    have hdelay := h.write hk b.data
    have hle := Socket.supply_write_le k' b.data
    have hlt := Socket.supply_write_lt k' b.data
    rcases hw : Socket.write k b.data with ⟨answer, k₂⟩
    rcases hw' : Socket.write k' b.data with ⟨answer', k₂'⟩
    rw [hw, hw'] at hdelay
    rw [hw'] at hle hlt
    rcases hdelay with ⟨rfl, hint, hnext⟩ | ⟨rfl, hnext⟩
    · have hless := hlt hint
      have hrest := ih _ (by omega) b hnext rfl
      rw [drain_of_interrupted hb hw' hint]
      exact ⟨hrest.answer, hrest.buffer, hrest.socket, .more hint hrest.calls⟩
    rcases answer' with e | _ | n
    · cases hint : e.isInterruption with
      | true =>
        have hless := hlt hint
        have hrest := ih _ (by omega) b hnext rfl
        rw [drain_of_interrupted hb hw hint, drain_of_interrupted hb hw' hint]
        exact ⟨hrest.answer, hrest.buffer, hrest.socket, .keep _ hrest.calls⟩
      | false =>
        rw [drain_of_error hb hw hint, drain_of_error hb hw' hint]
        exact ⟨rfl, rfl, hnext, .refl _ _⟩
    · rw [drain_of_nothing hb hw, drain_of_nothing hb hw']
      exact ⟨rfl, rfl, hnext, .refl _ _⟩
    · have hpos : 0 < b.size := List.length_pos_iff.2 fun hnil => hb (b.isEmpty_iff.2 hnil)
      have hsize : (b.drop (n + 1)).size = b.size - (n + 1) := List.length_drop
      have hrest := ih _ (by omega) (b.drop (n + 1)) hnext rfl
      rw [drain_of_taken hb hw, drain_of_taken hb hw']
      exact ⟨hrest.answer, hrest.buffer, hrest.socket, .keep _ hrest.calls⟩

/-! ## Scripts -/

namespace ScriptedSocket

/-- The second script gives the answers of the first, and interruptions before any of them. -/
structure Interrupted (k k' : ScriptedSocket) : Prop where
  reads : Interspersed (WriteAnswer.interrupts · = true) k.reads k'.reads
  writes : Interspersed (WriteAnswer.interrupts · = true) k.writes k'.writes
  flushes : Interspersed (WriteAnswer.interrupts · = true) k.flushes k'.flushes
  leftover : k'.leftover = k.leftover
  taken : k'.taken = k.taken

theorem read_delayed {k k' : ScriptedSocket} (h : Interrupted k k') (max : Nat) :
    Delay Interrupted k (k.read max) (k'.read max) := by
  obtain ⟨reads, leftover, writes, flushes, taken⟩ := k
  obtain ⟨reads', leftover', writes', flushes', taken'⟩ := k'
  obtain ⟨hreads, hwrites, hflushes, rfl, rfl⟩ := h
  unfold read
  by_cases hl : leftover'.isEmpty = true
  · simp only [hl, if_true]
    cases hreads with
    | nil => exact .same rfl ⟨.nil, hwrites, hflushes, rfl, rfl⟩
    | keep a hrest =>
      cases a with
      | error e => exact .same rfl ⟨hrest, hwrites, hflushes, rfl, rfl⟩
      | ok bytes => exact .same rfl ⟨hrest, hwrites, hflushes, rfl, rfl⟩
    | more ha hrest =>
      obtain ⟨e, rfl, he⟩ := interrupts_iff.1 ha
      exact .interrupted rfl he ⟨hrest, hwrites, hflushes, rfl, rfl⟩
  · simp only [hl]
    exact .same rfl ⟨hreads, hwrites, hflushes, rfl, rfl⟩

theorem write_delayed {k k' : ScriptedSocket} (h : Interrupted k k') (bytes : Bytes) :
    Delay Interrupted k (k.write bytes) (k'.write bytes) := by
  obtain ⟨reads, leftover, writes, flushes, taken⟩ := k
  obtain ⟨reads', leftover', writes', flushes', taken'⟩ := k'
  obtain ⟨hreads, hwrites, hflushes, rfl, rfl⟩ := h
  unfold write
  cases hwrites with
  | nil => exact .same rfl ⟨hreads, .nil, hflushes, rfl, rfl⟩
  | keep a hrest =>
    cases a with
    | error e => exact .same rfl ⟨hreads, hrest, hflushes, rfl, rfl⟩
    | ok n => exact .same rfl ⟨hreads, hrest, hflushes, rfl, rfl⟩
  | more ha hrest =>
    obtain ⟨e, rfl, he⟩ := interrupts_iff.1 ha
    exact .interrupted rfl he ⟨hreads, hrest, hflushes, rfl, rfl⟩

theorem flush_delayed {k k' : ScriptedSocket} (h : Interrupted k k') :
    Delay Interrupted k k.flush k'.flush := by
  obtain ⟨reads, leftover, writes, flushes, taken⟩ := k
  obtain ⟨reads', leftover', writes', flushes', taken'⟩ := k'
  obtain ⟨hreads, hwrites, hflushes, rfl, rfl⟩ := h
  unfold flush
  cases hflushes with
  | nil => exact .same rfl ⟨hreads, hwrites, .nil, rfl, rfl⟩
  | keep a hrest => exact .same rfl ⟨hreads, hwrites, hrest, rfl, rfl⟩
  | more ha hrest =>
    obtain ⟨e, rfl, he⟩ := interrupts_iff.1 ha
    exact .interrupted rfl he ⟨hreads, hwrites, hrest, rfl, rfl⟩

theorem delays : DelaysAll Interrupted := ⟨⟨read_delayed, write_delayed⟩, flush_delayed⟩

end ScriptedSocket
end TlsTransport
