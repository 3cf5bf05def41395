import TlsTransport.Proofs.Session.Journal

/-! # What a turn adds to the journal

A journal only grows, and the state of a session says which calls a turn can make: an engine is
started from `initialized` only, the socket is read in a handshake and while connected.

* `Event.fits`: whether a state admits an entry.
* `Adds`: the entries between two moments fit a state; `Turn.adds`.
* `Turns.journal`: the journal at the end of a chain of turns goes on from the one at its start.
* `flushPending_blocked`, `fillRaw_reads`: the socket call that decided how a transfer ended.
-/

namespace TlsTransport

variable {σ ω ε : Type}

/-! ## Socket calls -/

/-- Whether a call answered that the socket is not ready. -/
def SocketCall.blocks : SocketCall → Bool
  | read _ (.error e) | write _ (.error e) | flush (.error e) => e.isBlock
  | _ => false

/-- Whether a call offered bytes. -/
def SocketCall.isWrite : SocketCall → Bool
  | write .. => true
  | _ => false

section Sockets

variable [Socket ω]

theorem drain_writes (b : Buffer) (k : ω) : ∀ call ∈ (drain b k).calls, call.isWrite = true := by
  fun_induction drain b k with
  | case1 => simp
  | case2 | case4 | case6 => exact List.forall_mem_singleton.2 rfl
  | case3 _ _ _ _ _ _ _ _ ih => exact List.forall_mem_cons.2 ⟨rfl, ih⟩
  | case5 _ _ _ _ _ _ _ _ _ _ ih => exact List.forall_mem_cons.2 ⟨rfl, ih⟩

/-- When the socket takes no more, its last answer said so. -/
theorem drain_blocked (b : Buffer) (k : ω) (h : (drain b k).answer = .ok false) :
    ∃ first last, (drain b k).calls = first ++ [last] ∧ last.blocks = true := by
  fun_induction drain b k with
  | case1 => cases h
  | case2 => cases h
  | case3 _ _ _ _ call _ _ _ ih =>
    obtain ⟨first, last, hcalls, hlast⟩ := ih h
    exact ⟨call :: first, last, by rw [hcalls, List.cons_append], hlast⟩
  | case4 _ _ _ _ call e he hb =>
    refine ⟨[], call, rfl, ?_⟩
    simp only [call, he, SocketCall.blocks]
    exact hb
  | case5 _ _ _ _ call _ _ _ _ _ ih =>
    obtain ⟨first, last, hcalls, hlast⟩ := ih h
    exact ⟨call :: first, last, by rw [hcalls, List.cons_append], hlast⟩
  | case6 => cases h

/-- Reading makes interrupted calls and one that decides. -/
theorem fill_reads (b : Buffer) (k : ω) (max : Nat) : ∃ first,
    (fill b k max).calls = first ++ [.read max (fill b k max).answer] ∧
      ∀ call ∈ first, ∃ e, call = .read max (.error e) := by
  fun_induction fill b k max with
  | case1 b k r h rest ih =>
    obtain ⟨first, hcalls, hfirst⟩ := ih
    have hr : r.calls = [.read max r.answer] := rfl
    refine ⟨r.calls ++ first, by rw [hcalls, List.append_assoc], fun call hcall => ?_⟩
    rcases List.mem_append.1 hcall with hcall | hcall
    · rw [hr] at hcall
      unfold Filling.isInterrupted at h
      cases ha : r.answer with
      | ok bytes => rw [ha] at h; cases h
      | error e => exact ⟨e, by rw [List.mem_singleton.1 hcall, ha]⟩
    · exact hfirst call hcall
  | case2 b k r h => exact ⟨[], rfl, by simp⟩

end Sockets

/-! ## Entries -/

/-- Whether a turn from this state can add this entry. -/
def Event.fits (state : SessionState) : Event ε → Bool
  | .notice _ => true
  | .socket call => call.isWrite || state == .handshakeRead || state == .connected
  | .engine (.start ..) => state == .initialized
  | .engine (.handshake ..) => state == .initialized || state == .handshakeRead
  | .engine _ => state == .connected

/-- All that was added in between fits this state. -/
def Adds (state : SessionState) (s t : Session σ ω ε) : Prop :=
  ∃ newer, t.journal = newer ++ s.journal ∧ ∀ e ∈ newer, e.fits state = true

namespace Adds

open Session

variable {state : SessionState} {s t u : Session σ ω ε}

theorem of_eq (h : t.journal = s.journal) : Adds state s t := ⟨[], h, by simp⟩

theorem trans (h : Adds state s t) (k : Adds state t u) : Adds state s u := by
  obtain ⟨older, holder, hfits⟩ := h
  obtain ⟨newer, hnewer, hfits'⟩ := k
  refine ⟨newer ++ older, by rw [hnewer, holder, List.append_assoc], fun e he => ?_⟩
  exact (List.mem_append.1 he).elim (hfits' e) (hfits e)

theorem suffix (h : Adds state s t) : s.journal <:+ t.journal := by
  obtain ⟨newer, hj, -⟩ := h
  exact ⟨newer, hj.symm⟩

theorem silent (h : Silent s t) : Adds state s t := by
  obtain ⟨notices, hj⟩ := h.journal
  refine ⟨_, hj, fun e he => ?_⟩
  obtain ⟨n, -, rfl⟩ := List.mem_map.1 he
  rfl

theorem call {call : EngineCall ε} (hj : t.journal = .engine call :: s.journal)
    (hfits : (Event.engine call).fits state = true) : Adds state s t :=
  ⟨[.engine call], hj, by simpa using hfits⟩

section Moves

variable [Socket ω]

theorem flushPending (s : Session σ ω ε) : Adds state s s.flushPending.2 := by
  unfold Session.flushPending
  cases hk : s.socket with
  | none => exact of_eq rfl
  | some k =>
    refine ⟨_, rfl, fun e he => ?_⟩
    obtain ⟨call, hcall, rfl⟩ := List.mem_map.1 (List.mem_reverse.1 he)
    simp [Event.fits, drain_writes s.pendingWrite k call hcall]

theorem flushBestEffort (s : Session σ ω ε) : Adds state s s.flushBestEffort := by
  unfold Session.flushBestEffort
  split
  · exact flushPending s
  · exact of_eq rfl

theorem fillRaw (s : Session σ ω ε) (max : Nat) (h : state = .handshakeRead ∨ state = .connected) :
    Adds state s (s.fillRaw max).2 := by
  obtain ⟨k, b, calls, hf⟩ := s.fillRaw_frame max
  rw [hf]
  refine ⟨_, rfl, fun e he => ?_⟩
  obtain ⟨call, -, rfl⟩ := List.mem_map.1 (List.mem_reverse.1 he)
  rcases h with rfl | rfl <;> simp [Event.fits]

end Moves

variable [Engine σ ε] [Socket ω]

theorem processHandshake (s : Session σ ω ε)
    (h : state = .initialized ∨ state = .handshakeRead) : Adds state s s.processHandshake.2 := by
  have honce : Adds state s s.handshakeOnce.2 :=
    call rfl (by rcases h with rfl | rfl <;> rfl)
  rcases s.processHandshake_cases with ⟨e, -, he⟩ | ⟨progress, t, -, ht, hu⟩
  · rw [he]
    exact honce.trans ((silent (.fail _ _)).trans (flushBestEffort _))
  · rw [hu]
    have hsame : Adds state s.handshakeOnce.2 t := of_eq (by rw [ht])
    exact honce.trans (hsame.trans (silent (.setState _ _)))

theorem step (s : Session σ ω ε) : Adds s.state s s.step.2 := by
  have hstart : s.state = .initialized → Adds s.state s s.startEngine.2 := fun h =>
    call rfl (by rw [h]; rfl)
  have hfill : s.state = .handshakeRead → Adds s.state s (s.fillRaw maxRecordLength).2 := fun h =>
    fillRaw s _ (.inl h)
  generalize hr : s.step = r
  have hcase := s.step_case
  rw [hr] at hcase
  cases hcase with
  | startFailed _ h => exact (hstart h).trans (silent (.fail _ _))
  | started h =>
    have hready : Adds s.state s { s.startEngine.2 with handshakeComplete := false } :=
      (hstart h).trans (of_eq rfl)
    exact hready.trans (processHandshake _ (.inl h))
  | sent => exact (flushPending s).trans (silent (.setState _ _))
  | sendBlocked => exact flushPending s
  | sendFailed => exact (flushPending s).trans (silent (.fail _ _))
  | ended h => exact (hfill h).trans (silent (.fail _ _))
  | arrived _ h => exact (hfill h).trans (processHandshake _ (.inr h))
  | waits _ h => exact hfill h
  | receiveFailed _ h => exact (hfill h).trans (silent (.fail _ _))
  | finish =>
    rcases s.finishHandshake_cases with ⟨-, f, -, hf⟩ | ⟨-, v, -, hv⟩
    · rw [hf]
      exact silent (.fail _ _)
    · rw [hv]
      exact silent (.connectedAs _ _)
  | agreed => exact of_eq rfl
  | refused => exact silent (.fail _ _)

end Adds

/-! ## Turns -/

section Turning

variable [Engine σ ε] [Socket ω] {c : Call ω} {s t : Session σ ω ε}

open Session

/-- All that a turn adds fits the state it is made in. -/
theorem Turn.adds (h : Turn c s t) : Adds s.state s t := by
  have hcall : ∀ {u : Session σ ω ε} {call : EngineCall ε}, s.state = .connected →
      u.journal = .engine call :: s.journal →
      (Event.engine call).fits .connected = true → Adds s.state s u := by
    intro u call hs hj hfits
    exact .call hj (by rwa [hs])
  cases h with
  | bind k =>
    have hbound : Adds s.state s { s with socket := some k } := .of_eq rfl
    exact hbound.trans (.silent (.setState _ _))
  | nameServer | nameHost | outside | sawEnd | track | release => exact .of_eq rfl
  | step => exact .step s
  | decrypt h | encrypt _ h | notify _ h => exact hcall h rfl rfl
  | reopen h =>
    have hagain : Adds s.state s
        { s.decryptOnce.2 with renegotiations := s.renegotiations + 1 } := hcall h rfl rfl
    exact hagain.trans (.silent (.reopen _))
  | overrun h =>
    have hagain : Adds s.state s
        { s.decryptOnce.2 with renegotiations := s.renegotiations + 1 } := hcall h rfl rfl
    exact hagain.trans (.silent (.fail _ _))
  | resume h => exact .processHandshake s (.inr h)
  | fill h => exact .fillRaw s _ (.inr h)
  | sawClose =>
    have hnoted : Adds s.state (s.note .peerClosed)
        { s.note .peerClosed with peerClosed := true } := .of_eq rfl
    exact Adds.trans (.silent (.note s .peerClosed)) hnoted
  | withdraw => exact .silent (.setState _ _)
  | flush => exact .flushPending s
  | remark => exact .silent (.note _ _)
  | fail => exact .silent (.fail _ _)

theorem Turns.journal (h : Turns c s t) : s.journal <:+ t.journal := by
  induction h with
  | refl => exact List.suffix_refl _
  | tail _ hlast ih => exact ih.trans hlast.adds.suffix

end Turning

namespace Session

/-- The last thing that was done since was a socket call that would block. -/
def JustBlocked (s t : Session σ ω ε) : Prop := ∃ call older,
  t.journal = .socket call :: older ∧ call.blocks = true ∧ s.journal <:+ older

theorem JustBlocked.since {s t u : Session σ ω ε} (h : JustBlocked t u)
    (hs : s.journal <:+ t.journal) : JustBlocked s u := by
  obtain ⟨call, older, hj, hblocks, hold⟩ := h
  exact ⟨call, older, hj, hblocks, hs.trans hold⟩

section Moves

variable [Socket ω]

omit [Socket ω] in
/-- The journal after socket calls, when the last one is known. -/
theorem journal_of_last {first : List SocketCall} {last : SocketCall}
    (older : List (Event ε)) : ((first ++ [last]).map Event.socket).reverse ++ older =
      .socket last :: ((first.map Event.socket).reverse ++ older) := by
  simp

theorem flushPending_blocked {s t : Session σ ω ε} (h : s.flushPending = (.ok false, t)) :
    JustBlocked s t := by
  unfold flushPending at h
  cases hk : s.socket with
  | none => rw [hk] at h; cases h
  | some k =>
    simp only [hk, Prod.mk.injEq] at h
    obtain ⟨ha, rfl⟩ := h
    obtain ⟨first, last, hcalls, hblocks⟩ := drain_blocked s.pendingWrite k ha
    refine ⟨last, _, ?_, hblocks, List.suffix_append (first.map Event.socket).reverse s.journal⟩
    simp only [tellSocket, hcalls, journal_of_last]

/-- What reading adds to the journal: its answer stands at the front. -/
theorem fillRaw_reads {s t : Session σ ω ε} {max : Nat} {answer : Except IoError Bytes}
    (h : s.fillRaw max = (answer, t)) : s.socket = none ∧ t = s ∨
    ∃ first : List SocketCall, t.journal = .socket (.read max answer) ::
        ((first.map Event.socket).reverse ++ s.journal) ∧
      ∀ call ∈ first, ∃ e, call = .read max (.error e) := by
  unfold fillRaw at h
  cases hk : s.socket with
  | none =>
    simp only [hk, Prod.mk.injEq] at h
    exact .inl ⟨rfl, h.2.symm⟩
  | some k =>
    simp only [hk, Prod.mk.injEq] at h
    obtain ⟨rfl, rfl⟩ := h
    obtain ⟨first, hcalls, hfirst⟩ := fill_reads s.rawRead k max
    refine .inr ⟨first, ?_, hfirst⟩
    simp only [tellSocket, hcalls, journal_of_last]

end Moves

end Session
end TlsTransport
