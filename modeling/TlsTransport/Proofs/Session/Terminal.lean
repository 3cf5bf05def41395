import TlsTransport.Proofs.Session.Entries
import TlsTransport.Script.Engine
import TlsTransport.Script.Socket

/-! # Sessions that are over

A session that failed or was closed does nothing any more, whatever is asked of it: it makes no call
to its engine or its socket, it refuses every call, and it hands out what was decrypted before. A
session that is closing can still write, and leads nowhere else.

* `SessionState.isOver`: the two states that no session leaves.
* `Inert`: what happens between two moments of a session that is over.
* `Session.Declines`: how such a session answers each call.
* `Session.Winding`: what happens from `closing` on.
-/

namespace TlsTransport

variable {σ ω ε : Type}

namespace SessionState

/-- Whether a session failed or is closed. -/
def isOver : SessionState → Bool
  | closed | error => true
  | _ => false

theorem isOver_iff {state : SessionState} :
    state.isOver = true ↔ state = .closed ∨ state = .error := by
  cases state <;> simp [isOver]

end SessionState

/-! ## Nothing is done -/

/-- Nothing was done in between but to record failures and to hand out these bytes from the front of
the plaintext. -/
structure Inert (handed : Bytes) (s t : Session σ ω ε) : Prop where
  state : t.state = s.state
  engine : t.engine = s.engine
  pendingWrite : t.pendingWrite = s.pendingWrite
  rawRead : t.rawRead = s.rawRead
  plaintext : handed ++ t.plaintext.data = s.plaintext.data
  journal : ∃ failures : List (Failure ε),
    t.journal = failures.map (fun f => .notice (.failed s.state f)) ++ s.journal

namespace Inert

variable {s t u : Session σ ω ε} {first second : Bytes}

theorem refl (s : Session σ ω ε) : Inert [] s s := ⟨rfl, rfl, rfl, rfl, rfl, [], rfl⟩

theorem trans (h : Inert first s t) (k : Inert second t u) : Inert (first ++ second) s u := by
  obtain ⟨older, holder⟩ := h.journal
  obtain ⟨newer, hnewer⟩ := k.journal
  refine ⟨k.state.trans h.state, k.engine.trans h.engine, k.pendingWrite.trans h.pendingWrite,
    k.rawRead.trans h.rawRead, ?_, newer ++ older, ?_⟩
  · rw [List.append_assoc, k.plaintext, h.plaintext]
  · rw [hnewer, holder, h.state, List.map_append, List.append_assoc]

theorem fail (h : s.state.isOver = true) (f : Failure ε) : Inert [] s (s.fail f) := by
  have hover := SessionState.isOver_iff.1 h
  rw [Session.fail_eq]
  refine ⟨?_, rfl, rfl, rfl, rfl, [f], ?_⟩
  · rcases hover with hs | hs <;> simp [hs]
  · simp [hover]

theorem takePlaintext (s : Session σ ω ε) (max : Nat) :
    Inert (s.plaintext.data.take max) s (s.takePlaintext max).2 :=
  ⟨rfl, rfl, rfl, rfl, List.take_append_drop max _, [], rfl⟩

end Inert

namespace Session

/-! ## Every call is declined -/

/-- How a session that is over answers a call, by its state and by the plaintext that is left. -/
def Declines (s : Session σ ω ε) : Call ω → Answer → Prop
  | .init _, a | .setServerName _, a => ∃ e, a = .setUp (.error e)
  | .connect _, a | .accept, a => ∃ text, a = .agreed (.error text)
  | .write _, a => a = .wrote (.error ())
  | .read max, a => 0 < max → a = .got
      (if s.plaintext.data ≠ [] then .ok (s.plaintext.data.take max)
      else if s.state = .closed then .ok [] else .error ())
  | .close, a => a = .closed (if s.state = .closed then .ok () else .error ())
  | .outside _, a => a = .nothing

variable [Engine σ ε] [Socket ω] {s : Session σ ω ε}

theorem handshakeStatus_over (h : s.state.isOver = true) :
    (∃ text, s.handshakeStatus.1 = .error text) ∧ Inert [] s s.handshakeStatus.2 := by
  rcases SessionState.isOver_iff.1 h with hs | hs
  · simp only [handshakeStatus, hs]
    exact ⟨⟨_, rfl⟩, .fail h _⟩
  · simp only [handshakeStatus, hs]
    exact ⟨⟨_, rfl⟩, .refl s⟩

theorem connect_over (h : s.state.isOver = true) (host : String) :
    (∃ text, (s.connect host).1 = .error text) ∧ Inert [] s (s.connect host).2 := by
  have hno : ¬(s.hostname = none ∧ s.state = .initialized) := fun hi => by
    rw [hi.2] at h
    cases h
  unfold connect
  split
  · exact ⟨⟨_, rfl⟩, .fail h _⟩
  · simp only
    exact handshakeStatus_over h

theorem accept_over (h : s.state.isOver = true) :
    (∃ text, s.accept.1 = .error text) ∧ Inert [] s s.accept.2 := by
  unfold accept
  split
  · exact ⟨⟨_, rfl⟩, .fail h _⟩
  · exact handshakeStatus_over h

theorem writeData_over (h : s.state.isOver = true) (payload : Bytes) :
    (s.writeData payload).1 = .error () ∧ Inert [] s (s.writeData payload).2 := by
  rcases SessionState.isOver_iff.1 h with hs | hs
  · simp only [writeData, hs, SessionState.inHandshake]
    exact ⟨rfl, .fail h _⟩
  · simp only [writeData, hs, SessionState.inHandshake]
    exact ⟨rfl, .refl s⟩

theorem readData_over (h : s.state.isOver = true) (max : Nat) :
    s.Declines (.read max) (.got (s.readData max).1) ∧
      Inert (Answer.handed (.got (s.readData max).1)) s (s.readData max).2 := by
  rcases Nat.eq_zero_or_pos max with rfl | hmax
  · exact ⟨fun hm => absurd hm (Nat.lt_irrefl 0), .refl s⟩
  have hmax : ¬max = 0 := Nat.ne_of_gt hmax
  by_cases hp : s.plaintext.data = []
  · have he : s.plaintext.isEmpty = true := s.plaintext.isEmpty_iff.2 hp
    rcases SessionState.isOver_iff.1 h with hs | hs
    · simp only [readData, hmax, he, hs, SessionState.inHandshake, Declines, hp]
      exact ⟨fun _ => rfl, .refl s⟩
    · simp only [readData, hmax, he, hs, SessionState.inHandshake, Declines, hp]
      exact ⟨fun _ => rfl, .refl s⟩
  · have he : s.plaintext.isEmpty = false := by
      cases hb : s.plaintext.isEmpty with
      | false => rfl
      | true => exact absurd (s.plaintext.isEmpty_iff.1 hb) hp
    have hread : s.readData max = s.takePlaintext max := by
      simp [readData, hmax, he]
    rw [hread]
    refine ⟨fun _ => ?_, .takePlaintext s max⟩
    rw [if_pos hp]
    rfl

theorem close_over (h : s.state.isOver = true) :
    s.Declines .close (.closed s.close.1) ∧ Inert [] s s.close.2 := by
  rcases SessionState.isOver_iff.1 h with hs | hs
  · simp only [close, hs, Declines]
    exact ⟨rfl, .refl s⟩
  · simp only [close, hs, Declines]
    exact ⟨rfl, .refl s⟩

/-- One call. -/
theorem perform_over (h : s.state.isOver = true) (c : Call ω) :
    s.Declines c (s.perform c).1 ∧ Inert (s.perform c).1.handed s (s.perform c).2 := by
  cases c with
  | init k =>
    have hno : ¬s.state = .constructed := fun hs => by rw [hs] at h; cases h
    simp only [perform, init, if_neg hno]
    exact ⟨⟨_, rfl⟩, .refl s⟩
  | setServerName name =>
    have hno : s.state ≠ .initialized := fun hs => by rw [hs] at h; cases h
    simp only [perform, setServerName, if_pos hno]
    split <;> exact ⟨⟨_, rfl⟩, .refl s⟩
  | connect host =>
    obtain ⟨⟨text, ha⟩, ht⟩ := connect_over h host
    exact ⟨⟨text, congrArg Answer.agreed ha⟩, ht⟩
  | accept =>
    obtain ⟨⟨text, ha⟩, ht⟩ := accept_over h
    exact ⟨⟨text, congrArg Answer.agreed ha⟩, ht⟩
  | write payload =>
    obtain ⟨ha, ht⟩ := writeData_over h payload
    exact ⟨congrArg Answer.wrote ha, ht⟩
  | read max => exact readData_over h max
  | close => exact close_over h
  | outside change => exact ⟨rfl, rfl, rfl, rfl, rfl, rfl, [], rfl⟩

/-- Any number of calls. -/
theorem run_over (h : s.state.isOver = true) (later : List (Call ω)) :
    Inert ((s.run later).1.flatMap Answer.handed) s (s.run later).2 := by
  induction later generalizing s with
  | nil => exact .refl s
  | cons c later ih =>
    obtain ⟨-, hcall⟩ := perform_over h c
    exact hcall.trans (ih (by rw [hcall.state]; exact h))

/-! ## Closing -/

/-- From `closing` on: the session is closing or over, and its engine was not called. -/
structure Winding (s t : Session σ ω ε) : Prop where
  state : t.state = .closing ∨ t.state.isOver = true
  engine : t.engine = s.engine
  journal : ∃ newer, t.journal = newer ++ s.journal ∧ ∀ call, Event.engine call ∉ newer

end Session

namespace Session.Winding

variable {s t u : Session σ ω ε}

theorem refl (h : s.state = .closing ∨ s.state.isOver = true) : Winding s s :=
  ⟨h, rfl, [], rfl, by simp⟩

theorem trans (h : Winding s t) (k : Winding t u) : Winding s u := by
  obtain ⟨older, holder, hquiet⟩ := h.journal
  obtain ⟨newer, hnewer, hsilent⟩ := k.journal
  refine ⟨k.state, k.engine.trans h.engine, newer ++ older, ?_, fun call hcall => ?_⟩
  · rw [hnewer, holder, List.append_assoc]
  · rcases List.mem_append.1 hcall with hcall | hcall
    · exact hsilent call hcall
    · exact hquiet call hcall

variable [Engine σ ε] [Socket ω] {c : Call ω}

/-- No turn that calls the engine is open to a session that is closing or over. -/
theorem turn (hs : s.state = .closing ∨ s.state.isOver = true) (h : Turn c s t) :
    Winding s t := by
  have hquiet : ∀ {state : SessionState}, s.state = state → state ≠ .closing →
      state.isOver = false → False := by
    rintro state rfl hclosing hover
    rcases hs with hs | hs
    · exact hclosing hs
    · rw [hover] at hs
      cases hs
  cases h with
  | bind _ h | nameServer _ h | nameHost _ _ h | resume h | decrypt h | reopen h | overrun h
  | fill h | sawEnd h | sawClose h | encrypt _ h | track _ h | release h | notify _ h =>
    exact (hquiet h (by simp) rfl).elim
  | step h =>
    exfalso
    rcases h with h | ⟨h, -⟩
    · rcases hs with hs | hs
      · rw [hs] at h
        cases h
      · rcases SessionState.isOver_iff.1 hs with hs | hs <;> rw [hs] at h <;> cases h
    · exact hquiet h (by simp) rfl
  | outside => exact ⟨hs, rfl, [], rfl, by simp⟩
  | remark n => exact ⟨hs, rfl, [.notice n], rfl, by simp⟩
  | withdraw _ _ hnext =>
    obtain ⟨notices, hj⟩ := (Silent.setState s _).journal
    refine ⟨?_, by rw [setState_eq], _, hj, by simp⟩
    rw [state_setState]
    exact hnext.elim .inl fun hn => .inr (by rw [hn]; rfl)
  | flush =>
    obtain ⟨k, b, calls, hf⟩ := s.flushPending_frame
    rw [hf]
    exact ⟨hs, rfl, _, rfl, by simp⟩
  | fail f =>
    refine ⟨.inr ?_, ?_, ?_⟩
    · rcases s.fail_state f with hf | ⟨hf, -⟩ <;> rw [hf] <;> rfl
    · rw [fail_eq]
    · -- Failing only adds notices.
      obtain ⟨notices, hj⟩ := (Silent.fail s f).journal
      exact ⟨_, hj, by simp⟩

theorem turns (hs : s.state = .closing ∨ s.state.isOver = true) (h : Turns c s t) :
    Winding s t := by
  induction h with
  | refl => exact .refl hs
  | tail _ hlast ih => exact ih.trans (.turn ih.state hlast)

theorem perform (hs : s.state = .closing ∨ s.state.isOver = true) (c : Call ω) :
    Winding s (s.perform c).2 := by
  obtain ⟨t, ht, hout⟩ := s.perform_turns c
  obtain ⟨hstate, hengine, hjournal⟩ := turns hs ht
  rw [hout.frame]
  exact ⟨hstate, hengine, hjournal⟩

theorem run (hs : s.state = .closing ∨ s.state.isOver = true) (later : List (Call ω)) :
    Winding s (s.run later).2 := by
  induction later generalizing s with
  | nil => exact .refl hs
  | cons c later ih =>
    have hcall := perform hs c
    exact hcall.trans (ih hcall.state)

end Session.Winding

namespace Session

variable [Engine σ ε] [Socket ω]

omit [Engine σ ε] in
theorem finishClose_ok {s : Session σ ω ε} (h : s.finishClose.1 = .ok ()) :
    s.finishClose.2.state = .closed := by
  unfold finishClose at h ⊢
  rcases hf : s.flushPending with ⟨answer, t⟩
  rw [hf] at h
  rcases answer with e | _ | _
  · cases h
  · cases h
  · exact state_setState ..

/-- Closing answers well on a closed session only. -/
theorem close_ok {s : Session σ ω ε} (h : s.close.1 = .ok ()) : s.close.2.state = .closed := by
  unfold close at h ⊢
  by_cases hconn : s.state = .connected
  · rw [if_pos hconn] at h ⊢
    rcases hn : s.notifyClose with ⟨answer, t⟩
    rw [hn] at h
    cases answer with
    | error e => cases h
    | ok _ => exact finishClose_ok h
  rw [if_neg hconn] at h ⊢
  by_cases hclosing : s.state = .closing
  · rw [if_pos hclosing] at h ⊢
    exact finishClose_ok h
  rw [if_neg hclosing] at h ⊢
  by_cases hclosed : s.state = .closed
  · rw [if_pos hclosed]
    exact hclosed
  rw [if_neg hclosed] at h
  split at h <;> cases h

/-! ## For good -/

/-- A session that is over stays as it is through all later calls, and declines each of them; a
closing one closes or fails and leaves its engine alone; after it was closed nothing is written. -/
theorem over_for_good (s : Session σ ω ε) (later : List (Call ω)) :
    (s.state = .closed ∨ s.state = .error →
      Inert ((s.run later).1.flatMap Answer.handed) s (s.run later).2 ∧
        ∀ c, (s.run later).2.Declines c ((s.run later).2.perform c).1) ∧
    (s.state = .closing → Winding s (s.run later).2) ∧
    (s.close.1 = .ok () → ∀ payload, ((s.close.2.run later).2.writeData payload).1 = .error ()) := by
  refine ⟨fun h => ?_, fun h => .run (.inl h) later, fun h payload => ?_⟩
  · have hover : s.state.isOver = true := SessionState.isOver_iff.2 h
    have hrun := run_over hover later
    refine ⟨hrun, fun c => ?_⟩
    exact (perform_over (by rw [hrun.state]; exact hover) c).1
  · have hclosed : s.close.2.state.isOver = true := by rw [close_ok h]; rfl
    have hrun := run_over hclosed later
    exact (writeData_over (by rw [hrun.state]; exact hclosed) payload).1

/-- A connected client that was sent three bytes and read one of them, over a socket that answers
its writes like this. -/
def partingClient (writes : List (Except IoError Nat)) :
    Session (ScriptedEngine true) ScriptedSocket String :=
  ((ofEngine ⟨⟨16, some .tls13, none, none, [], [], [], [], [], []⟩⟩ .client true .default).run
    [.init (.ofScript [.ok [1, 2, 3]] writes []), .connect "localhost", .read 1]).2

/-- Closed, closing and about to be closed: each time with two bytes that were not read. -/
theorem partingClient_parts :
    let closed := (partingClient []).close.2
    let closing := (partingClient [.error (.bare .wouldBlock)]).close.2
    let later := [.write [0], .read 1, .connect "localhost", .read 5, .close]
    ((closed.state = .closed ∧ closed.plaintext.data = [2, 3]) ∧
      Inert ((closed.run later).1.flatMap Answer.handed) closed (closed.run later).2 ∧
      ∀ c, (closed.run later).2.Declines c ((closed.run later).2.perform c).1) ∧
    (closing.state = .closing ∧ Winding closing (closing.run later).2) ∧
    ((partingClient []).close.1 = .ok () ∧
      ∀ payload, ((closed.run later).2.writeData payload).1 = .error ()) := by
  intro closed closing later
  have hclosed : closed.state = .closed := by decide +kernel
  have hclosing : closing.state = .closing := by decide +kernel
  have hok : (partingClient []).close.1 = .ok () := by decide +kernel
  exact ⟨⟨⟨hclosed, by decide +kernel⟩, (over_for_good closed later).1 (.inl hclosed)⟩,
    ⟨hclosing, (over_for_good closing later).2.1 hclosing⟩,
    ⟨hok, (over_for_good (partingClient []) later).2.2 hok⟩⟩

end Session
end TlsTransport
