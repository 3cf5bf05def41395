import TlsTransport.Proofs.Session.Agreement

/-! # The order of engine calls

An engine is driven from five operations and from loops within them. Still its calls come in an order
that can be read off the journal alone: what was called before, and with what answer, decides what
may be called next.

* `stateOf`, `underWay`: the state and whether a handshake is under way, as the journal tells it.
* `MayFollow`: what a journal admits as the next call, and `Proper`, that every call was admitted.
* `Disciplined`: what is known of the engine in each state; advances keep it.
* `Passes.serves`, `Follows.served`: at which moments a connected session uses its engine.
* `Session.engine_disciplined`: every call of every run was admitted.
-/

namespace TlsTransport

variable {σ ω ε : Type}

/-! ## What a journal tells -/

/-- The state that an entry leads to. -/
def Event.state? : Event ε → Option SessionState
  | .notice (.stateChanged _ next) => some next
  | _ => none

/-- The state that a journal ends in. -/
def stateOf : List (Event ε) → SessionState := latest Event.state? .constructed

/-- Whether an entry begins a handshake or ends one. -/
def Event.underWay? : Event ε → Option Bool
  | .engine (.start _ _) => some true
  | .engine (.decrypt _ _ _ (.ok .renegotiate)) => some true
  | .notice (.stateChanged _ .connected) => some false
  | _ => none

theorem Event.underWay?_changed {before next : SessionState} (h : next ≠ .connected) :
    (Event.notice (.stateChanged before next) : Event ε).underWay? = none := by
  cases next with
  | connected => exact absurd rfl h
  | _ => rfl

/-- Whether the handshake that was begun last has not connected the session. -/
def underWay : List (Event ε) → Bool := latest Event.underWay? false

/-- Whether an engine call failed. -/
def EngineCall.failed : EngineCall ε → Bool
  | start _ (.error _) => true
  | handshake _ _ (.error _) => true
  | encrypt _ _ (.error _) => true
  | decrypt _ _ _ (.error _) => true
  | closeNotify _ (.error _) => true
  | _ => false

/-- Whether an engine call says that no more data follows. -/
def EngineCall.parts : EngineCall ε → Bool
  | closeNotify _ _ => true
  | _ => false

/-- Whether an engine call is one for a connected session. -/
def EngineCall.serves : EngineCall ε → Bool
  | encrypt _ _ _ => true
  | decrypt _ _ _ _ => true
  | closeNotify _ _ => true
  | _ => false

/-- Whether an entry is an engine call. -/
def Event.isCall : Event ε → Bool
  | .engine _ => true
  | _ => false

/-- Whether an entry is an engine call for a connected session. -/
def Event.isService : Event ε → Bool
  | .engine call => call.serves
  | _ => false

theorem Event.not_service {state : SessionState} {e : Event ε} (he : e.fits state = true)
    (hs : state ≠ .connected) : e.isService = false := by
  rcases e with call | _ | _
  · cases call with
    | start | handshake => rfl
    | encrypt | decrypt | closeNotify =>
      have hstate : state = .connected := by simpa [Event.fits] using he
      exact absurd hstate hs
  · rfl
  · rfl

theorem suffix_of_quiet {p : Event ε → Bool} {newer older base : List (Event ε)} {e : Event ε}
    (hnewer : ∀ e' ∈ newer, p e' = false) (he : p e = true)
    (h : e :: older <:+ newer ++ base) : e :: older <:+ base := by
  induction newer with
  | nil => exact h
  | cons e' newer ih =>
    rcases List.suffix_cons_iff.1 h with heq | hrest
    · injection heq with heq _
      rw [heq, hnewer e' List.mem_cons_self] at he
      cases he
    · exact ih (fun e'' he'' => hnewer e'' (List.mem_cons_of_mem e' he'')) hrest

/-! ## What may be called -/

/-- The engine was started, no call of it failed, and it has not said that no more data follows. -/
structure Usable (journal : List (Event ε)) : Prop where
  started : ∃ name, Event.engine (.start name (.ok ())) ∈ journal
  sound : ∀ call, Event.engine call ∈ journal → call.failed = false ∧ call.parts = false

/-- The engine serves a connected session with no handshake under way. -/
structure Serving (journal : List (Event ε)) : Prop where
  usable : Usable journal
  state : stateOf journal = .connected
  idle : underWay journal = false

/-- The call may come next. Nothing comes before the start; a handshake call is for a handshake that
is under way and that the engine has not called complete; the rest is for a connected session. Nothing
comes after a call that failed or that said that no more data follows. -/
def MayFollow (older : List (Event ε)) : EngineCall ε → Prop
  | .start _ _ => ∀ call, Event.engine call ∉ older
  | .handshake _ _ _ => Usable older ∧ underWay older = true ∧ answeredComplete older = false
  | .encrypt _ _ _ => Serving older
  | .decrypt _ _ _ _ => Serving older
  | .closeNotify _ _ => Serving older

/-- Every call was admitted by what came before. -/
def Proper (journal : List (Event ε)) : Prop :=
  ∀ call older, .engine call :: older <:+ journal → MayFollow older call

section Journal

variable {older : List (Event ε)} {c : EngineCall ε} {s t : Session σ ω ε}

theorem Proper.call (h : Proper older) (ha : MayFollow older c) : Proper (.engine c :: older) := by
  intro call' older' hsuffix
  rcases List.suffix_cons_iff.1 hsuffix with heq | hsuffix
  · injection heq with hcall hold
    injection hcall with hcall
    rw [hcall, hold]
    exact ha
  · exact h call' older' hsuffix

theorem Proper.grows (h : Proper s.journal) (k : Grows (fun e => e.isCall = false) s t) :
    Proper t.journal := by
  obtain ⟨newer, hj, hquiet⟩ := k
  intro call older hsuffix
  rw [hj] at hsuffix
  exact h call older (suffix_of_quiet hquiet rfl hsuffix)

theorem Grows.call_mem (k : Grows (fun e => e.isCall = false) s t) :
    Event.engine c ∈ t.journal ↔ Event.engine c ∈ s.journal := by
  obtain ⟨newer, hj, hquiet⟩ := k
  rw [hj, List.mem_append]
  constructor
  · rintro (hmem | hmem)
    · have hno := hquiet _ hmem
      cases hno
    · exact hmem
  · exact .inr

theorem Usable.grows (h : Usable s.journal) (k : Grows (fun e => e.isCall = false) s t) :
    Usable t.journal := by
  obtain ⟨name, hstart⟩ := h.started
  exact ⟨⟨name, k.call_mem.2 hstart⟩, fun call hmem => h.sound call (k.call_mem.1 hmem)⟩

theorem Usable.call (h : Usable older) (hf : c.failed = false) (hp : c.parts = false) :
    Usable (.engine c :: older) := by
  obtain ⟨name, hstart⟩ := h.started
  refine ⟨⟨name, List.mem_cons_of_mem _ hstart⟩, fun call' hmem => ?_⟩
  rcases List.mem_cons.1 hmem with heq | hmem
  · injection heq with heq
    rw [heq]
    exact ⟨hf, hp⟩
  · exact h.sound call' hmem

theorem Usable.start (h : ∀ call, Event.engine call ∉ older) (name : Option String) :
    Usable (.engine (.start name (.ok ())) :: older) := by
  refine ⟨⟨name, List.mem_cons_self⟩, fun call hmem => ?_⟩
  rcases List.mem_cons.1 hmem with heq | hmem
  · injection heq with heq
    rw [heq]
    exact ⟨rfl, rfl⟩
  · exact absurd hmem (h call)

theorem Serving.grows (h : Serving s.journal) (k : Grows (fun e => e.isCall = false ∧
    e.state? = none ∧ e.underWay? = none) s t) : Serving t.journal where
  usable := h.usable.grows (k.mono fun _ he => he.1)
  state := ((k.mono fun _ he => he.2.1).latest SessionState.constructed).trans h.state
  idle := ((k.mono fun _ he => he.2.2).latest false).trans h.idle

theorem Serving.call (h : Serving older) (hf : c.failed = false) (hp : c.parts = false)
    (hu : (Event.engine c).underWay? = none) : Serving (.engine c :: older) where
  usable := h.usable.call hf hp
  state := h.state
  idle := by
    rw [underWay, latest, hu]
    exact h.idle

end Journal

namespace Session

/-- A session goes back to reading only if the engine has not called the handshake complete. -/
theorem next_read {s : Session σ ω ε} (h : s.nextHandshakeState = .handshakeRead) :
    s.handshakeComplete = false := by
  unfold nextHandshakeState at h
  cases hc : s.handshakeComplete with
  | false => rfl
  | true =>
    rw [hc] at h
    split at h <;> cases h

section Entries

variable [Engine σ ε] {s t : Session σ ω ε}

theorem encryptOnce_entry {chunk : Bytes} {answer : Except ε Unit}
    (h : s.encryptOnce chunk = (answer, t)) :
    (∃ moved, t.journal = .engine (.encrypt chunk moved answer) :: s.journal) ∧
    t.state = s.state := by
  unfold encryptOnce at h
  injection h with hanswer ht
  subst ht hanswer
  exact ⟨⟨_, rfl⟩, rfl⟩

theorem decryptOnce_entry {answer : Except ε DecryptStop} (h : s.decryptOnce = (answer, t)) :
    (∃ size plain moved, t.journal = .engine (.decrypt size plain moved answer) :: s.journal) ∧
    t.state = s.state := by
  unfold decryptOnce at h
  injection h with hanswer ht
  subst ht hanswer
  exact ⟨⟨_, _, _, rfl⟩, rfl⟩

theorem notifyClose_entry {answer : Except ε Unit} (h : s.notifyClose = (answer, t)) :
    (∃ moved, t.journal = .engine (.closeNotify moved answer) :: s.journal) ∧
    t.state = s.state := by
  unfold notifyClose at h
  injection h with hanswer ht
  subst ht hanswer
  exact ⟨⟨_, rfl⟩, rfl⟩

end Entries

/-! ## The state -/

/-- The journal tells the state of the session. -/
def Tracked (s : Session σ ω ε) : Prop := stateOf s.journal = s.state

namespace Tracked

variable {s t : Session σ ω ε}

theorem keep (h : Tracked s) (hs : t.state = s.state)
    (hj : Grows (fun e => e.state? = none) s t) : Tracked t := by
  rw [Tracked, hs, ← h]
  exact hj.latest SessionState.constructed

theorem one {e : Event ε} (h : Tracked s) (hs : t.state = s.state)
    (hj : t.journal = e :: s.journal) (he : e.state? = none) : Tracked t := h.keep hs (.one hj he)

theorem setState (h : Tracked s) (next : SessionState) : Tracked (s.setState next) := by
  rw [Tracked, setState_eq]
  by_cases hs : s.state = next
  · simp only [if_pos hs]
    exact Eq.trans h hs
  · simp only [if_neg hs]
    rfl

theorem fail (h : Tracked s) (f : Failure ε) : Tracked (s.fail f) := by
  have hnoted : Tracked { s.note (.failed s.state f) with
      lastFailure := some f, inFlight := none } := h.one rfl rfl rfl
  unfold Session.fail
  simp only
  split
  · exact hnoted
  · exact hnoted.setState _

theorem connectedAs [Engine σ ε] (h : Tracked s) (v : TlsVersion) : Tracked (s.connectedAs v) := by
  obtain ⟨remarks, hremarks, hframe⟩ := s.connectedAs_frame v
  have hnone : ∀ e ∈ remarks.map Event.notice, e.state? = none := by
    intro e he
    obtain ⟨n, hn, rfl⟩ := List.mem_map.1 he
    rcases hremarks n hn with rfl | rfl | rfl <;> rfl
  rw [Tracked, hframe]
  by_cases hs : s.state = .connected
  · simp only [if_pos hs]
    exact (latest_of_none hnone _ _).trans (Eq.trans h hs)
  · simp only [if_neg hs]
    rfl

section Moves

variable [Socket ω]

theorem flushPending (h : Tracked s) : Tracked s.flushPending.2 :=
  h.keep s.state_flushPending (.flushPending (fun _ => rfl) s)

theorem flushBestEffort (h : Tracked s) : Tracked s.flushBestEffort :=
  h.keep s.state_flushBestEffort (.flushBestEffort (fun _ => rfl) s)

theorem fillRaw (h : Tracked s) (max : Nat) : Tracked (s.fillRaw max).2 :=
  h.keep (s.state_fillRaw max) (.fillRaw (fun _ => rfl) s max)

variable [Engine σ ε]

theorem processHandshake (h : Tracked s) : Tracked s.processHandshake.2 := by
  have honce : Tracked s.handshakeOnce.2 := h.one rfl rfl rfl
  rcases s.processHandshake_cases with ⟨e, -, he⟩ | ⟨progress, t, -, ht, hu⟩
  · rw [he]
    exact (honce.fail _).flushBestEffort
  · have hflag : Tracked t := by
      rw [ht]
      exact honce
    rw [hu]
    exact hflag.setState _

theorem step (h : Tracked s) : Tracked s.step.2 := by
  have hstart : Tracked s.startEngine.2 := h.one rfl rfl rfl
  generalize hr : s.step = r
  have hcase := s.step_case
  rw [hr] at hcase
  cases hcase with
  | startFailed => exact hstart.fail _
  | started =>
    have hready : Tracked { s.startEngine.2 with handshakeComplete := false } := hstart
    exact hready.processHandshake
  | sent => exact h.flushPending.setState _
  | sendBlocked => exact h.flushPending
  | sendFailed => exact h.flushPending.fail _
  | ended | receiveFailed => exact (h.fillRaw _).fail _
  | arrived => exact (h.fillRaw _).processHandshake
  | waits => exact h.fillRaw _
  | finish =>
    rcases s.finishHandshake_cases with ⟨-, f, -, hf⟩ | ⟨-, v, -, hv⟩
    · rw [hf]
      exact h.fail f
    · rw [hv]
      exact h.connectedAs v
  | agreed => exact h
  | refused => exact h.fail _

theorem passes (h : Tracked s) (k : Passes s t) : Tracked t := by
  have hcall : Tracked s.decryptOnce.2.asked := h.one rfl rfl rfl
  cases k with
  | handing => exact h
  | turn hturn =>
    cases hturn with
    | bind k =>
      have hbound : Tracked { s with socket := some k } := h
      exact hbound.setState _
    | nameServer | nameHost | outside | sawEnd | track | release => exact h
    | step => exact h.step
    | decrypt | encrypt | notify => exact h.one rfl rfl rfl
    | reopen =>
      have hagain : Tracked { s.decryptOnce.2.asked.note
          (.renegotiationRequested s.decryptOnce.2.asked.renegotiations) with
          renegotiating := true, handshakeComplete := false } := hcall.one rfl rfl rfl
      exact hagain.setState .handshakeRead
    | overrun => exact hcall.fail _
    | resume => exact h.processHandshake
    | fill => exact h.fillRaw _
    | sawClose => exact h.one rfl rfl rfl
    | withdraw => exact h.setState _
    | flush => exact h.flushPending
    | remark n hn => exact h.one rfl rfl (by cases n <;> first | rfl | cases hn)
    | fail f => exact h.fail f

theorem follows (h : Tracked s) (k : Follows s t) : Tracked t := by
  induction k with
  | refl => exact h
  | tail _ hlast ih => exact ih.passes hlast

end Moves
end Tracked

/-! ## What is known in each state -/

/-- The calls so far came in order. Before the first handshake call there were none, a live session
can use its engine, and the journal tells whether a handshake is under way. -/
structure Disciplined (s : Session σ ω ε) : Prop where
  calls : Proper s.journal
  unused : s.state.begun = false → ∀ call, Event.engine call ∉ s.journal
  usable : s.state.live = true → Usable s.journal
  shaking : s.state.inHandshake = true → underWay s.journal = true
  reading : s.state = .handshakeRead → s.handshakeComplete = false
  connected : s.state = .connected → underWay s.journal = false

namespace Disciplined

variable {s t : Session σ ω ε}

/-- Outside of a handshake and of a connection the engine is not used. -/
theorem of_idle (h : Proper s.journal) (hs : s.state.live = false)
    (hnone : s.state.begun = false → ∀ call, Event.engine call ∉ s.journal) : Disciplined s := by
  refine ⟨h, hnone, fun hl => ?_, fun hin => ?_, fun hread => ?_, fun hconn => ?_⟩
  · rw [hs] at hl
    cases hl
  · rw [SessionState.live_of_inHandshake hin] at hs
    cases hs
  · rw [hread] at hs
    cases hs
  · rw [hconn] at hs
    cases hs

theorem of_spent (h : Proper s.journal) (hs : s.Spent) : Disciplined s := by
  apply of_idle h hs.2
  intro hb
  rw [hs.1] at hb
  cases hb

/-- Going on with a handshake. -/
theorem enter {next : SessionState} (h : Proper s.journal) (hu : Usable s.journal)
    (hway : underWay s.journal = true) (hnext : next.inHandshake = true)
    (hread : next = .handshakeRead → s.handshakeComplete = false) :
    Disciplined (s.setState next) := by
  have hset : Grows (fun e => e.isCall = false ∧ e.underWay? = none) s (s.setState next) := by
    apply Grows.setState
    refine ⟨rfl, Event.underWay?_changed ?_⟩
    rintro rfl
    cases hnext
  have hcalls : Grows (fun e => e.isCall = false) s (s.setState next) := hset.mono fun _ he => he.1
  refine ⟨h.grows hcalls, fun hb => ?_, fun _ => hu.grows hcalls, fun _ => ?_, ?_, fun hc => ?_⟩
  · rw [state_setState, SessionState.begun_of_inHandshake hnext] at hb
    cases hb
  · exact ((hset.mono fun _ he => he.2).latest false).trans hway
  · rw [state_setState, setState_eq]
    exact hread
  · rw [state_setState] at hc
    rw [hc] at hnext
    cases hnext

theorem of_connected (h : Proper s.journal) (hu : Usable s.journal)
    (hidle : underWay s.journal = false) (hs : s.state = .connected) : Disciplined s := by
  refine ⟨h, fun hb => ?_, fun _ => hu, fun hin => ?_, fun hread => ?_, fun _ => hidle⟩
  · rw [hs] at hb
    cases hb
  · rw [hs] at hin
    cases hin
  · rw [hs] at hread
    cases hread

theorem serving (h : Disciplined s) (ht : Tracked s) (hs : s.state = .connected) :
    Serving s.journal :=
  ⟨h.usable (by rw [hs]; rfl), Eq.trans ht hs, h.connected hs⟩

/-- Nothing happens to the engine, the state or the handshake. -/
theorem keep (h : Disciplined s) (hs : t.state = s.state)
    (hc : t.handshakeComplete = s.handshakeComplete)
    (k : Grows (fun e => e.isCall = false ∧ e.underWay? = none) s t) : Disciplined t := by
  have hcalls : Grows (fun e => e.isCall = false) s t := k.mono fun _ he => he.1
  have hway : underWay t.journal = underWay s.journal :=
    (k.mono fun _ he => he.2).latest false
  refine ⟨h.calls.grows hcalls, ?_, ?_, ?_, ?_, ?_⟩
  · rw [hs]
    intro hb call hmem
    exact h.unused hb call (hcalls.call_mem.1 hmem)
  · rw [hs]
    exact fun hl => (h.usable hl).grows hcalls
  · rw [hs, hway]
    exact h.shaking
  · rw [hs, hc]
    exact h.reading
  · rw [hs, hway]
    exact h.connected

theorem fail (h : Disciplined s) (f : Failure ε) : Disciplined (s.fail f) :=
  of_spent (h.calls.grows (.fail s rfl rfl)) (s.fail_spent f)

/-- A call after which the session fails was in order, too. -/
theorem failed {c : EngineCall ε} (h : Disciplined s) (hj : t.journal = .engine c :: s.journal)
    (hc : MayFollow s.journal c) (f : Failure ε) : Disciplined (t.fail f) := by
  have hproper : Proper t.journal := by
    rw [hj]
    exact h.calls.call hc
  exact of_spent (hproper.grows (.fail t rfl rfl)) (t.fail_spent f)

section Moves

variable [Socket ω]

theorem flushPending (h : Disciplined s) : Disciplined s.flushPending.2 := by
  apply h.keep s.state_flushPending _ (.flushPending (fun _ => ⟨rfl, rfl⟩) s)
  obtain ⟨k, b, calls, hf⟩ := s.flushPending_frame
  rw [hf]

theorem flushBestEffort (h : Disciplined s) : Disciplined s.flushBestEffort := by
  unfold Session.flushBestEffort
  split
  · exact h.flushPending
  · exact h

theorem fillRaw (h : Disciplined s) (max : Nat) : Disciplined (s.fillRaw max).2 := by
  apply h.keep (s.state_fillRaw max) _ (.fillRaw (fun _ => ⟨rfl, rfl⟩) s max)
  obtain ⟨k, b, calls, hf⟩ := s.fillRaw_frame max
  rw [hf]

variable [Engine σ ε]

/-! ## The handshake -/

/-- The engine goes on with a handshake that is under way and that it has not called complete. -/
theorem processHandshake (h : Proper s.journal) (hu : Usable s.journal)
    (hway : underWay s.journal = true) (hc : answeredComplete s.journal = false) :
    Disciplined s.processHandshake.2 := by
  have hproper : Proper s.handshakeOnce.2.journal := h.call ⟨hu, hway, hc⟩
  rcases s.processHandshake_cases with ⟨e, -, he⟩ | ⟨progress, t, ha, ht, hgo⟩
  · have hfail : Disciplined (s.handshakeOnce.2.fail (.native e)) :=
      of_spent (hproper.grows (.fail _ rfl rfl)) (fail_spent _ _)
    rw [he]
    exact hfail.flushBestEffort
  · have hj : t.journal = .engine (.handshake s.rawRead.size
        ((Engine.handshake s.engine s.rawRead s.pendingWrite).traffic s.rawRead s.pendingWrite)
        (.ok progress)) :: s.journal := by
      rw [ht, ← ha]
      rfl
    have hcall : Usable t.journal := by
      rw [hj]
      exact hu.call rfl rfl
    have hrest : underWay t.journal = true := by
      rw [hj]
      exact hway
    rw [hgo]
    apply enter _ hcall hrest t.inHandshake_nextHandshakeState next_read
    rw [ht]
    exact hproper

theorem resume (h : Disciplined s) (hg : Gated s) (hs : s.state = .handshakeRead) :
    Disciplined s.processHandshake.2 := by
  have hin : s.state.inHandshake = true := by
    rw [hs]
    rfl
  apply processHandshake h.calls
  · exact h.usable (SessionState.live_of_inHandshake hin)
  · exact h.shaking hin
  · rw [← hg.answered hin]
    exact h.reading hs

omit [Socket ω] in
theorem connectedAs (h : Disciplined s) (hs : s.state = .handshakeDone) (v : TlsVersion) :
    Disciplined (s.connectedAs v) := by
  have hgrow : Grows (fun e => e.isCall = false) s (s.connectedAs v) := by
    apply Grows.connectedAs
    · rintro n (rfl | rfl | rfl) <;> rfl
    · rfl
  have hu : Usable s.journal := h.usable (by rw [hs]; rfl)
  obtain ⟨remarks, -, hframe⟩ := s.connectedAs_frame v
  refine of_connected (h.calls.grows hgrow) (hu.grows hgrow) ?_ ?_
  · rw [hframe, hs]
    rfl
  · rw [hframe]

theorem step (h : Disciplined s) (hg : Gated s) : Disciplined s.step.2 := by
  generalize hr : s.step = r
  have hcase := s.step_case
  rw [hr] at hcase
  cases hcase with
  | startFailed e hs =>
    have hnone := h.unused (by rw [hs]; rfl)
    have hj : s.startEngine.2.journal =
        .engine (.start s.requestedName s.startEngine.1) :: s.journal := rfl
    exact h.failed hj hnone _
  | started hs ha =>
    -- The first handshake call follows on the start at once.
    have hnone := h.unused (by rw [hs]; rfl)
    have hj : s.startEngine.2.journal =
        .engine (.start s.requestedName (.ok ())) :: s.journal := by
      rw [← ha]
      rfl
    apply processHandshake
    · exact h.calls.call hnone
    · exact hj ▸ .start hnone _
    · exact congrArg underWay hj
    · exact congrArg answeredComplete hj
  | sent hs ha =>
    have hflush := h.flushPending
    have hwrite : s.flushPending.2.state = .handshakeWrite := by rw [state_flushPending, hs]
    have hcomplete : s.flushPending.2.handshakeComplete = s.handshakeComplete := by
      obtain ⟨k, b, calls, hf⟩ := s.flushPending_frame
      rw [hf]
    apply enter hflush.calls
    · exact hflush.usable (by rw [hwrite]; rfl)
    · exact hflush.shaking (by rw [hwrite]; rfl)
    · split <;> rfl
    · rw [hcomplete]
      split
      · simp
      · simp_all
  | sendBlocked => exact h.flushPending
  | sendFailed => exact h.flushPending.fail _
  | ended | receiveFailed => exact (h.fillRaw _).fail _
  | arrived _ hs => exact (h.fillRaw _).resume (hg.fillRaw _) (by rw [state_fillRaw, hs])
  | waits => exact h.fillRaw _
  | finish hs =>
    rcases s.finishHandshake_cases with ⟨-, f, -, hf⟩ | ⟨-, v, -, hv⟩
    · rw [hf]
      exact h.fail f
    · rw [hv]
      exact h.connectedAs hs v
  | agreed => exact h
  | refused => exact h.fail _

/-! ## Advances and falls -/

omit [Engine σ ε] [Socket ω] in
/-- A call of a connected session after which it goes on. -/
theorem served {c : EngineCall ε} (h : Proper s.journal) (hs : Serving s.journal)
    (hj : t.journal = .engine c :: s.journal) (ht : t.state = .connected)
    (hc : MayFollow s.journal c) (hf : c.failed = false) (hp : c.parts = false)
    (hw : (Event.engine c).underWay? = none) : Disciplined t := by
  have hserve : Serving t.journal := by
    rw [hj]
    exact hs.call hf hp hw
  apply of_connected _ hserve.usable hserve.idle ht
  rw [hj]
  exact h.call hc

omit [Engine σ ε] [Socket ω] in
/-- The peer asked for a new handshake. -/
theorem reopen (h : Proper s.journal) (hu : Usable s.journal) (hway : underWay s.journal = true) :
    Disciplined s.reopen := by
  have hgrow : Grows (fun e => e.isCall = false ∧ e.underWay? = none) s
      { s.note (.renegotiationRequested s.renegotiations) with
        renegotiating := true, handshakeComplete := false } := .one rfl ⟨rfl, rfl⟩
  have hcalls := hgrow.mono fun _ he => he.1
  have hrest := (hgrow.mono fun _ he => he.2).latest false
  exact enter (h.grows hcalls) (hu.grows hcalls) (hrest.trans hway) rfl fun _ => rfl

/-- Answering the peer is the last call of the engine. -/
theorem answerClose (h : Proper s.journal) (hs : Serving s.journal) :
    Disciplined s.answerClose := by
  have hseen : Grows (fun e => e.isCall = false ∧ e.state? = none ∧ e.underWay? = none) s
      { s.note .peerClosed with peerClosed := true } := .one rfl ⟨rfl, rfl, rfl⟩
  have hproper : Proper { s.note .peerClosed with peerClosed := true }.journal :=
    h.grows (hseen.mono fun _ he => he.1)
  have hserve : Serving { s.note .peerClosed with peerClosed := true }.journal := hs.grows hseen
  obtain ⟨-, -, hleft⟩ := s.answerClose_leaves
  have hspent : s.answerClose.Spent := by
    rcases hleft with hleft | ⟨hleft, -⟩ <;> exact ⟨by rw [hleft]; rfl, by rw [hleft]; rfl⟩
  apply of_spent _ hspent
  unfold Session.answerClose
  rcases ha : Session.notifyClose { s.note .peerClosed with peerClosed := true } with ⟨answer, t⟩
  obtain ⟨⟨moved, hj⟩, -⟩ := notifyClose_entry ha
  have hcall : Proper t.journal := by
    rw [hj]
    exact hproper.call hserve
  cases answer with
  | ok _ => exact hcall.grows (.leave (fun _ => rfl) (fun _ _ => rfl) t)
  | error e =>
    have hnoted : Grows (fun e => e.isCall = false) t (t.note (.replyFailed e)) := .one rfl rfl
    exact hcall.grows (hnoted.trans (.leave (fun _ => rfl) (fun _ _ => rfl) _))

theorem advance (h : Disciplined s) (ht : Tracked s) (hg : Gated s) (k : Advance s t) :
    Disciplined t := by
  have hserve := h.serving ht
  cases k with
  | bind k hs =>
    have hgrow : Grows (fun e => e.isCall = false) { s with socket := some k }
        ({ s with socket := some k }.setState .initialized) := .setState _ rfl
    have hnone := h.unused (by rw [hs]; rfl)
    apply of_idle (h.calls.grows hgrow)
    · rw [state_setState]
      rfl
    · intro _ call hmem
      exact hnone call (hgrow.call_mem.1 hmem)
  | nameServer | nameHost | outside | handing | sawEnd | track => exact h.keep rfl rfl (.of_eq rfl)
  | step _ hstep =>
    have hkept := h.step hg
    rwa [hstep] at hkept
  | resume hs hstep =>
    have hkept := h.resume hg hs
    rwa [hstep] at hkept
  | flush => exact h.flushPending
  | fill => exact h.fillRaw _
  | remark n hn =>
    have hquiet : Grows (fun e => e.isCall = false ∧ e.underWay? = none) s (s.note n) := by
      apply Grows.one rfl
      cases n <;> first | exact ⟨rfl, rfl⟩ | cases hn
    exact h.keep rfl rfl hquiet
  | encrypt hs ha =>
    obtain ⟨⟨moved, hj⟩, hstate⟩ := encryptOnce_entry ha
    exact served h.calls (hserve hs) hj (hstate.trans hs) (hserve hs) rfl rfl rfl
  | decrypt hs ha =>
    obtain ⟨⟨size, plain, moved, hj⟩, hstate⟩ := decryptOnce_entry ha
    exact served h.calls (hserve hs) hj (hstate.trans hs) (hserve hs) rfl rfl rfl
  | @reopen u hs ha =>
    obtain ⟨⟨size, plain, moved, hj⟩, -⟩ := decryptOnce_entry ha
    have hu : Proper u.asked.journal ∧ Usable u.asked.journal ∧ underWay u.asked.journal = true := by
      show Proper u.journal ∧ Usable u.journal ∧ underWay u.journal = true
      rw [hj]
      exact ⟨h.calls.call (hserve hs), (hserve hs).usable.call rfl rfl, rfl⟩
    exact reopen hu.1 hu.2.1 hu.2.2
  | @noticed u hs ha =>
    obtain ⟨⟨size, plain, moved, hj⟩, -⟩ := decryptOnce_entry ha
    have hu : Proper u.journal ∧ Serving u.journal := by
      rw [hj]
      exact ⟨h.calls.call (hserve hs), (hserve hs).call rfl rfl rfl⟩
    exact answerClose hu.1 hu.2
  | @notified u hs ha =>
    obtain ⟨⟨moved, hj⟩, -⟩ := notifyClose_entry ha
    have hproper : Proper { u with inFlight := none }.journal := by
      show Proper u.journal
      rw [hj]
      exact h.calls.call (hserve hs)
    apply of_spent (hproper.grows (.setState _ rfl))
    exact ⟨by rw [state_setState]; rfl, by rw [state_setState]; rfl⟩
  | parted hs =>
    apply of_spent (h.calls.grows (.setState _ rfl))
    exact ⟨by rw [state_setState]; rfl, by rw [state_setState]; rfl⟩

theorem fall (h : Disciplined s) (ht : Tracked s) (hg : Gated s) (k : Fall s t) :
    Disciplined t := by
  have hserve := h.serving ht
  cases k with
  | fail f => exact h.fail f
  | step _ hstep =>
    have hkept := h.step hg
    rwa [hstep] at hkept
  | resume hs hstep =>
    have hkept := h.resume hg hs
    rwa [hstep] at hkept
  | encrypt hs ha =>
    obtain ⟨⟨moved, hj⟩, -⟩ := encryptOnce_entry ha
    exact h.failed hj (hserve hs) _
  | decrypt hs ha =>
    obtain ⟨⟨size, plain, moved, hj⟩, -⟩ := decryptOnce_entry ha
    exact (h.failed hj (hserve hs) _).flushBestEffort
  | @overrun u hs ha =>
    obtain ⟨⟨size, plain, moved, hj⟩, -⟩ := decryptOnce_entry ha
    -- Counting the request leaves the journal alone.
    have hasked : u.asked.journal = _ := hj
    exact h.failed hasked (hserve hs) _
  | notify hs ha =>
    obtain ⟨⟨moved, hj⟩, -⟩ := notifyClose_entry ha
    exact h.failed hj (hserve hs) _

theorem advances (h : Disciplined s) (ht : Tracked s) (hg : Gated s) (k : Advances s t) :
    Disciplined t := by
  induction k with
  | refl => exact h
  | tail hmost hlast ih =>
    have hlater := Advances.follows hmost
    exact ih.advance (ht.follows hlater) (hg.follows hlater) hlast

theorem leads (h : Disciplined s) (ht : Tracked s) (hg : Gated s) (k : Leads s t) :
    Disciplined t := by
  cases k with
  | well hsteps => exact h.advances ht hg hsteps
  | falls hfalls =>
    obtain ⟨u, hsteps, hlast⟩ := hfalls
    have hlater := hsteps.follows
    exact (h.advances ht hg hsteps).fall (ht.follows hlater) (hg.follows hlater) hlast
  | declined f => exact h.fail f

-- The induction is on the calls. A call is taken apart into advances, not into turns: after a turn
-- that failed another could follow, and nothing could be said of the calls in it.
theorem run (h : Disciplined s) (ht : Tracked s) (hg : Gated s) (hk : Kept s)
    (calls : List (Call ω)) : Disciplined (s.run calls).2 := by
  induction calls generalizing s with
  | nil => exact h
  | cons c calls ih =>
    have hleads := perform_leads hk.atRest (fun hs => hg.version (.inl hs)) c
    exact ih (h.leads ht hg hleads) (ht.follows (s.perform_follows c)) (hg.perform c)
      (hk.perform hg c)

end Moves
end Disciplined

/-! ## Moments of a call -/

section Services

variable [Engine σ ε] [Socket ω] {s t : Session σ ω ε}

/-- A moment brings no call for a connected session, or it begins with one and the session is
connected. -/
theorem Passes.serves (h : Passes s t) : Grows (fun e => e.isService = false) s t ∨
    s.state = .connected ∧ ∃ call, ∃ u : Session σ ω ε, u.journal = .engine call :: s.journal ∧
      Grows (fun e => e.isService = false) u t := by
  cases h with
  | handing => exact .inl (.of_eq rfl)
  | turn hturn =>
    have hadds : Grows (fun e => e.fits s.state = true) s t := hturn.adds
    have hquiet : s.state ≠ .connected → Grows (fun e => e.isService = false) s t := fun hs =>
      hadds.mono fun e he => e.not_service he hs
    cases hturn with
    | bind _ h | nameServer _ h | nameHost _ _ h | resume h => exact .inl (hquiet (by rw [h]; simp))
    | step h =>
      apply Or.inl
      apply hquiet
      intro hs
      rcases h with h | ⟨h, -⟩ <;> rw [hs] at h <;> cases h
    | outside | sawEnd | track | release => exact .inl (.of_eq rfl)
    | fill => exact .inl (.fillRaw (fun _ => rfl) s _)
    | flush => exact .inl (.flushPending (fun _ => rfl) s)
    | sawClose | remark => exact .inl (.one rfl rfl)
    | withdraw => exact .inl (.setState s rfl)
    | fail => exact .inl (.fail s rfl rfl)
    | decrypt h | encrypt _ h | notify _ h => exact .inr ⟨h, _, _, rfl, .of_eq rfl⟩
    | reopen h => exact .inr ⟨h, _, s.decryptOnce.2.asked, rfl, .silent (.reopen _) fun _ => rfl⟩
    | overrun h => exact .inr ⟨h, _, s.decryptOnce.2.asked, rfl, .silent (.fail _ _) fun _ => rfl⟩

/-- Every call for a connected session that was made in between was made at a moment at which the
session was connected. -/
theorem Follows.served {call : EngineCall ε} {older : List (Event ε)} (h : Follows s t)
    (hc : call.serves = true) (hj : .engine call :: older <:+ t.journal) :
    .engine call :: older <:+ s.journal ∨
    ∃ x, Follows s x ∧ Follows x t ∧ x.journal = older ∧ x.state = .connected := by
  have hservice : (Event.engine call).isService = true := hc
  induction h with
  | refl => exact .inl hj
  | @tail x y hx hlast ih =>
    have hearlier : .engine call :: older <:+ x.journal → .engine call :: older <:+ s.journal ∨
        ∃ z, Follows s z ∧ Follows z y ∧ z.journal = older ∧ z.state = .connected := by
      intro hmost
      rcases ih hmost with hfirst | ⟨z, hz, hlater, hmoment⟩
      · exact .inl hfirst
      · exact .inr ⟨z, hz, hlater.tail hlast, hmoment⟩
    rcases hlast.serves with ⟨newer, hy, hquiet⟩ | ⟨hs, call', u, hu, newer, hy, hquiet⟩
    · rw [hy] at hj
      exact hearlier (suffix_of_quiet hquiet hservice hj)
    · rw [hy] at hj
      have hlatest := suffix_of_quiet hquiet hservice hj
      rw [hu] at hlatest
      rcases List.suffix_cons_iff.1 hlatest with heq | hmost
      · injection heq with _ hold
        exact .inr ⟨x, hx, .single hlast, hold.symm, hs⟩
      · exact hearlier hmost

end Services

/-- In every run each engine call was admitted by the calls before it and their answers. The state that
a journal tells is the state of the session, at every moment, and each call for a connected session
was made at a moment at which it was connected. -/
theorem engine_disciplined [Engine σ ε] [Socket ω] (engine : σ) (side : Side) (verifyPeer : Bool)
    (policy : CipherPolicy) (calls : List (Call ω)) :
    let fresh : Session σ ω ε := ofEngine engine side verifyPeer policy
    let s := (fresh.run calls).2
    Proper s.journal ∧ (∀ x, Follows fresh x → stateOf x.journal = x.state) ∧
    ∀ call older, .engine call :: older <:+ s.journal → call.serves = true →
      ∃ x, Follows fresh x ∧ Follows x s ∧ x.journal = older ∧ x.state = .connected := by
  intro fresh s
  have htracked : Tracked fresh := rfl
  have hgate : Gated fresh := .of_unbegun rfl
  have hkept : Kept fresh := .fresh engine side verifyPeer policy
  have hnone : ∀ call, Event.engine call ∉ fresh.journal := by
    intro call hmem
    cases hmem
  have hproper : Proper fresh.journal := by
    intro call older hsuffix
    have hnil := List.suffix_nil.1 hsuffix
    cases hnil
  have hfresh : Disciplined fresh := .of_idle hproper rfl fun _ => hnone
  refine ⟨(hfresh.run htracked hgate hkept calls).calls, fun x hx => htracked.follows hx, ?_⟩
  intro call older hj hc
  rcases (fresh.run_follows calls).served hc hj with hfirst | hmoment
  · have hnil := List.suffix_nil.1 hfirst
    cases hnil
  · exact hmoment

end Session
end TlsTransport
