import TlsTransport.Proofs.Session.Journal

/-! # Where a turn leads

Which states a turn can reach, what it leaves alone on the way, and when it connects a session.

* `SessionState.begun`, `live`: no turn goes back before the first handshake call, and a live
  session has kept its host.
* `Session.entries`: from where a session connected, each time.
* `Turn.entries`: a turn that connects is the last step of a handshake that passed the check.
-/

namespace TlsTransport

variable {σ ω ε : Type}

/-! ## States -/

/-- From where a session connected. -/
def Event.entry : Event ε → List SessionState
  | .notice (.stateChanged before .connected) => [before]
  | _ => []

namespace SessionState

/-- Whether the first handshake call was made. -/
def begun : SessionState → Bool
  | constructed | initialized => false
  | _ => true

/-- Whether the session is connected or on its way. -/
def live : SessionState → Bool
  | handshakeWrite | handshakeRead | handshakeDone | connected => true
  | _ => false

theorem live_of_inHandshake {state : SessionState} (h : state.inHandshake = true) :
    state.live = true := by
  cases state <;> simp_all [inHandshake, live]

theorem begun_of_inHandshake {state : SessionState} (h : state.inHandshake = true) :
    state.begun = true := by
  cases state <;> simp_all [inHandshake, begun]

end SessionState

namespace Session

/-- From where a session connected, each time. -/
def entries (s : Session σ ω ε) : List SessionState := gather Event.entry s.journal

/-! ## Where a step leads -/

theorem fail_state (s : Session σ ω ε) (f : Failure ε) :
    (s.fail f).state = .error ∨ (s.fail f).state = .closed ∧ s.state = .closed := by
  rw [fail_eq]
  by_cases h : s.state = .closed <;> simp [h]

theorem fail_begun (s : Session σ ω ε) (f : Failure ε) : (s.fail f).state.begun = true := by
  rcases s.fail_state f with h | ⟨h, -⟩ <;> rw [h] <;> rfl

theorem fail_error {s : Session σ ω ε} (f : Failure ε) (h : s.state ≠ .closed) :
    (s.fail f).state = .error := by
  rcases s.fail_state f with hf | ⟨-, hf⟩
  · exact hf
  · exact absurd hf h

variable [Engine σ ε] [Socket ω]

theorem processHandshake_begun (s : Session σ ω ε) : s.processHandshake.2.state.begun = true := by
  rcases s.processHandshake_cases with ⟨e, -, he⟩ | ⟨progress, t, -, -, ht⟩
  · rw [he, state_flushBestEffort]
    exact fail_begun _ _
  · rw [ht, state_setState]
    exact SessionState.begun_of_inHandshake t.inHandshake_nextHandshakeState

theorem step_begun (s : Session σ ω ε) : s.step.2.state.begun = true := by
  generalize hr : s.step = r
  have hcase := s.step_case
  rw [hr] at hcase
  cases hcase with
  | startFailed | sendFailed | ended | receiveFailed | refused => exact fail_begun _ _
  | started | arrived => exact processHandshake_begun _
  | sent =>
    rw [state_setState]
    split <;> rfl
  | sendBlocked h => rw [state_flushPending, h]; rfl
  | waits _ h => rw [state_fillRaw, h]; rfl
  | finish =>
    rcases s.finishHandshake_cases with ⟨-, f, -, hf⟩ | ⟨-, v, -, hv⟩
    · rw [hf]
      exact fail_begun _ _
    · rw [hv, connectedAs, state_setState]
      rfl
  | agreed _ h => rw [h]; rfl

theorem runHandshake_begun (s : Session σ ω ε) : s.runHandshake.2.state.begun = true := by
  fun_induction runHandshake s with
  | case1 s s' hs ih => exact ih
  | case2 s status s' hs =>
    have h := s.step_begun
    rwa [hs] at h

/-- No client and no server is still `initialized` after a call with a host. -/
theorem connect_begun {s : Session σ ω ε} (h : s.state = .initialized) (host : String) :
    (s.connect host).2.state.begun = true := by
  unfold connect
  split
  · exact fail_begun _ _
  · simp only
    rw [handshakeStatus_of_handshake (.inl (by split <;> exact h))]
    exact runHandshake_begun _

end Session

/-! ## What turns keep -/

section Turning

variable [Engine σ ε] [Socket ω] {c : Call ω} {s t : Session σ ω ε}

open Session

/-- What was fixed when a session was made. -/
structure SameTerms (s t : Session σ ω ε) : Prop where
  side : t.side = s.side
  verifyPeer : t.verifyPeer = s.verifyPeer
  policy : t.policy = s.policy

omit [Engine σ ε] [Socket ω] in
theorem SameTerms.of_steady (h : Steady s t) : SameTerms s t := ⟨h.side, h.verifyPeer, h.policy⟩

omit [Engine σ ε] [Socket ω] in
theorem SameTerms.trans {u : Session σ ω ε} (h : SameTerms s t) (k : SameTerms t u) :
    SameTerms s u :=
  ⟨k.side.trans h.side, k.verifyPeer.trans h.verifyPeer, k.policy.trans h.policy⟩

theorem Turn.terms (h : Turn c s t) : SameTerms s t := by
  cases h with
  | bind k =>
    have hset := Steady.setState { s with socket := some k } .initialized
    exact ⟨hset.side, hset.verifyPeer, hset.policy⟩
  | step => exact .of_steady (Steady.step s)
  | reopen =>
    rw [reopen_eq]
    exact ⟨rfl, rfl, rfl⟩
  | overrun =>
    have hfail := Steady.fail { s.decryptOnce.2 with renegotiations := s.renegotiations + 1 }
      .renegotiations
    exact ⟨hfail.side, hfail.verifyPeer, hfail.policy⟩
  | resume => exact .of_steady (Steady.processHandshake s)
  | fill => exact .of_steady (Steady.fillRaw s _)
  | withdraw => exact .of_steady (Steady.setState s _)
  | flush => exact .of_steady (Steady.flushPending s)
  | fail f => exact .of_steady (Steady.fail s f)
  | _ => exact ⟨rfl, rfl, rfl⟩

theorem Turn.begun (h : Turn c s t) (hs : s.state.begun = true) : t.state.begun = true := by
  cases h with
  | bind _ h | nameServer _ h | nameHost _ _ h => rw [h] at hs; cases hs
  | step => exact step_begun s
  | reopen => rw [reopen_eq]; rfl
  | overrun => exact fail_begun _ _
  | resume => exact processHandshake_begun s
  | fill => rwa [state_fillRaw]
  | withdraw _ _ hnext =>
    rw [state_setState]
    rcases hnext with rfl | rfl <;> rfl
  | flush => rwa [state_flushPending]
  | fail f => exact fail_begun _ _
  | _ => exact hs

/-- A session that is live after a turn was so before, or it started with a host if it had to. -/
theorem Turn.live (h : Turn c s t) (ht : t.state.live = true) : t.hostname = s.hostname ∧
    (s.state.live = true ∨ s.state = .initialized ∧ (s.side = .client → s.hostname ≠ none)) := by
  have hconn : s.state = .connected → s.state.live = true := fun hs => by rw [hs]; rfl
  cases h with
  | bind => rw [state_setState] at ht; cases ht
  | nameServer _ h | nameHost _ _ h =>
    have hlive : s.state.live = true := ht
    rw [h] at hlive
    cases hlive
  | step h =>
    refine ⟨(Steady.step s).hostname, ?_⟩
    rcases h with h | h
    · exact .inl (SessionState.live_of_inHandshake h)
    · exact .inr h
  | decrypt h | sawEnd h | sawClose h | encrypt _ h | track _ h | release h | notify _ h =>
    exact ⟨rfl, .inl (hconn h)⟩
  | reopen h =>
    rw [reopen_eq]
    exact ⟨rfl, .inl (hconn h)⟩
  | overrun h => exact ⟨(Steady.fail _ _).hostname, .inl (hconn h)⟩
  | resume h => exact ⟨(Steady.processHandshake s).hostname, .inl (by rw [h]; rfl)⟩
  | fill h => exact ⟨(Steady.fillRaw s _).hostname, .inl (hconn h)⟩
  | withdraw _ _ hnext =>
    rw [state_setState] at ht
    rcases hnext with rfl | rfl <;> cases ht
  | flush => exact ⟨(Steady.flushPending s).hostname, .inl (by rwa [state_flushPending] at ht)⟩
  | outside | remark => exact ⟨rfl, .inl ht⟩
  | fail f =>
    rcases s.fail_state f with hf | ⟨hf, -⟩ <;> rw [hf] at ht <;> cases ht

/-- Before the first handshake call a turn sets a host in one way only. -/
theorem Turn.unbegun (h : Turn c s t) (ht : t.state.begun = false) :
    t.hostname = s.hostname ∨ ∃ host, c = .connect host ∧ t.hostname = some host ∧
      s.state = .initialized := by
  cases h with
  | nameHost host _ h => exact .inr ⟨host, rfl, rfl, h⟩
  | bind => exact .inl (Steady.setState _ _).hostname
  | step => exact .inl (Steady.step s).hostname
  | reopen =>
    rw [reopen_eq]
    exact .inl rfl
  | overrun => exact .inl (Steady.fail _ _).hostname
  | resume => exact .inl (Steady.processHandshake s).hostname
  | fill => exact .inl (Steady.fillRaw s _).hostname
  | withdraw => exact .inl (Steady.setState s _).hostname
  | flush => exact .inl (Steady.flushPending s).hostname
  | fail f => exact .inl (Steady.fail s f).hostname
  | _ => exact .inl rfl

/-- A session is `initialized` once. -/
theorem Turn.initialized (h : Turn c s t) (ht : t.state = .initialized) :
    s.state = .initialized ∨ ∃ k, c = .init k := by
  have hbegun : ∀ {u : Session σ ω ε}, u.state.begun = true → u.state ≠ .initialized := by
    intro u hu hc
    rw [hc] at hu
    cases hu
  cases h with
  | bind k => exact .inr ⟨k, rfl⟩
  | step => exact absurd ht (hbegun (step_begun s))
  | reopen => rw [reopen_eq] at ht; cases ht
  | overrun => exact absurd ht (hbegun (fail_begun _ _))
  | resume => exact absurd ht (hbegun (processHandshake_begun s))
  | fill => exact .inl (by rwa [state_fillRaw] at ht)
  | withdraw _ _ hnext =>
    rw [state_setState] at ht
    rcases hnext with rfl | rfl <;> cases ht
  | flush => exact .inl (by rwa [state_flushPending] at ht)
  | fail f => exact absurd ht (hbegun (fail_begun _ _))
  | _ => exact .inl ht

theorem Turns.begun (h : Turns c s t) (hs : s.state.begun = true) : t.state.begun = true := by
  induction h with
  | refl => exact hs
  | tail _ hlast ih => exact hlast.begun ih

theorem Turns.terms (h : Turns c s t) : SameTerms s t := by
  induction h with
  | refl => exact ⟨rfl, rfl, rfl⟩
  | tail _ hlast ih => exact ih.trans hlast.terms

end Turning

/-! ## Entries -/

theorem gather_entry_of_sockets (calls : List SocketCall) :
    gather (Event.entry (ε := ε)) (calls.map Event.socket).reverse = [] := by
  simp [gather, List.flatMap_map, Event.entry]

namespace Session

theorem entries_note (s : Session σ ω ε) {n : Notice ε}
    (h : Event.entry (Event.notice n) = []) : (s.note n).entries = s.entries := by
  rw [entries, entries, note, tell, gather_cons, h, List.append_nil]

theorem entries_setState (s : Session σ ω ε) {next : SessionState} (h : next ≠ .connected) :
    (s.setState next).entries = s.entries := by
  rw [setState_eq, entries, entries]
  by_cases hs : s.state = next
  · rw [if_pos hs]
  · rw [if_neg hs, gather_cons]
    cases next <;> simp_all [Event.entry]

theorem entries_fail (s : Session σ ω ε) (f : Failure ε) : (s.fail f).entries = s.entries := by
  rw [fail_eq, entries, entries]
  by_cases hs : s.state = .closed ∨ s.state = .error <;> simp [hs, Event.entry]

theorem entries_reopen (s : Session σ ω ε) : s.reopen.entries = s.entries := by
  rw [reopen_eq, entries, entries]
  by_cases hs : s.state = .handshakeRead <;> simp [hs, Event.entry]

theorem entries_connectedAs [Engine σ ε] (s : Session σ ω ε) (v : TlsVersion)
    (h : s.state ≠ .connected) : (s.connectedAs v).entries = s.entries ++ [s.state] := by
  obtain ⟨remarks, hremarks, he⟩ := s.connectedAs_frame v
  have hnone : gather Event.entry (remarks.map Event.notice) = [] := by
    rw [gather, List.flatMap_eq_nil_iff]
    intro e hm
    obtain ⟨n, hn, rfl⟩ := List.mem_map.1 (List.mem_reverse.1 hm)
    rcases hremarks n hn with rfl | rfl | rfl <;> rfl
  rw [he, entries, entries]
  simp only
  rw [if_neg h, gather_cons, gather_append, hnone, List.append_nil]
  rfl

section Moves

variable [Socket ω]

theorem entries_flushPending (s : Session σ ω ε) : s.flushPending.2.entries = s.entries := by
  obtain ⟨k, b, calls, h⟩ := s.flushPending_frame
  rw [h, entries, entries, gather_append, gather_entry_of_sockets, List.append_nil]

theorem entries_fillRaw (s : Session σ ω ε) (max : Nat) :
    (s.fillRaw max).2.entries = s.entries := by
  obtain ⟨k, b, calls, h⟩ := s.fillRaw_frame max
  rw [h, entries, entries, gather_append, gather_entry_of_sockets, List.append_nil]

theorem entries_flushBestEffort (s : Session σ ω ε) : s.flushBestEffort.entries = s.entries := by
  obtain ⟨k, b, calls, h⟩ := s.flushBestEffort_frame
  rw [h, entries, entries, gather_append, gather_entry_of_sockets, List.append_nil]

end Moves

theorem entries_call (s : Session σ ω ε) (call : EngineCall ε) :
    gather Event.entry (.engine call :: s.journal) = s.entries := by
  rw [gather_cons]
  exact List.append_nil _

variable [Engine σ ε] [Socket ω]

/-- No engine call by itself connects a session. -/
theorem processHandshake_entries (s : Session σ ω ε) (h : s.state ≠ .closed) :
    s.processHandshake.2.entries = s.entries ∧ s.processHandshake.2.state ≠ .connected := by
  have honce : s.handshakeOnce.2.entries = s.entries := s.entries_call _
  rcases s.processHandshake_cases with ⟨e, -, he⟩ | ⟨progress, t, -, ht, hu⟩
  · rw [he, entries_flushBestEffort, entries_fail, honce, state_flushBestEffort,
      fail_error _ (show s.handshakeOnce.2.state ≠ .closed from h)]
    exact ⟨rfl, by simp⟩
  · have hnext := t.inHandshake_nextHandshakeState
    have hne : t.nextHandshakeState ≠ .connected := fun hc => by rw [hc] at hnext; cases hnext
    have hsame : t.entries = s.entries := by
      rw [ht]
      exact honce
    rw [hu, entries_setState _ hne, hsame, state_setState]
    exact ⟨rfl, hne⟩

/-- A step that connects is the last one of a handshake that passed the check. -/
theorem step_entries (s : Session σ ω ε) (hs : s.state ≠ .connected) :
    (s.step.2.entries = s.entries ∧ s.step.2.state ≠ .connected) ∨
    (s.state = .handshakeDone ∧ s.Cleared ∧ ∃ v, Engine.version s.engine = some v ∧
      s.step.2 = s.connectedAs v) := by
  have hfail : ∀ (t : Session σ ω ε) f, t.entries = s.entries →
      (t.fail f).entries = s.entries ∧ (t.fail f).state ≠ .connected := by
    intro t f ht
    refine ⟨(t.entries_fail f).trans ht, ?_⟩
    rcases t.fail_state f with hf | ⟨hf, -⟩ <;> rw [hf] <;> simp
  have hflush := s.entries_flushPending
  have hfill := s.entries_fillRaw maxRecordLength
  generalize hr : s.step = r
  have hcase := s.step_case
  rw [hr] at hcase
  cases hcase with
  | startFailed => exact .inl (hfail _ _ (s.entries_call _))
  | started h =>
    obtain ⟨he, hc⟩ := processHandshake_entries { s.startEngine.2 with handshakeComplete := false }
      (show s.state ≠ .closed by rw [h]; simp)
    exact .inl ⟨he.trans (s.entries_call _), hc⟩
  | sent =>
    refine .inl ⟨?_, ?_⟩
    · rw [entries_setState _ (by split <;> simp), hflush]
    · rw [state_setState]
      split <;> simp
  | sendBlocked h => exact .inl ⟨hflush, by rw [state_flushPending, h]; simp⟩
  | sendFailed => exact .inl (hfail _ _ hflush)
  | ended | receiveFailed => exact .inl (hfail _ _ hfill)
  | arrived _ h =>
    obtain ⟨he, hc⟩ := processHandshake_entries (s.fillRaw maxRecordLength).2
      (by rw [state_fillRaw, h]; simp)
    exact .inl ⟨he.trans hfill, hc⟩
  | waits _ h => exact .inl ⟨hfill, by rw [state_fillRaw, h]; simp⟩
  | finish h =>
    rcases s.finishHandshake_cases with ⟨-, f, -, hf⟩ | ⟨hc, v, hv, he⟩
    · rw [hf]
      exact .inl (hfail _ _ rfl)
    · exact .inr ⟨h, hc, v, hv, by rw [he]⟩
  | agreed _ h => exact absurd h hs
  | refused => exact .inl (hfail _ _ rfl)

end Session

section Turning

variable [Engine σ ε] [Socket ω] {c : Call ω} {s t : Session σ ω ε}

open Session

/-- A turn that connects is the last step of a handshake that passed the check. -/
theorem Turn.entries (h : Turn c s t) :
    (t.entries = s.entries ∧ (t.state = .connected → s.state = .connected)) ∨
    (s.state = .handshakeDone ∧ s.Cleared ∧ ∃ v, Engine.version s.engine = some v ∧
      t = s.connectedAs v) := by
  cases h with
  | bind k =>
    refine .inl ⟨entries_setState _ (by simp), fun hc => ?_⟩
    rw [state_setState] at hc
    cases hc
  | nameServer | nameHost | outside | sawEnd | track | release => exact .inl ⟨rfl, id⟩
  | sawClose h => exact .inl ⟨entries_note s rfl, fun _ => h⟩
  | remark n hn => exact .inl ⟨entries_note s (by cases n <;> first | rfl | cases hn), id⟩
  | step h =>
    have hs : s.state ≠ .connected := fun hc => by
      rcases h with h | ⟨h, -⟩ <;> rw [hc] at h <;> cases h
    rcases s.step_entries hs with ⟨he, hc⟩ | hin
    · exact .inl ⟨he, fun h => absurd h hc⟩
    · exact .inr hin
  | decrypt h | encrypt _ h | notify _ h => exact .inl ⟨s.entries_call _, fun _ => h⟩
  | reopen h =>
    refine .inl ⟨?_, fun _ => h⟩
    rw [entries_reopen]
    exact s.entries_call _
  | overrun h =>
    refine .inl ⟨?_, fun _ => h⟩
    rw [entries_fail]
    exact s.entries_call _
  | resume h =>
    obtain ⟨he, hc⟩ := s.processHandshake_entries (by rw [h]; simp)
    exact .inl ⟨he, fun h => absurd h hc⟩
  | fill h => exact .inl ⟨s.entries_fillRaw _, fun _ => h⟩
  | withdraw _ _ hnext =>
    have hne : ∀ {next : SessionState}, next = .closing ∨ next = .closed → next ≠ .connected := by
      rintro next (rfl | rfl) <;> simp
    refine .inl ⟨entries_setState _ (hne hnext), fun hc => ?_⟩
    rw [state_setState] at hc
    exact absurd hc (hne hnext)
  | flush => exact .inl ⟨s.entries_flushPending, fun hc => by rwa [state_flushPending] at hc⟩
  | fail f =>
    refine .inl ⟨s.entries_fail f, fun hc => ?_⟩
    rcases s.fail_state f with hf | ⟨hf, -⟩ <;> rw [hf] at hc <;> cases hc

end Turning
end TlsTransport
