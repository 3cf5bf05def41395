import TlsTransport.Proofs.Session.Farewell
import TlsTransport.Proofs.Session.Renegotiation

/-! # How a call ends

Turns are small enough to be chained freely, which admits more than a session does: after a turn that
failed, another could follow. Here a call is taken apart into advances, none of which fails, and at the
end perhaps a fall, which is a failure together with what led to it.

* `Advance`, `Advances`: what a session does as long as nothing fails.
* `Fall`, `Falls`: the ways to fail; nothing follows on them within a call.
* `Finish`, `Answers`: how an operation ends, by its status, and how a call does.
* `Session.connect_ends`, `accept_ends`, `writeData_ends`, `readData_ends`, `close_ends`: how each
  call ends; `Session.perform_leads`: where any call leads.
-/

namespace TlsTransport

variable {σ ω ε α δ : Type}

open Session

/-! ## Advances and falls -/

section Moving

variable [Engine σ ε] [Socket ω]

/-- What a session does when nothing fails. -/
inductive Advance (s : Session σ ω ε) : Session σ ω ε → Prop where
  | bind (k : ω) (h : s.state = .constructed) :
      Advance s ({ s with socket := some k }.setState .initialized)
  | nameServer (name : String) (h : s.state = .initialized) :
      Advance s { s with serverName := some name }
  | nameHost (host : String) (hside : s.side = .client) (h : s.state = .initialized)
      (hnone : s.hostname = none) : Advance s { s with hostname := some host }
  | outside (change : ω → ω) : Advance s { s with socket := s.socket.map change }
  | handing (rest : Buffer) : Advance s { s with plaintext := rest }
  | step {r : StepResult} {t : Session σ ω ε} (h : s.MayStep) (hs : s.step = (r, t))
      (hr : r ≠ .yield (.error ())) : Advance s t
  | resume {t : Session σ ω ε} (h : s.state = .handshakeRead)
      (hs : s.processHandshake = (.proceed, t)) : Advance s t
  | flush : Advance s s.flushPending.2
  | fill (max : Nat) (h : s.state = .connected) :
      Advance s (s.fillRaw (Nat.max max maxRecordLength)).2
  | sawEnd (h : s.state = .connected) : Advance s { s with eof := true }
  | encrypt {chunk : Bytes} {t : Session σ ω ε} (h : s.state = .connected)
      (ha : s.encryptOnce chunk = (.ok (), t)) : Advance s t
  | track (flight : Option InFlight) (h : s.state = .connected) :
      Advance s { s with inFlight := flight }
  | remark (n : Notice ε) (h : n.isRemark = true) : Advance s (s.note n)
  | decrypt {t : Session σ ω ε} (h : s.state = .connected)
      (ha : s.decryptOnce = (.ok .needsInput, t)) : Advance s t
  | reopen {t : Session σ ω ε} (h : s.state = .connected)
      (ha : s.decryptOnce = (.ok .renegotiate, t)) (hr : s.renegotiations < maxRenegotiations) :
      Advance s t.asked.reopen
  | noticed {t : Session σ ω ε} (h : s.state = .connected)
      (ha : s.decryptOnce = (.ok .closeNotify, t)) : Advance s t.answerClose
  | notified {t : Session σ ω ε} (h : s.state = .connected) (ha : s.notifyClose = (.ok (), t)) :
      Advance s ({ t with inFlight := none }.setState .closing)
  | parted (h : s.state = .closing) : Advance s (s.setState .closed)

/-- The ways to fail. -/
inductive Fall (s : Session σ ω ε) : Session σ ω ε → Prop where
  | fail (f : Failure ε) (h : s.state ≠ .closed) : Fall s (s.fail f)
  | step {t : Session σ ω ε} (h : s.MayStep) (hs : s.step = (.yield (.error ()), t)) : Fall s t
  | resume {t : Session σ ω ε} (h : s.state = .handshakeRead)
      (hs : s.processHandshake = (.yield (.error ()), t)) : Fall s t
  | encrypt {chunk : Bytes} {e : ε} {t : Session σ ω ε} (h : s.state = .connected)
      (ha : s.encryptOnce chunk = (.error e, t)) : Fall s (t.fail (.native e))
  | decrypt {e : ε} {t : Session σ ω ε} (h : s.state = .connected)
      (ha : s.decryptOnce = (.error e, t)) : Fall s (t.fail (.native e)).flushBestEffort
  | overrun {t : Session σ ω ε} (h : s.state = .connected)
      (ha : s.decryptOnce = (.ok .renegotiate, t)) (hr : maxRenegotiations ≤ s.renegotiations) :
      Fall s (t.asked.fail .renegotiations)
  | notify {e : ε} {t : Session σ ω ε} (h : s.state = .connected)
      (ha : s.notifyClose = (.error e, t)) : Fall s (t.fail (.native e))

/-- A chain of advances. -/
def Advances : Session σ ω ε → Session σ ω ε → Prop := Relation.ReflTransGen Advance

/-- A chain of advances and then a fall. -/
def Falls (s t : Session σ ω ε) : Prop := ∃ u, Advances s u ∧ Fall u t

theorem Advance.follows {s t : Session σ ω ε} (h : Advance s t) : Follows s t := by
  have hone : ∀ {c : Call ω} {u : Session σ ω ε}, Turn c s u → Follows s u := fun hturn =>
    .single (.turn hturn)
  cases h with
  | bind k h => exact hone (.bind k h)
  | nameServer name h => exact hone (.nameServer name h)
  | nameHost host hside h hnone => exact hone (.nameHost host hside h hnone)
  | outside change => exact hone (.outside change)
  | handing rest => exact .single (.handing rest)
  | step h hs =>
    have hturn : Turn (.accept : Call ω) s s.step.2 := .step h
    rw [hs] at hturn
    exact hone hturn
  | resume h hs =>
    have hturn : Turn (.read 0 : Call ω) s s.processHandshake.2 := .resume h
    rw [hs] at hturn
    exact hone hturn
  | flush => exact hone (c := .accept) .flush
  | fill max h => exact hone (c := .read max) (.fill h)
  | sawEnd h => exact hone (c := .read 0) (.sawEnd h)
  | encrypt h ha => exact hone (encrypt_turn [] ha h).1
  | track flight h => exact hone (c := .write []) (.track flight h)
  | remark n h => exact hone (c := .accept) (.remark n h)
  | decrypt h ha => exact hone (decrypt_turn 0 ha h (by simp)).1
  | reopen h ha hr =>
    have hturn : Turn (.read 0 : Call ω) s s.decryptOnce.2.asked.reopen :=
      .reopen h (by rw [ha]) hr
    rw [ha] at hturn
    exact hone hturn
  | noticed h ha =>
    obtain ⟨hturn, ht⟩ := decrypt_turn 0 ha h (by simp)
    exact (hone hturn).trans (Follows.of_turns (answerClose_turns 0 ht))
  | notified h ha =>
    obtain ⟨hturn, ht⟩ := notifyClose_turn .close (.inl rfl) ha h
    have hrest := Relation.ReflTransGen.head (Turn.release ht)
      (.single (.withdraw (.inl rfl) (.inl ht) (.inl rfl)))
    exact (hone hturn).trans (Follows.of_turns hrest)
  | parted h => exact hone (c := .close) (.withdraw (.inl rfl) (.inr h) (.inr rfl))

theorem Advances.follows {s t : Session σ ω ε} (h : Advances s t) : Follows s t := by
  induction h with
  | refl => exact .refl
  | tail _ hlast ih => exact ih.trans hlast.follows

/-! ## How an operation ends -/

/-- How an operation ends: well, having to wait, or with a fall. -/
inductive Finish (s : Session σ ω ε) (good : α → Session σ ω ε → Prop)
    (waits : Session σ ω ε → Prop) : Status α δ × Session σ ω ε → Prop where
  | ok {a : α} {t : Session σ ω ε} (h : Advances s t) (ht : good a t) : Finish s good waits (.ok a, t)
  | wouldBlock {t : Session σ ω ε} (h : Advances s t) (ht : waits t) :
      Finish s good waits (.wouldBlock, t)
  | error {e : δ} {t : Session σ ω ε} (h : Falls s t) : Finish s good waits (.error e, t)

theorem Finish.after {s t : Session σ ω ε} {good : α → Session σ ω ε → Prop}
    {waits : Session σ ω ε → Prop} {r : Status α δ × Session σ ω ε} (h : Advances s t)
    (k : Finish t good waits r) : Finish s good waits r := by
  cases k with
  | ok k ht => exact .ok (h.trans k) ht
  | wouldBlock k ht => exact .wouldBlock (h.trans k) ht
  | error k =>
    obtain ⟨u, hsteps, hfall⟩ := k
    exact .error ⟨u, h.trans hsteps, hfall⟩

theorem Finish.imp {s : Session σ ω ε} {good good' : α → Session σ ω ε → Prop}
    {waits waits' : Session σ ω ε → Prop} {r : Status α δ × Session σ ω ε}
    (h : Finish s good waits r) (hgood : ∀ a t, good a t → good' a t)
    (hwaits : ∀ t, waits t → waits' t) : Finish s good' waits' r := by
  cases h with
  | ok h ht => exact .ok h (hgood _ _ ht)
  | wouldBlock h ht => exact .wouldBlock h (hwaits _ ht)
  | error h => exact .error h

theorem Finish.of_fall {s t : Session σ ω ε} {good : α → Session σ ω ε → Prop}
    {waits : Session σ ω ε → Prop} {e : δ} (h : Fall s t) : Finish s good waits (.error e, t) :=
  .error ⟨s, .refl, h⟩

/-- How a call ends: a session that is over stays so, and one that was closed stays closed. -/
inductive Answers (s : Session σ ω ε) (good : α → Session σ ω ε → Prop)
    (waits : Session σ ω ε → Prop) : Status α δ × Session σ ω ε → Prop where
  | ended {r : Status α δ × Session σ ω ε} (h : Finish s good waits r) : Answers s good waits r
  | lost {e : δ} (h : s.state = .error) : Answers s good waits (.error e, s)
  | declined {e : δ} (f : Failure ε) (h : s.state = .closed) :
      Answers s good waits (.error e, s.fail f)

theorem Answers.of_fail {s : Session σ ω ε} {good : α → Session σ ω ε → Prop}
    {waits : Session σ ω ε → Prop} {e : δ} (f : Failure ε) :
    Answers s good waits (.error e, s.fail f) := by
  by_cases h : s.state = .closed
  · exact .declined f h
  · exact .ended (.of_fall (.fail f h))

/-- Where a call leads: it advances and perhaps falls, or it is declined by a closed session. -/
inductive Leads (s : Session σ ω ε) : Session σ ω ε → Prop where
  | well {t : Session σ ω ε} (h : Advances s t) : Leads s t
  | falls {t : Session σ ω ε} (h : Falls s t) : Leads s t
  | declined (f : Failure ε) (h : s.state = .closed) : Leads s (s.fail f)

theorem Answers.leads {s : Session σ ω ε} {good : α → Session σ ω ε → Prop}
    {waits : Session σ ω ε → Prop} {r : Status α δ × Session σ ω ε}
    (h : Answers s good waits r) : Leads s r.2 := by
  cases h with
  | ended h =>
    cases h with
    | ok h _ => exact .well h
    | wouldBlock h _ => exact .well h
    | error h => exact .falls h
  | lost => exact .well .refl
  | declined f h => exact .declined f h

end Moving

namespace Session

/-- The session waits in the middle of a handshake. -/
def Held (s : Session σ ω ε) : Prop := s.state = .handshakeWrite ∨ s.state = .handshakeRead

/-- The session is connected with this version. -/
def Agreed (v : TlsVersion) (s : Session σ ω ε) : Prop :=
  s.state = .connected ∧ s.version = some v

/-- The session has not stopped in the last moment of a handshake. -/
def AtRest (s : Session σ ω ε) : Prop := s.state ≠ .handshakeDone

theorem Held.atRest {s : Session σ ω ε} (h : s.Held) : s.AtRest := by
  rw [AtRest]
  rcases h with h | h <;> rw [h] <;> simp

theorem Agreed.atRest {s : Session σ ω ε} {v : TlsVersion} (h : s.Agreed v) : s.AtRest := by
  rw [AtRest, h.1]
  simp

variable [Engine σ ε] [Socket ω]

omit [Engine σ ε] in
theorem flushPending_state {s t : Session σ ω ε} {answer : Except IoError Bool}
    (h : s.flushPending = (answer, t)) : t.state = s.state := by
  rw [← s.state_flushPending, h]

theorem flushPending_advances {s t : Session σ ω ε} {answer : Except IoError Bool}
    (h : s.flushPending = (answer, t)) : Advances s t := by
  have hstep : Advance s s.flushPending.2 := .flush
  rw [h] at hstep
  exact .single hstep

/-! ## The handshake -/

theorem processHandshake_not_agreed {s t : Session σ ω ε} {v : TlsVersion} :
    s.processHandshake ≠ (.yield (.ok v), t) := by
  intro h
  rcases s.processHandshake_cases with ⟨e, -, he⟩ | ⟨progress, u, -, -, hu⟩
  · rw [he] at h
    cases h
  · rw [hu] at h
    cases h

/-- A step that connects the session answers the version that it has then. -/
theorem step_agreed {s t : Session σ ω ε} {v : TlsVersion} (h : s.step = (.yield (.ok v), t)) :
    t.Agreed v := by
  refine ⟨step_yield_ok h, ?_⟩
  generalize hr : s.step = r at h
  have hcase := s.step_case
  rw [hr] at hcase
  cases hcase with
  | started | arrived => exact absurd h processHandshake_not_agreed
  | agreed w hs hv =>
    injection h with hw ht
    injection hw with hw
    injection hw with hw
    rw [← ht, ← hw]
    exact hv
  | finish =>
    rcases s.finishHandshake_cases with ⟨-, f, -, hf⟩ | ⟨-, w, -, hv⟩
    · rw [hf] at h
      cases h
    · obtain ⟨remarks, -, hframe⟩ := s.connectedAs_frame w
      rw [hv] at h
      injection h with hw ht
      injection hw with hw
      injection hw with hw
      rw [← ht, hframe, ← hw]
  | _ => cases h

/-- Only a step that connects the session ends a renegotiation. -/
theorem step_renegotiating {s t : Session σ ω ε} {r : StepResult} (h : s.step = (r, t))
    (hr : ∀ v, r ≠ .yield (.ok v)) : t.renegotiating = s.renegotiating := by
  generalize hq : s.step = q at h
  have hcase := s.step_case
  rw [hq] at hcase
  have hof : ∀ {q : StepResult × Session σ ω ε}, q = (r, t) →
      q.2.renegotiating = s.renegotiating → t.renegotiating = s.renegotiating := by
    intro q hq hsame
    rwa [hq] at hsame
  have hflush := (Unmarked.flushPending s).renegotiating
  have hfill := (Unmarked.fillRaw s maxRecordLength).renegotiating
  cases hcase with
  | startFailed e => exact hof h (Unmarked.fail s.startEngine.2 _).renegotiating
  | started => exact hof h (Unmarked.processHandshake _).renegotiating
  | sent =>
    apply hof h
    rw [setState_eq]
    exact hflush
  | sendBlocked => exact hof h hflush
  | sendFailed => exact hof h ((Unmarked.fail _ _).renegotiating.trans hflush)
  | ended | receiveFailed => exact hof h ((Unmarked.fail _ _).renegotiating.trans hfill)
  | arrived => exact hof h ((Unmarked.processHandshake _).renegotiating.trans hfill)
  | waits => exact hof h hfill
  | finish =>
    rcases s.finishHandshake_cases with ⟨-, f, -, hf⟩ | ⟨-, v, -, hv⟩
    · rw [hf] at h
      exact hof h (Unmarked.fail s f).renegotiating
    · rw [hv] at h
      injection h with hv _
      exact absurd hv.symm (hr v)
  | agreed v =>
    injection h with hv _
    exact absurd hv.symm (hr v)
  | refused => exact hof h (Unmarked.fail s _).renegotiating

theorem runHandshake_ends {s : Session σ ω ε} (h : s.MayStep) :
    Finish s Agreed (fun t => t.Held ∧ t.renegotiating = s.renegotiating) s.runHandshake := by
  fun_induction runHandshake s with
  | case1 s s' hs ih =>
    have hfirst : Advances s s' := .single (.step h hs (by simp))
    apply Finish.after hfirst
    apply (ih (.inl (step_proceed hs))).imp (fun _ _ hgood => hgood)
    rintro t ⟨hheld, hsame⟩
    exact ⟨hheld, hsame.trans (step_renegotiating hs (by simp))⟩
  | case2 s status s' hs =>
    cases status with
    | ok v => exact .ok (.single (.step h hs (by simp))) (step_agreed hs)
    | wouldBlock =>
      have hheld : s'.Held := step_yield_wouldBlock hs
      have hstep : Advances s s' := .single (.step h hs (by simp))
      exact .wouldBlock hstep ⟨hheld, step_renegotiating hs (by simp)⟩
    | error => exact .of_fall (.step h hs)

theorem handshakeStatus_runs {s : Session σ ω ε} (h : s.MayStep) :
    Finish s Agreed Held s.handshakeStatus := by
  have hin : s.state = .initialized ∨ s.state.inHandshake = true := h.elim .inr fun hi => .inl hi.1
  have hends := runHandshake_ends h
  rcases hr : s.runHandshake with ⟨v | _ | _, t⟩
  · rw [hr] at hends
    rw [handshakeStatus_of_ok hin hr]
    cases hends with
    | ok hsteps ht => exact .ok hsteps ht
  · rw [hr] at hends
    rw [handshakeStatus_of_wouldBlock hin hr]
    cases hends with
    | wouldBlock hsteps ht => exact .wouldBlock hsteps ht.1
  · rw [hr] at hends
    rw [handshakeStatus_of_error hin hr]
    cases hends with
    | error hfalls => exact .error hfalls

theorem handshakeStatus_ends {s : Session σ ω ε}
    (hv : s.state = .connected → s.version.isSome = true)
    (hhost : s.state = .initialized → s.side = .client → s.hostname ≠ none) :
    Answers s Agreed Held s.handshakeStatus := by
  cases hs : s.state with
  | connected =>
    obtain ⟨v, hver⟩ := Option.isSome_iff_exists.1 (hv hs)
    simp only [handshakeStatus, hs, hver]
    exact .ended (.ok .refl ⟨hs, hver⟩)
  | initialized => exact .ended (handshakeStatus_runs (.inr ⟨hs, hhost hs⟩))
  | handshakeWrite | handshakeRead | handshakeDone =>
    exact .ended (handshakeStatus_runs (.inl (by rw [hs]; rfl)))
  | error =>
    simp only [handshakeStatus, hs]
    exact .lost hs
  | constructed | closing | closed =>
    simp only [handshakeStatus, hs]
    exact .of_fail _

theorem connect_ends {s : Session σ ω ε} (hv : s.state = .connected → s.version.isSome = true)
    (host : String) : Answers s Agreed Held (s.connect host) := by
  unfold connect
  split
  · exact .of_fail _
  · rename_i hside
    have hside : s.side = .client := by simpa using hside
    simp only
    split
    · rename_i h
      have hname : Advances s { s with hostname := some host } :=
        .single (.nameHost host hside h.2 h.1)
      exact .ended (Finish.after hname (handshakeStatus_runs (.inr ⟨h.2, by simp⟩)))
    · rename_i h
      exact handshakeStatus_ends hv fun hi _ hn => h ⟨hn, hi⟩

theorem accept_ends {s : Session σ ω ε} (hv : s.state = .connected → s.version.isSome = true) :
    Answers s Agreed Held s.accept := by
  unfold accept
  split
  · exact .of_fail _
  · rename_i hside
    have hside : s.side = .server := by simpa using hside
    apply handshakeStatus_ends hv
    intro _ hc
    rw [hside] at hc
    cases hc

/-! ## Writing -/

/-- The session waits to write: what was written is not sent yet, or the peer asked for a new
handshake. -/
def WriteWaits (s : Session σ ω ε) : Prop :=
  s.state = .connected ∧ s.inFlight.isSome = true ∨ s.Held ∧ s.renegotiating = true

-- The loop's own induction: each piece is flushed before the next one is encrypted, and the session
-- stays connected throughout.
theorem sendRest_ends (fragment : Nat) (flight : InFlight) (rest : Bytes) {s : Session σ ω ε}
    (hs : s.state = .connected) :
    Finish s (fun _ t => t.state = .connected) WriteWaits (s.sendRest fragment flight rest) := by
  induction flight, rest, s using sendRest.induct (σ := σ) (ω := ω) (ε := ε) fragment with
  | case1 flight rest s t e h₁ =>
    have hsteps := flushPending_advances h₁
    have ht := (flushPending_state h₁).trans hs
    rw [sendRest_of_failed h₁]
    exact .error ⟨t, hsteps, .fail _ (by rw [ht]; simp)⟩
  | case2 flight rest s t h₁ =>
    have hsteps := flushPending_advances h₁
    have ht := (flushPending_state h₁).trans hs
    rw [sendRest_of_blocked h₁]
    have hnoted : Advance t
        (t.note (.writeBlocked flight.locked flight.length t.pendingWrite.size)) := .remark _ rfl
    have htrack := hsteps.tail hnoted
    exact .wouldBlock (htrack.tail (.track (some flight) ht)) (.inl ⟨ht, rfl⟩)
  | case3 flight rest s t hr h₁ =>
    have hsteps := flushPending_advances h₁
    have ht := (flushPending_state h₁).trans hs
    rw [sendRest_of_done h₁ (by simpa using hr)]
    exact .ok hsteps ht
  | case4 flight rest s t hr chunk u e h₁ h₂ =>
    have hsteps := flushPending_advances h₁
    have ht := (flushPending_state h₁).trans hs
    rw [sendRest_of_refused h₁ (by simpa using hr) h₂]
    exact .error ⟨t, hsteps, .encrypt ht h₂⟩
  | case5 flight rest s t hr chunk u a h₁ h₂ ih =>
    have hsteps := flushPending_advances h₁
    have ht := (flushPending_state h₁).trans hs
    have hu : u.state = .connected := by
      have hsame : u = (t.encryptOnce chunk).2 := by rw [h₂]
      rw [hsame]
      exact ht
    rw [sendRest_of_encrypted h₁ (by simpa using hr) h₂]
    exact Finish.after (hsteps.tail (.encrypt ht h₂)) (ih hu)

theorem sendPayload_ends {s : Session σ ω ε} (payload : Bytes) (hs : s.state = .connected) :
    Finish s (fun _ t => t.state = .connected) WriteWaits (s.sendPayload payload) := by
  unfold sendPayload
  simp only
  split
  · have htrack : Advance s { s with inFlight := none } := .track none hs
    split
    · exact .error ⟨_, .single htrack, .fail _ (by rw [hs]; simp)⟩
    · exact Finish.after (.single htrack) (sendRest_ends _ _ _ hs)
  · split
    · exact .ok .refl hs
    · exact sendRest_ends _ _ _ hs

theorem writeData_ends (s : Session σ ω ε) (payload : Bytes) :
    Answers s (fun _ t => t.state = .connected) WriteWaits (s.writeData payload) := by
  unfold writeData
  split
  · rename_i hs
    exact .ended (sendPayload_ends payload hs)
  · split
    · rename_i hs
      obtain ⟨hin, hre⟩ := Bool.and_eq_true_iff.1 hs
      have hends := runHandshake_ends (.inl hin)
      rcases hr : s.runHandshake with ⟨v | _ | _, t⟩
      · rw [hr] at hends
        cases hends with
        | ok hsteps ht => exact .ended (Finish.after hsteps (sendPayload_ends payload ht.1))
      · rw [hr] at hends
        cases hends with
        | wouldBlock hsteps ht => exact .ended (.wouldBlock hsteps (.inr ⟨ht.1, ht.2.trans hre⟩))
      · rw [hr] at hends
        cases hends with
        | error hfalls => exact .ended (.error hfalls)
    · split
      · rename_i herr
        exact .lost herr
      · exact .of_fail _

/-! ## Reading -/

/-- The session waits to read: for data, or for a new handshake that the peer asked for. -/
def ReadWaits (s : Session σ ω ε) : Prop :=
  s.state = .connected ∨ s.Held ∧ s.renegotiating = true

/-- What is known of a session once all was decrypted. -/
structure Decrypted (s : Session σ ω ε) : Prop where
  atRest : s.AtRest
  written : s.state = .closed → s.pendingWrite.data = []
  reason : s.plaintext.isEmpty = false ∨ s.peerClosed = true ∨ s.state = .connected

namespace Decrypted

omit [Engine σ ε] [Socket ω] in
theorem of_connected {s : Session σ ω ε} (hs : s.state = .connected) : s.Decrypted := by
  refine ⟨?_, fun hc => ?_, .inr (.inr hs)⟩
  · rw [AtRest, hs]
    simp
  · rw [hs] at hc
    cases hc

omit [Engine σ ε] [Socket ω] in
theorem of_held {s : Session σ ω ε} (h : s.Held) (hp : s.plaintext.isEmpty = false) :
    s.Decrypted := by
  refine ⟨h.atRest, fun hc => ?_, .inl hp⟩
  rcases h with h | h <;> rw [h] at hc <;> cases hc

theorem answerClose (s : Session σ ω ε) : s.answerClose.Decrypted := by
  obtain ⟨hpeer, -, hleft⟩ := s.answerClose_leaves
  refine ⟨?_, fun hc => ?_, .inr (.inl hpeer)⟩
  · rw [AtRest]
    rcases hleft with h | ⟨h, -⟩ <;> rw [h] <;> simp
  · rcases hleft with h | ⟨-, h⟩
    · rw [h] at hc
      cases hc
    · exact h

end Decrypted

theorem answerRead_ends {s : Session σ ω ε} (h : s.Decrypted) (max : Nat) :
    Finish s (fun _ => AtRest) ReadWaits (s.answerRead max) := by
  unfold answerRead
  split
  · exact .ok (.single (.handing _)) h.atRest
  split
  · exact .ok .refl h.atRest
  rename_i hplain hpeer
  have hs : s.state = .connected := by
    rcases h.reason with hp | hp | hp
    · rw [hp] at hplain
      exact absurd rfl hplain
    · exact absurd hp hpeer
    · exact hp
  split
  · exact .of_fall (.fail _ (by rw [hs]; simp))
  · exact .wouldBlock .refl (.inl hs)

theorem finishRead_ends {s : Session σ ω ε} (h : s.Decrypted) (max : Nat) :
    Finish s (fun _ => AtRest) ReadWaits (s.finishRead max) := by
  unfold finishRead
  split
  · exact answerRead_ends h max
  rename_i hpending
  have hkeep := Steady.flushPending s
  rcases hf : s.flushPending with ⟨answer, t⟩
  rw [hf] at hkeep
  have hstate := flushPending_state hf
  have hflush := flushPending_advances hf
  -- Only a session that has written all is closed, and here something is left.
  have hopen : s.state ≠ .closed := by
    intro hc
    exact hpending (s.pendingWrite.isEmpty_iff.2 (h.written hc))
  cases answer with
  | error e => exact .error ⟨t, hflush, .fail _ (by rwa [hstate])⟩
  | ok all =>
    have hready : t.Decrypted := by
      refine ⟨?_, fun hc => absurd (hstate ▸ hc) hopen, ?_⟩
      · rw [AtRest, hstate]
        exact h.atRest
      · rw [hkeep.plaintext, hkeep.peerClosed, hstate]
        exact h.reason
    exact Finish.after hflush (answerRead_ends hready max)

theorem decryptOnce_reopens {s : Session σ ω ε} (hs : s.state = .connected)
    (ha : s.decryptOnce.1 = .ok .renegotiate) (hr : s.renegotiations < maxRenegotiations) :
    Advance s s.decryptOnce.2.asked.reopen := .reopen hs (Prod.ext ha rfl) hr

/-- A new handshake within a read ends like any other. -/
theorem reopen_ends {s t : Session σ ω ε} (h : s.reopen.processHandshake = (.proceed, t)) :
    Finish s.reopen Agreed (fun u => u.Held ∧ u.renegotiating = true) t.runHandshake := by
  have hread : s.reopen.state = .handshakeRead := by rw [reopen_eq]
  have hflag : t.renegotiating = true := by
    have hsame := (Unmarked.processHandshake s.reopen).renegotiating
    rw [h, reopen_eq] at hsame
    exact hsame
  have hfirst : Advances s.reopen t := .single (.resume hread h)
  apply Finish.after hfirst
  apply (runHandshake_ends (.inl (processHandshake_goesOn h))).imp (fun _ _ hgood => hgood)
  rintro u ⟨hheld, hsame⟩
  exact ⟨hheld, hsame.trans hflag⟩

theorem Rounds.advances {n : Nat} {s t : Session σ ω ε} (h : Rounds n s t)
    (hs : s.state = .connected) (hn : n ≤ maxRenegotiations - s.renegotiations) : Advances s t := by
  induction h with
  | none s => exact .refl
  | @more n s t u h hrest ih =>
    have hopen := decryptOnce_reopens hs h.request (by omega)
    obtain ⟨-, hconn, hcount⟩ := (Rounds.more h (.none t)).turns 0 hs (by omega)
    have hround : Advances s.decryptOnce.2.asked.reopen t := by
      have hdone := h.done
      generalize hr : s.decryptOnce.2.asked.renegotiate = r at hdone
      have hcase := s.decryptOnce.2.asked.renegotiate_case
      rw [hr] at hcase
      cases hcase with
      | done hfirst hrun =>
        have hends := reopen_ends hfirst
        rw [hrun] at hends
        injection hdone with _ ht
        subst ht
        cases hends with
        | ok hsteps _ => exact hsteps
      | refused | failed | waits => cases hdone
    exact .head hopen (hround.trans (ih hconn (by omega)))

/-- A new handshake that fails or has to wait ends the read, unless there is plaintext to hand out. -/
theorem renegotiate_ends {s u : Session σ ω ε} {ended : Option (Status Bytes Unit)}
    (h : s.renegotiate = (.error ended, u)) (max : Nat) :
    Finish s.reopen (fun _ => AtRest) ReadWaits (match (ended, u) with
      | (some status, v) => (status, v)
      | (none, v) => v.finishRead max) := by
  generalize hq : s.renegotiate = q at h
  have hcase := s.renegotiate_case
  rw [hq] at hcase
  cases hcase with
  | refused hfirst =>
    cases h
    exact .of_fall (.resume (by rw [reopen_eq]) hfirst)
  | done => cases h
  | failed hfirst hrun =>
    have hends := reopen_ends hfirst
    rw [hrun] at hends
    cases h
    cases hends with
    | error hfalls => exact .error hfalls
  | waits hfirst hrun =>
    have hends := reopen_ends hfirst
    rw [hrun] at hends
    cases hends with
    | wouldBlock hsteps hheld =>
      cases h
      cases hempty : u.plaintext.isEmpty with
      | true => exact .wouldBlock hsteps (.inr hheld)
      | false => exact Finish.after hsteps (finishRead_ends (.of_held hheld.1 hempty) max)

theorem decryptAndFinish_ends {s : Session σ ω ε} (hs : s.state = .connected) (max : Nat) :
    Finish s (fun _ => AtRest) ReadWaits (s.decryptAndFinish max) := by
  obtain ⟨n, t, hn, hrounds, hlast, -⟩ := s.decryptAndFinish_rounds max
  obtain ⟨-, ht, hcount⟩ := hrounds.turns max hs hn
  -- The rounds that got their handshake are advances, so the last round decides.
  apply Finish.after (hrounds.advances hs hn)
  unfold decryptAndFinish
  generalize hm : maxRenegotiations - s.renegotiations - n = m at hlast
  generalize decryptAvailable (maxRenegotiations - s.renegotiations) s = r at hlast
  cases hlast with
  | @drained _ u hd =>
    have hstate : u.state = .connected := by
      have hsame : u = t.decryptOnce.2 := by rw [hd]
      rw [hsame]
      exact ht
    exact Finish.after (.single (.decrypt ht hd)) (finishRead_ends (.of_connected hstate) max)
  | @noticed _ u hd =>
    exact Finish.after (.single (.noticed ht hd)) (finishRead_ends (.answerClose u) max)
  | refused hd => exact .of_fall (.decrypt ht hd)
  | overrun hd => exact .of_fall (.overrun ht hd (by omega))
  | stopped hd hr =>
    have hask : t.decryptOnce.1 = .ok .renegotiate := by rw [hd]
    have hopen := decryptOnce_reopens ht hask (by omega)
    rw [hd] at hopen
    exact Finish.after (.single hopen) (renegotiate_ends hr max)

theorem receive_ends {s : Session σ ω ε} (hs : s.state = .connected) (max : Nat) :
    Finish s (fun _ => AtRest) ReadWaits (s.receive max) := by
  have hfill : ∀ {t : Session σ ω ε} {answer : Except IoError Bytes},
      s.fillRaw (Nat.max max maxRecordLength) = (answer, t) →
      Advances s t ∧ t.state = .connected := by
    intro t answer h
    have ht : t = (s.fillRaw (Nat.max max maxRecordLength)).2 := by rw [h]
    rw [ht, state_fillRaw]
    exact ⟨.single (.fill max hs), hs⟩
  generalize hr : s.receive max = r
  have hcase := s.receive_case max
  rw [hr] at hcase
  cases hcase with
  | failed h =>
    obtain ⟨hsteps, ht⟩ := hfill h
    exact .error ⟨_, hsteps, .fail _ (by rw [ht]; simp)⟩
  | @ended t h =>
    obtain ⟨hsteps, ht⟩ := hfill h
    have hend : Advances s { t with eof := true } := hsteps.tail (.sawEnd ht)
    have hconn : { t with eof := true }.state = .connected := ht
    exact Finish.after hend (decryptAndFinish_ends hconn max)
  | arrived h =>
    obtain ⟨hsteps, ht⟩ := hfill h
    exact Finish.after hsteps (decryptAndFinish_ends ht max)

theorem readData_ends {s : Session σ ω ε} (h : s.AtRest) (max : Nat) :
    Answers s (fun _ => AtRest) ReadWaits (s.readData max) := by
  generalize hr : s.readData max = r
  have hcase := s.readData_case max
  rw [hr] at hcase
  cases hcase with
  | nothing | parted => exact .ended (.ok .refl h)
  | buffered => exact .ended (.ok (.single (.handing _)) h)
  | received _ ht =>
    cases ht with
    | connected hs => exact .ended (receive_ends hs max)
    | agreed hin _ hrun =>
      have hends := runHandshake_ends (.inl hin)
      rw [hrun] at hends
      cases hends with
      | ok hsteps ht => exact .ended (Finish.after hsteps (receive_ends ht.1 max))
  | waits hin hre hrun =>
    have hends := runHandshake_ends (.inl hin)
    rw [hrun] at hends
    cases hends with
    | wouldBlock hsteps ht => exact .ended (.wouldBlock hsteps (.inr ⟨ht.1, ht.2.trans hre⟩))
  | failed hin _ hrun =>
    have hends := runHandshake_ends (.inl hin)
    rw [hrun] at hends
    cases hends with
    | error hfalls => exact .ended (.error hfalls)
  | lost herr => exact .lost herr
  | refused hopen => exact .ended (.of_fall (.fail _ hopen))

/-! ## Closing -/

/-- The session waits to close: its notice is not sent in full. -/
def CloseWaits (s : Session σ ω ε) : Prop := s.state = .closing ∧ s.pendingWrite.data ≠ []

omit [Engine σ ε] in
/-- A socket that takes no more leaves something pending. -/
theorem drain_rest (b : Buffer) (k : ω) (h : (drain b k).answer = .ok false) :
    (drain b k).buffer.data ≠ [] := by
  fun_induction drain b k with
  | case1 | case2 | case6 => cases h
  | case3 _ _ _ _ _ _ _ _ ih => exact ih h
  | case4 b k hne =>
    intro hempty
    exact hne (b.isEmpty_iff.2 hempty)
  | case5 _ _ _ _ _ _ _ _ _ _ ih => exact ih h

omit [Engine σ ε] in
theorem flushPending_rest {s : Session σ ω ε} (h : s.flushPending.1 = .ok false) :
    s.flushPending.2.pendingWrite.data ≠ [] := by
  unfold flushPending at h ⊢
  cases hk : s.socket with
  | none =>
    rw [hk] at h
    cases h
  | some k =>
    simp only [hk] at h
    exact drain_rest _ _ h

theorem finishClose_ends {s : Session σ ω ε} (hs : s.state = .closing) :
    Finish s (fun _ t => t.state = .closed) CloseWaits s.finishClose := by
  unfold finishClose
  rcases hf : s.flushPending with ⟨answer, t⟩
  have ht := (flushPending_state hf).trans hs
  have hflush := flushPending_advances hf
  rcases answer with e | _ | _
  · exact .error ⟨t, hflush, .fail _ (by rw [ht]; simp)⟩
  · have hrest := flushPending_rest (s := s) (by rw [hf])
    rw [hf] at hrest
    exact .wouldBlock hflush ⟨ht, hrest⟩
  · exact .ok (hflush.tail (.parted ht)) (state_setState ..)

theorem close_ends (s : Session σ ω ε) :
    Answers s (fun _ t => t.state = .closed) CloseWaits s.close := by
  unfold close
  split
  · rename_i hs
    rcases hn : s.notifyClose with ⟨e | _, t⟩
    · exact .ended (.of_fall (.notify hs hn))
    · exact .ended (Finish.after (.single (.notified hs hn)) (finishClose_ends (state_setState ..)))
  split
  · rename_i hs
    exact .ended (finishClose_ends hs)
  split
  · rename_i hs
    exact .ended (.ok .refl hs)
  split
  · rename_i herr
    exact .lost herr
  · exact .of_fail _

/-! ## Every call -/

theorem init_advances (s : Session σ ω ε) (k : ω) : Advances s (s.init k).2 := by
  unfold init
  split
  · rename_i hs
    exact .single (.bind k hs)
  · exact .refl

theorem setServerName_advances (s : Session σ ω ε) (name : String) :
    Advances s (s.setServerName name).2 := by
  unfold setServerName
  split
  · exact .refl
  split
  · exact .refl
  · rename_i hs
    exact .single (.nameServer name (by simpa using hs))

theorem perform_leads {s : Session σ ω ε} (h : s.AtRest)
    (hv : s.state = .connected → s.version.isSome = true) (c : Call ω) :
    Leads s (s.perform c).2 := by
  cases c with
  | init k => exact .well (s.init_advances k)
  | setServerName name => exact .well (s.setServerName_advances name)
  | connect host => exact (connect_ends hv host).leads
  | accept => exact (accept_ends hv).leads
  | write payload => exact (writeData_ends s payload).leads
  | read max => exact (readData_ends h max).leads
  | close => exact (close_ends s).leads
  | outside change => exact .well (.single (.outside change))

end Session
end TlsTransport
