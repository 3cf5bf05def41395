import TlsTransport.Proofs.Session.Advance
import TlsTransport.Proofs.Session.Truncation

/-! # Answers and states

What a call answers says in which state it leaves the session, and the other way round. A failure is
recorded when a call fails, and then once.

* `Session.failures`: the failures that were reported.
* `Clean`, `Fallen`: moments between which nothing failed, and between which one thing did.
* `Kept`: what holds of a session between two calls.
* `Tallies`: what an answer says about the session, and `Session.answers_tally`, that it does.
-/

namespace TlsTransport

variable {σ ω ε α δ : Type}

/-- A failure that was reported. -/
def Event.failure : Event ε → List (Failure ε)
  | .notice (.failed _ f) => [f]
  | _ => []

namespace Session

/-- The failures that were reported, oldest first. -/
def failures (s : Session σ ω ε) : List (Failure ε) := gather Event.failure s.journal

/-! ## Without a failure -/

/-- Between two moments nothing failed. -/
structure Clean (s t : Session σ ω ε) : Prop where
  lastFailure : t.lastFailure = s.lastFailure
  journal : Grows (fun e => e.failure = []) s t

namespace Clean

variable {s t u : Session σ ω ε}

theorem failures (h : Clean s t) : t.failures = s.failures := h.journal.gather Event.failure

theorem of_eq (hf : t.lastFailure = s.lastFailure) (hj : t.journal = s.journal) : Clean s t :=
  ⟨hf, .of_eq hj⟩

theorem one {e : Event ε} (hf : t.lastFailure = s.lastFailure) (hj : t.journal = e :: s.journal)
    (he : e.failure = []) : Clean s t := ⟨hf, .one hj he⟩

theorem trans (h : Clean s t) (k : Clean t u) : Clean s u :=
  ⟨k.lastFailure.trans h.lastFailure, h.journal.trans k.journal⟩

theorem setState (s : Session σ ω ε) (next : SessionState) : Clean s (s.setState next) := by
  refine ⟨?_, .setState s rfl⟩
  rw [setState_eq]

theorem reopen (s : Session σ ω ε) : Clean s s.reopen := by
  have hasked : Clean s { s.note (.renegotiationRequested s.renegotiations) with
      renegotiating := true, handshakeComplete := false } := one rfl rfl rfl
  exact hasked.trans (setState _ _)

theorem connectedAs [Engine σ ε] (s : Session σ ω ε) (v : TlsVersion) :
    Clean s (s.connectedAs v) := by
  refine ⟨?_, .connectedAs s v ?_ rfl⟩
  · obtain ⟨remarks, -, h⟩ := s.connectedAs_frame v
    rw [h]
  · rintro n (rfl | rfl | rfl) <;> rfl

section Calls

variable [Engine σ ε]

theorem encryptOnce {chunk : Bytes} {answer : Except ε Unit}
    (h : s.encryptOnce chunk = (answer, t)) : Clean s t ∧ t.state = s.state := by
  have ht : t = (s.encryptOnce chunk).2 := by rw [h]
  subst ht
  exact ⟨one rfl rfl rfl, rfl⟩

theorem decryptOnce {answer : Except ε DecryptStop} (h : s.decryptOnce = (answer, t)) :
    Clean s t ∧ t.state = s.state := by
  have ht : t = s.decryptOnce.2 := by rw [h]
  subst ht
  exact ⟨one rfl rfl rfl, rfl⟩

theorem notifyClose {answer : Except ε Unit} (h : s.notifyClose = (answer, t)) :
    Clean s t ∧ t.state = s.state := by
  have ht : t = s.notifyClose.2 := by rw [h]
  subst ht
  exact ⟨one rfl rfl rfl, rfl⟩

end Calls

section Moves

variable [Socket ω]

theorem flushPending (s : Session σ ω ε) : Clean s s.flushPending.2 := by
  refine ⟨?_, .flushPending (fun _ => rfl) s⟩
  obtain ⟨k, b, calls, h⟩ := s.flushPending_frame
  rw [h]

theorem fillRaw (s : Session σ ω ε) (max : Nat) : Clean s (s.fillRaw max).2 := by
  refine ⟨?_, .fillRaw (fun _ => rfl) s max⟩
  obtain ⟨k, b, calls, h⟩ := s.fillRaw_frame max
  rw [h]

theorem leave (s : Session σ ω ε) : Clean s s.leave := by
  have hflush := flushPending s
  unfold Session.leave
  rcases h : s.flushPending with ⟨answer, t⟩
  rw [h] at hflush
  simp only
  split
  · exact hflush.trans (setState _ _)
  · exact hflush.trans (setState _ _)

variable [Engine σ ε]

theorem answerClose (s : Session σ ω ε) : Clean s s.answerClose := by
  unfold Session.answerClose
  have hseen : Clean s { s.note .peerClosed with peerClosed := true } := one rfl rfl rfl
  rcases h : Session.notifyClose { s.note .peerClosed with peerClosed := true } with ⟨answer, t⟩
  have ht : Clean s t := hseen.trans (notifyClose h).1
  cases answer with
  | ok _ => exact ht.trans (leave t)
  | error e =>
    have hnoted : Clean t (t.note (.replyFailed e)) := one rfl rfl rfl
    exact (ht.trans hnoted).trans (leave _)

theorem processHandshake {s t : Session σ ω ε} (h : s.processHandshake = (.proceed, t)) :
    Clean s t := by
  have honce : Clean s s.handshakeOnce.2 := one rfl rfl rfl
  rcases s.processHandshake_cases with ⟨e, -, he⟩ | ⟨progress, u, -, hu, hgo⟩
  · rw [he] at h
    cases h
  · rw [hgo] at h
    injection h with _ ht
    have hflag : Clean s.handshakeOnce.2 u := by
      rw [hu]
      exact of_eq rfl rfl
    rw [← ht]
    exact honce.trans (hflag.trans (setState _ _))

end Moves
end Clean

/-! ## A failure -/

/-- Between two moments one thing failed, and the session with it. -/
structure Fallen (s t : Session σ ω ε) : Prop where
  state : t.state = .error
  inFlight : t.inFlight = none
  recorded : ∃ f, t.lastFailure = some f ∧ t.failures = s.failures ++ [f]

theorem failures_fail (s : Session σ ω ε) (f : Failure ε) :
    (s.fail f).failures = s.failures ++ [f] := by
  rw [fail_eq, failures, failures]
  by_cases h : s.state = .closed ∨ s.state = .error
  · simp only [if_pos h, gather_cons]
    rfl
  · simp only [if_neg h, gather_cons]
    exact List.append_nil _

namespace Fallen

variable {s t u : Session σ ω ε}

theorem of_fail (h : Clean s t) (f : Failure ε) (ht : t.state ≠ .closed) :
    Fallen s (t.fail f) := by
  refine ⟨fail_error f ht, t.fail_inFlight f, f, ?_, ?_⟩
  · rw [fail_eq]
  · rw [failures_fail, h.failures]

theorem after (h : Clean s t) (k : Fallen t u) : Fallen s u := by
  obtain ⟨f, hlast, hall⟩ := k.recorded
  exact ⟨k.state, k.inFlight, f, hlast, by rw [hall, h.failures]⟩

variable [Socket ω]

theorem flushed (h : Fallen s t) : Fallen s t.flushBestEffort := by
  obtain ⟨f, hlast, hall⟩ := h.recorded
  have hjournal : Grows (fun e => e.failure = []) t t.flushBestEffort :=
    .flushBestEffort (fun _ => rfl) t
  refine ⟨by rw [state_flushBestEffort, h.state], ?_, f, ?_, ?_⟩
  · rw [(Keeps.flushBestEffort t).inFlight, h.inFlight]
  · obtain ⟨k, b, calls, hframe⟩ := t.flushBestEffort_frame
    rw [hframe]
    exact hlast
  · exact (hjournal.gather Event.failure).trans hall

variable [Engine σ ε]

theorem processHandshake (h : s.processHandshake = (.yield (.error ()), t))
    (hs : s.state ≠ .closed) : Fallen s t := by
  have honce : Clean s s.handshakeOnce.2 := .one rfl rfl rfl
  rcases s.processHandshake_cases with ⟨e, -, he⟩ | ⟨progress, u, -, -, hgo⟩
  · rw [he] at h
    injection h with _ ht
    rw [← ht]
    exact (of_fail honce _ hs).flushed
  · rw [hgo] at h
    cases h

end Fallen

/-! ## Between two calls -/

/-- What holds of a session between two calls: it does not stop short of connecting, one that failed
has given up its write, and the last failure that was reported is recorded. -/
structure Kept (s : Session σ ω ε) : Prop where
  atRest : s.AtRest
  lost : s.state = .error → s.inFlight = none ∧ s.lastFailure.isSome = true
  recorded : s.lastFailure = s.failures.getLast?

theorem Kept.fresh (engine : σ) (side : Side) (verifyPeer : Bool) (policy : CipherPolicy) :
    Kept (ofEngine engine side verifyPeer policy : Session σ ω ε) where
  atRest := by simp [AtRest, ofEngine]
  lost h := by cases h
  recorded := rfl

theorem Kept.of_fallen {s t : Session σ ω ε} (h : Fallen s t) : Kept t := by
  obtain ⟨f, hlast, hall⟩ := h.recorded
  refine ⟨?_, fun _ => ⟨h.inFlight, by rw [hlast]; rfl⟩, ?_⟩
  · rw [AtRest, h.state]
    simp
  · rw [hlast, hall, List.getLast?_concat]

/-- A closed session records a call that it declines, and that is all. -/
theorem Kept.declined {s : Session σ ω ε} (hs : s.state = .closed) (f : Failure ε) :
    Kept (s.fail f) ∧ (s.fail f).state = .closed ∧ (s.fail f).lastFailure = some f := by
  have hstate : (s.fail f).state = .closed := by
    rw [fail_eq]
    exact if_pos hs
  have hlast := lastFailure_fail s f
  refine ⟨⟨?_, fun herr => ?_, ?_⟩, hstate, hlast⟩
  · rw [AtRest, hstate]
    simp
  · rw [hstate] at herr
    cases herr
  · rw [hlast, failures_fail, List.getLast?_concat]

/-! ## What an answer says -/

/-- A call that failed: the session failed with it or before, or it was closed before and stays so.
No write is in flight, and a failure is recorded. -/
structure Failed (s t : Session σ ω ε) : Prop where
  state : t.state = .error ∨ s.state = .closed ∧ t.state = .closed
  inFlight : t.inFlight = none
  recorded : t.lastFailure.isSome = true

/-- What the answer of a call says about the session after it, and that a failure is reported when a
call fails only, and once. -/
structure Tallies (s : Session σ ω ε) (good : α → Session σ ω ε → Prop)
    (waits : Session σ ω ε → Prop) (r : Status α δ × Session σ ω ε) : Prop where
  kept : Kept r.2
  ok : ∀ a, r.1 = .ok a → good a r.2
  wouldBlock : r.1 = .wouldBlock → waits r.2
  error : ∀ e, r.1 = .error e → Failed s r.2
  once : r.2.failures = s.failures ∨
    (∃ e, r.1 = .error e) ∧ ∃ f, r.2.failures = s.failures ++ [f]

/-- A session is connected after a handshake call exactly if the call says so. -/
theorem Tallies.agreed_iff {s : Session σ ω ε} {r : Status TlsVersion δ × Session σ ω ε}
    (h : Tallies s Agreed Held r) (v : TlsVersion) : r.1 = .ok v ↔ Agreed v r.2 := by
  constructor
  · exact h.ok v
  · rintro ⟨hconn, hv⟩
    rcases hr : r.1 with w | _ | e
    · obtain ⟨-, hw⟩ := h.ok w hr
      rw [hv] at hw
      injection hw with hw
      rw [hw]
    · rcases h.wouldBlock hr with hheld | hheld <;> rw [hconn] at hheld <;> cases hheld
    · rcases (h.error e hr).state with hstate | ⟨-, hstate⟩ <;> rw [hconn] at hstate <;> cases hstate

/-! ## One step -/

variable [Engine σ ε] [Socket ω]

/-- A step either goes well or fails once. -/
theorem step_clean {s : Session σ ω ε} (h : s.MayStep) :
    Clean s s.step.2 ∧ s.step.1 ≠ .yield (.error ()) ∨
    Fallen s s.step.2 ∧ s.step.1 = .yield (.error ()) := by
  have hopen := h.not_closed
  have hstart : Clean s s.startEngine.2 := .one rfl rfl rfl
  have hgo : ∀ {t : Session σ ω ε}, Clean s t → t.state ≠ .closed →
      Clean s t.processHandshake.2 ∧ t.processHandshake.1 ≠ .yield (.error ()) ∨
      Fallen s t.processHandshake.2 ∧ t.processHandshake.1 = .yield (.error ()) := by
    intro t hclean ht
    -- What the session writes after a failure is best effort and reports nothing more.
    rcases t.processHandshake_cases with ⟨e, -, he⟩ | ⟨progress, u, -, -, hu⟩
    · have hfall := Fallen.processHandshake he ht
      rw [he]
      exact .inr ⟨Fallen.after hclean hfall, rfl⟩
    · have hon := Clean.processHandshake hu
      rw [hu]
      exact .inl ⟨hclean.trans hon, by simp⟩
  have hflush := Clean.flushPending s
  have hfill := Clean.fillRaw s maxRecordLength
  generalize hr : s.step = r
  have hcase := s.step_case
  rw [hr] at hcase
  cases hcase with
  | startFailed => exact .inr ⟨.of_fail hstart _ hopen, rfl⟩
  | started =>
    have hready : Clean s { s.startEngine.2 with handshakeComplete := false } :=
      hstart.trans (.of_eq rfl rfl)
    exact hgo hready hopen
  | sent => exact .inl ⟨hflush.trans (.setState _ _), by simp⟩
  | sendBlocked => exact .inl ⟨hflush, by simp⟩
  | sendFailed => exact .inr ⟨.of_fail hflush _ (by rwa [state_flushPending]), rfl⟩
  | ended | receiveFailed => exact .inr ⟨.of_fail hfill _ (by rwa [state_fillRaw]), rfl⟩
  | arrived => exact hgo hfill (by rwa [state_fillRaw])
  | waits => exact .inl ⟨hfill, by simp⟩
  | finish =>
    rcases s.finishHandshake_cases with ⟨-, f, -, hf⟩ | ⟨-, v, -, hv⟩
    · rw [hf]
      exact .inr ⟨.of_fail (.of_eq rfl rfl) f hopen, rfl⟩
    · rw [hv]
      exact .inl ⟨.connectedAs s v, by simp⟩
  | agreed => exact .inl ⟨.of_eq rfl rfl, by simp⟩
  | refused => exact .inr ⟨.of_fail (.of_eq rfl rfl) _ hopen, rfl⟩

end Session

section Tallying

open Session

variable [Engine σ ε] [Socket ω] {s t : Session σ ω ε}

/-! ## Advances and falls -/

theorem Advance.clean (h : Advance s t) : Clean s t := by
  cases h with
  | bind k =>
    have hbound : Clean s { s with socket := some k } := .of_eq rfl rfl
    exact hbound.trans (.setState _ _)
  | nameServer | nameHost | outside | handing | sawEnd | track => exact .of_eq rfl rfl
  | step hm hs hr =>
    rcases step_clean hm with ⟨hclean, -⟩ | ⟨-, hfail⟩
    · rwa [hs] at hclean
    · rw [hs] at hfail
      exact absurd hfail hr
  | resume _ hs => exact .processHandshake hs
  | flush => exact .flushPending s
  | fill => exact .fillRaw s _
  | encrypt _ ha => exact (Clean.encryptOnce ha).1
  | remark n hn => exact .one rfl rfl (by cases n <;> first | rfl | cases hn)
  | decrypt _ ha => exact (Clean.decryptOnce ha).1
  | @reopen u _ ha =>
    have hasked : Clean u u.asked := .of_eq rfl rfl
    exact ((Clean.decryptOnce ha).1.trans hasked).trans (.reopen _)
  | noticed _ ha => exact (Clean.decryptOnce ha).1.trans (.answerClose _)
  | @notified u _ ha =>
    have hfree : Clean u { u with inFlight := none } := .of_eq rfl rfl
    exact ((Clean.notifyClose ha).1.trans hfree).trans (.setState _ _)
  | parted => exact .setState s _

/-- Nothing goes on in a session that failed. -/
theorem Advance.lost (h : Advance s t) (hs : s.state = .error) :
    t.state = .error ∧ t.inFlight = s.inFlight := by
  have hno : ∀ {state : SessionState}, s.state = state → state ≠ .error →
      t.state = .error ∧ t.inFlight = s.inFlight := by
    intro state hstate hne
    rw [hstate] at hs
    exact absurd hs hne
  cases h with
  | bind _ h | nameServer _ h | nameHost _ _ h | resume h | fill _ h | sawEnd h | encrypt h
  | track _ h | decrypt h | reopen h | noticed h | notified h | parted h => exact hno h (by simp)
  | step h =>
    rcases h with h | ⟨h, -⟩
    · rw [hs] at h
      cases h
    · exact hno h (by simp)
  | outside | handing | remark => exact ⟨hs, rfl⟩
  | flush => exact ⟨(s.state_flushPending).trans hs, (Keeps.flushPending s).inFlight⟩

/-- Nothing that goes well leads into failure. -/
theorem Advance.open (h : Advance s t) (ht : t.state = .error) : s.state = .error := by
  have hno : ∀ {state : SessionState}, s.state = state → state ≠ .error → t.state = s.state →
      s.state = .error := by
    intro state hstate hne hsame
    rw [hsame, hstate] at ht
    exact absurd ht hne
  have hdead : t.state.inHandshake ≠ true := by
    rw [ht]
    simp [SessionState.inHandshake]
  cases h with
  | bind => rw [state_setState] at ht; cases ht
  | nameServer _ h | nameHost _ _ h | sawEnd h | track _ h => exact hno h (by simp) rfl
  | outside | handing | remark => exact ht
  | @step r _ _ hs hr =>
    rcases r with _ | _ | _ | _
    · exact absurd (step_proceed hs) hdead
    · rw [step_yield_ok hs] at ht
      cases ht
    · rcases step_yield_wouldBlock hs with hheld | hheld <;> rw [hheld] at ht <;> cases ht
    · exact absurd rfl hr
  | resume _ hs => exact absurd (processHandshake_goesOn hs) hdead
  | flush => rwa [state_flushPending] at ht
  | fill => rwa [state_fillRaw] at ht
  | encrypt h ha => exact hno h (by simp) (Clean.encryptOnce ha).2
  | decrypt h ha => exact hno h (by simp) (Clean.decryptOnce ha).2
  | reopen => rw [reopen_eq] at ht; cases ht
  | @noticed u =>
    obtain ⟨-, -, hleft⟩ := u.answerClose_leaves
    rcases hleft with hleft | ⟨hleft, -⟩ <;> rw [hleft] at ht <;> cases ht
  | notified | parted => rw [state_setState] at ht; cases ht

theorem Fall.fallen (h : Fall s t) : Fallen s t := by
  have hopen : ∀ {u : Session σ ω ε}, s.state = .connected → u.state = s.state →
      u.state ≠ .closed := by
    intro u hs hu
    rw [hu, hs]
    simp
  cases h with
  | fail f h => exact .of_fail (.of_eq rfl rfl) f h
  | step hm hs =>
    rcases step_clean hm with ⟨-, hok⟩ | ⟨hfallen, -⟩
    · rw [hs] at hok
      exact absurd rfl hok
    · rwa [hs] at hfallen
  | resume h hs => exact .processHandshake hs (by rw [h]; simp)
  | encrypt h ha =>
    obtain ⟨hclean, hstate⟩ := Clean.encryptOnce ha
    exact .of_fail hclean _ (hopen h hstate)
  | decrypt h ha =>
    obtain ⟨hclean, hstate⟩ := Clean.decryptOnce ha
    exact (Fallen.of_fail hclean _ (hopen h hstate)).flushed
  | @overrun u h ha =>
    obtain ⟨hclean, hstate⟩ := Clean.decryptOnce ha
    have hasked : Clean u u.asked := .of_eq rfl rfl
    exact .of_fail (hclean.trans hasked) _ (hopen h hstate)
  | notify h ha =>
    obtain ⟨hclean, hstate⟩ := Clean.notifyClose ha
    exact .of_fail hclean _ (hopen h hstate)

theorem Advances.clean (h : Advances s t) : Clean s t := by
  induction h with
  | refl => exact .of_eq rfl rfl
  | tail _ hlast ih => exact ih.trans hlast.clean

theorem Advances.open (h : Advances s t) (ht : t.state = .error) : s.state = .error := by
  induction h with
  | refl => exact ht
  | tail _ hlast ih => exact ih (hlast.open ht)

theorem Advances.lost (h : Advances s t) (hs : s.state = .error) :
    t.state = .error ∧ t.inFlight = s.inFlight := by
  induction h with
  | refl => exact ⟨hs, rfl⟩
  | tail _ hlast ih =>
    obtain ⟨hstate, hflight⟩ := hlast.lost ih.1
    exact ⟨hstate, hflight.trans ih.2⟩

theorem Falls.fallen (h : Falls s t) : Fallen s t := by
  obtain ⟨u, hadvances, hfall⟩ := h
  exact Fallen.after hadvances.clean hfall.fallen

theorem Session.Kept.advances (h : Kept s) (k : Advances s t) (ht : t.AtRest) : Kept t := by
  refine ⟨ht, fun herr => ?_, ?_⟩
  · have hs := k.open herr
    have hlast := k.clean.lastFailure
    obtain ⟨-, hflight⟩ := k.lost hs
    rw [hflight, hlast]
    exact h.lost hs
  · rw [k.clean.lastFailure, k.clean.failures]
    exact h.recorded

theorem Answers.tally {good : α → Session σ ω ε → Prop} {waits : Session σ ω ε → Prop}
    {r : Status α δ × Session σ ω ε} (h : Answers s good waits r) (hs : Kept s)
    (hgood : ∀ a t, good a t → t.AtRest) (hwaits : ∀ t, waits t → t.AtRest) :
    Tallies s good waits r := by
  cases h with
  | ended h =>
    cases h with
    | @ok a t h ht =>
      refine ⟨hs.advances h (hgood a t ht), ?_, by simp, by simp, .inl h.clean.failures⟩
      intro b hb
      injection hb with hb
      rwa [← hb]
    | @wouldBlock t h ht =>
      exact ⟨hs.advances h (hwaits t ht), by simp, fun _ => ht, by simp, .inl h.clean.failures⟩
    | @error e t h =>
      have hfallen := h.fallen
      obtain ⟨f, hlast, hall⟩ := hfallen.recorded
      refine ⟨.of_fallen hfallen, by simp, by simp, fun _ _ => ?_, .inr ⟨⟨e, rfl⟩, f, hall⟩⟩
      exact ⟨.inl hfallen.state, hfallen.inFlight, by rw [hlast]; rfl⟩
  | lost herr =>
    obtain ⟨hflight, hlast⟩ := hs.lost herr
    exact ⟨hs, by simp, by simp, fun _ _ => ⟨.inl herr, hflight, hlast⟩, .inl rfl⟩
  | @declined e f hclosed =>
    obtain ⟨hkept, hstate, hlast⟩ := Kept.declined hclosed f
    refine ⟨hkept, by simp, by simp, fun _ _ => ?_, .inr ⟨⟨e, rfl⟩, f, failures_fail s f⟩⟩
    exact ⟨.inr ⟨hclosed, hstate⟩, s.fail_inFlight f, by rw [hlast]; rfl⟩

end Tallying

namespace Session

variable [Engine σ ε] [Socket ω] {s : Session σ ω ε}

/-! ## The calls -/

namespace Kept

theorem connect (h : Kept s) (hg : Gated s) (host : String) :
    Tallies s Agreed Held (s.connect host) :=
  (connect_ends (fun hs => hg.version (.inl hs)) host).tally h (fun _ _ ht => ht.atRest)
    fun _ ht => ht.atRest

theorem accept (h : Kept s) (hg : Gated s) : Tallies s Agreed Held s.accept :=
  (accept_ends fun hs => hg.version (.inl hs)).tally h (fun _ _ ht => ht.atRest)
    fun _ ht => ht.atRest

theorem writeData (h : Kept s) (payload : Bytes) :
    Tallies s (fun _ t => t.state = .connected) WriteWaits (s.writeData payload) := by
  apply (writeData_ends s payload).tally h
  · intro _ t ht
    rw [AtRest, ht]
    simp
  · rintro t (⟨ht, -⟩ | ⟨ht, -⟩)
    · rw [AtRest, ht]
      simp
    · exact ht.atRest

theorem readData (h : Kept s) (max : Nat) :
    Tallies s (fun _ => AtRest) ReadWaits (s.readData max) := by
  apply (readData_ends h.atRest max).tally h
  · exact fun _ _ ht => ht
  · rintro t (ht | ⟨ht, -⟩)
    · rw [AtRest, ht]
      simp
    · exact ht.atRest

theorem close (h : Kept s) : Tallies s (fun _ t => t.state = .closed) CloseWaits s.close := by
  apply (close_ends s).tally h
  · intro _ t ht
    rw [AtRest, ht]
    simp
  · rintro t ⟨ht, -⟩
    rw [AtRest, ht]
    simp

theorem perform (h : Kept s) (hg : Gated s) (c : Call ω) : Kept (s.perform c).2 := by
  cases c with
  | init k =>
    apply h.advances (s.init_advances k)
    unfold init
    split
    · rw [AtRest, state_setState]
      simp
    · exact h.atRest
  | setServerName name =>
    apply h.advances (s.setServerName_advances name)
    unfold setServerName
    split
    · exact h.atRest
    split
    · exact h.atRest
    · exact h.atRest
  | connect host => exact (h.connect hg host).kept
  | accept => exact (h.accept hg).kept
  | write payload => exact (h.writeData payload).kept
  | read max => exact (h.readData max).kept
  | close => exact h.close.kept
  | outside change => exact h.advances (.single (.outside change)) h.atRest

-- The induction is on the calls: `Kept` holds between two of them, not within one.
theorem run (h : Kept s) (hg : Gated s) (calls : List (Call ω)) : Kept (s.run calls).2 := by
  induction calls generalizing s with
  | nil => exact h
  | cons c calls ih => exact ih (h.perform hg c) (hg.perform c)

end Kept

/-- After every run, each of the five operations answers as the session is afterwards: a handshake
call answers a version exactly if the session is connected with it, an operation that would block
leaves the session where it can be repeated, and one that fails leaves it failed, or closed if it was
closed. It reports a failure only then, and once. -/
theorem answers_tally (engine : σ) (side : Side) (verifyPeer : Bool) (policy : CipherPolicy)
    (calls : List (Call ω)) :
    let s := ((ofEngine engine side verifyPeer policy : Session σ ω ε).run calls).2
    (∀ host, Tallies s Agreed Held (s.connect host) ∧
      ∀ v, (s.connect host).1 = .ok v ↔ (s.connect host).2.Agreed v) ∧
    (Tallies s Agreed Held s.accept ∧ ∀ v, s.accept.1 = .ok v ↔ s.accept.2.Agreed v) ∧
    (∀ payload, Tallies s (fun _ t => t.state = .connected) WriteWaits (s.writeData payload)) ∧
    (∀ max, Tallies s (fun _ => AtRest) ReadWaits (s.readData max)) ∧
    Tallies s (fun _ t => t.state = .closed) CloseWaits s.close := by
  intro s
  have hfresh : Kept (ofEngine engine side verifyPeer policy : Session σ ω ε) :=
    .fresh engine side verifyPeer policy
  have hgate : Gated (ofEngine engine side verifyPeer policy : Session σ ω ε) := .of_unbegun rfl
  have hs : Kept s := hfresh.run hgate calls
  have hg : Gated s := hgate.run calls
  refine ⟨fun host => ?_, ?_, hs.writeData, hs.readData, hs.close⟩
  · exact ⟨hs.connect hg host, (hs.connect hg host).agreed_iff⟩
  · exact ⟨hs.accept hg, (hs.accept hg).agreed_iff⟩

end Session
end TlsTransport
