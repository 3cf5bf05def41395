import Mathlib.Logic.Relation
import TlsTransport.Proofs.Session.Steps

/-! # Calls as chains of turns

What the owner of a session can do with it is a `Call`. Every call is a chain of elementary turns,
each with the condition under which the session takes it. What all turns keep, all calls keep, and
so do all runs.

* `Session.perform`, `Session.run`: one call, and a list of them.
* `Turn`, `Turns`: the elementary turns of a call, and chains of them.
* `Session.perform_turns`: a call is a chain of turns, after which a read hands out plaintext.
-/

namespace TlsTransport

variable {σ ω ε : Type}

/-! ## Calls -/

/-- What can happen to a session. -/
inductive Call (ω : Type) where
  | init (socket : ω)
  | setServerName (name : String)
  | connect (host : String)
  | accept
  | write (payload : Bytes)
  | read (max : Nat)
  | close
  /-- Between two calls the socket can become another one: data arrive, room is made. -/
  | outside (change : ω → ω)

/-- What a call answers. -/
inductive Answer where
  | setUp (result : Except SetupError Unit)
  | agreed (status : Status TlsVersion String)
  | wrote (status : Status Nat Unit)
  | got (status : Status Bytes Unit)
  | closed (status : Status Unit Unit)
  | nothing

/-- The bytes that an answer hands to the caller. -/
def Answer.handed : Answer → Bytes
  | got (.ok bytes) => bytes
  | _ => []

namespace Session

variable [Engine σ ε] [Socket ω]

/-- Makes a call. -/
def perform (s : Session σ ω ε) : Call ω → Answer × Session σ ω ε
  | .init k => let r := s.init k; (.setUp r.1, r.2)
  | .setServerName name => let r := s.setServerName name; (.setUp r.1, r.2)
  | .connect host => let r := s.connect host; (.agreed r.1, r.2)
  | .accept => let r := s.accept; (.agreed r.1, r.2)
  | .write payload => let r := s.writeData payload; (.wrote r.1, r.2)
  | .read max => let r := s.readData max; (.got r.1, r.2)
  | .close => let r := s.close; (.closed r.1, r.2)
  | .outside change => (.nothing, { s with socket := s.socket.map change })

/-- Makes calls in order. -/
def run (s : Session σ ω ε) : List (Call ω) → List Answer × Session σ ω ε
  | [] => ([], s)
  | c :: calls =>
    let r := s.perform c
    let rest := r.2.run calls
    (r.1 :: rest.1, rest.2)

theorem run_append (s : Session σ ω ε) (before after : List (Call ω)) :
    s.run (before ++ after) =
      ((s.run before).1 ++ ((s.run before).2.run after).1, ((s.run before).2.run after).2) := by
  induction before generalizing s with
  | nil => rfl
  | cons c before ih => simp [run, ih]

theorem run_concat (s : Session σ ω ε) (calls : List (Call ω)) (c : Call ω) :
    s.run (calls ++ [c]) =
      ((s.run calls).1 ++ [((s.run calls).2.perform c).1], ((s.run calls).2.perform c).2) := by
  rw [run_append]
  rfl

end Session

/-! ## Turns -/

/-- The notices that go with no change. -/
def Notice.isRemark : Notice ε → Bool
  | .writeBlocked .. | .replyFailed _ => true
  | _ => false

/-- The elementary turns of a call. -/
inductive Turn [Engine σ ε] [Socket ω] : Call ω → Session σ ω ε → Session σ ω ε → Prop where
  | bind {s : Session σ ω ε} (k : ω) (h : s.state = .constructed) :
      Turn (.init k) s ({ s with socket := some k }.setState .initialized)
  | nameServer {s : Session σ ω ε} (name : String) (h : s.state = .initialized) :
      Turn (.setServerName name) s { s with serverName := some name }
  | nameHost {s : Session σ ω ε} (host : String) (hside : s.side = .client)
      (h : s.state = .initialized) (hnone : s.hostname = none) :
      Turn (.connect host) s { s with hostname := some host }
  | outside {s : Session σ ω ε} (change : ω → ω) :
      Turn (.outside change) s { s with socket := s.socket.map change }
  | step {c : Call ω} {s : Session σ ω ε} (h : s.state.inHandshake = true ∨
      s.state = .initialized ∧ (s.side = .client → s.hostname ≠ none)) :
      Turn c s s.step.2
  | decrypt {max : Nat} {s : Session σ ω ε} (h : s.state = .connected)
      (ha : s.decryptOnce.1 ≠ .ok .renegotiate) :
      Turn (.read max) s s.decryptOnce.2
  | reopen {max : Nat} {s : Session σ ω ε} (h : s.state = .connected)
      (ha : s.decryptOnce.1 = .ok .renegotiate) (hr : s.renegotiations < maxRenegotiations) :
      Turn (.read max) s
        { s.decryptOnce.2 with renegotiations := s.renegotiations + 1 }.reopen
  | overrun {max : Nat} {s : Session σ ω ε} (h : s.state = .connected)
      (ha : s.decryptOnce.1 = .ok .renegotiate) (hr : maxRenegotiations ≤ s.renegotiations) :
      Turn (.read max) s
        ({ s.decryptOnce.2 with renegotiations := s.renegotiations + 1 }.fail .renegotiations)
  | resume {max : Nat} {s : Session σ ω ε} (h : s.state = .handshakeRead) :
      Turn (.read max) s s.processHandshake.2
  | fill {max : Nat} {s : Session σ ω ε} (h : s.state = .connected) :
      Turn (.read max) s (s.fillRaw (Nat.max max maxRecordLength)).2
  | sawEnd {max : Nat} {s : Session σ ω ε} (h : s.state = .connected) :
      Turn (.read max) s { s with eof := true }
  | sawClose {max : Nat} {s : Session σ ω ε} (h : s.state = .connected) :
      Turn (.read max) s { s.note .peerClosed with peerClosed := true }
  | encrypt {payload : Bytes} {s : Session σ ω ε} (chunk : Bytes) (h : s.state = .connected) :
      Turn (.write payload) s (s.encryptOnce chunk).2
  | track {payload : Bytes} {s : Session σ ω ε} (flight : Option InFlight)
      (h : s.state = .connected) :
      Turn (.write payload) s { s with inFlight := flight }
  | release {s : Session σ ω ε} (h : s.state = .connected) :
      Turn .close s { s with inFlight := none }
  | notify {c : Call ω} {s : Session σ ω ε} (hc : c = .close ∨ ∃ max, c = .read max)
      (h : s.state = .connected) :
      Turn c s s.notifyClose.2
  | withdraw {c : Call ω} {s : Session σ ω ε} {next : SessionState}
      (hc : c = .close ∨ ∃ max, c = .read max) (h : s.state = .connected ∨ s.state = .closing)
      (hnext : next = .closing ∨ next = .closed) :
      Turn c s (s.setState next)
  | flush {c : Call ω} {s : Session σ ω ε} :
      Turn c s s.flushPending.2
  | remark {c : Call ω} {s : Session σ ω ε} (n : Notice ε) (h : n.isRemark = true) :
      Turn c s (s.note n)
  | fail {c : Call ω} {s : Session σ ω ε} (f : Failure ε)
      (h : f = .otherPayload → ∃ payload, c = .write payload) :
      Turn c s (s.fail f)

/-- A chain of turns of one call. -/
def Turns [Engine σ ε] [Socket ω] (c : Call ω) : Session σ ω ε → Session σ ω ε → Prop :=
  Relation.ReflTransGen (Turn c)

/-- A call leaves a session as its turns left it, except that it took the bytes that it hands out
from the front of the plaintext. -/
structure HandsOut (t : Session σ ω ε) (r : Answer × Session σ ω ε) : Prop where
  frame : r.2 = { t with plaintext := r.2.plaintext }
  handed : r.1.handed ++ r.2.plaintext.data = t.plaintext.data

theorem HandsOut.of_eq {t : Session σ ω ε} {r : Answer × Session σ ω ε} (h : r.2 = t)
    (hr : r.1.handed = []) : HandsOut t r := by
  subst h
  exact ⟨rfl, by rw [hr]; rfl⟩

theorem HandsOut.takePlaintext (t : Session σ ω ε) (max : Nat) :
    HandsOut t (.got (t.takePlaintext max).1, (t.takePlaintext max).2) where
  frame := rfl
  handed := List.take_append_drop max t.plaintext.data

namespace Session

variable [Engine σ ε] [Socket ω]

/-! ## The handshake in turns -/

theorem flushBestEffort_turns (c : Call ω) (s : Session σ ω ε) : Turns c s s.flushBestEffort := by
  unfold flushBestEffort
  split
  · exact .single .flush
  · exact .refl

/-- When a step is a turn. -/
def MayStep (s : Session σ ω ε) : Prop :=
  s.state.inHandshake = true ∨ s.state = .initialized ∧ (s.side = .client → s.hostname ≠ none)

theorem runHandshake_turns (c : Call ω) {s : Session σ ω ε} (h : s.MayStep) :
    Turns c s s.runHandshake.2 := by
  fun_induction runHandshake s with
  | case1 s s' hs ih =>
    have hstep : Turn c s s' := by
      have := Turn.step (c := c) h
      rwa [hs] at this
    exact .head hstep (ih (.inl (step_proceed hs)))
  | case2 s status s' hs =>
    have hstep : Turn c s s' := by
      have := Turn.step (c := c) h
      rwa [hs] at this
    exact .single hstep

theorem failWith_turns (c : Call ω) (s : Session σ ω ε) {f : Failure ε}
    (hf : f ≠ .otherPayload) : Turns c s (s.failWith f).2 :=
  .single (.fail f fun h => absurd h hf)

theorem handshakeStatus_turns (c : Call ω) {s : Session σ ω ε}
    (h : s.state = .initialized → s.side = .client → s.hostname ≠ none) :
    Turns c s s.handshakeStatus.2 := by
  have hrun : s.MayStep → Turns c s s.handshakeStatus.2 := fun hm => by
    rw [handshakeStatus_of_handshake (hm.elim .inr fun hi => .inl hi.1)]
    exact runHandshake_turns c hm
  cases hs : s.state with
  | connected => cases hv : s.version <;> simp only [handshakeStatus, hs, hv] <;> exact .refl
  | initialized => exact hrun (.inr ⟨hs, h hs⟩)
  | handshakeWrite | handshakeRead | handshakeDone => exact hrun (.inl (by rw [hs]; rfl))
  | error => simp only [handshakeStatus, hs]; exact .refl
  | constructed | closing | closed =>
    simpa only [handshakeStatus, hs] using s.failWith_turns c (by simp)

theorem connect_turns (s : Session σ ω ε) (host : String) :
    Turns (.connect host) s (s.connect host).2 := by
  unfold connect
  split
  · exact s.failWith_turns _ (by simp)
  · rename_i hside
    have hside : s.side = .client := by simpa using hside
    simp only
    split
    · rename_i h
      exact .head (.nameHost host hside h.2 h.1) (handshakeStatus_turns _ (by simp))
    · rename_i h
      exact handshakeStatus_turns _ fun hi _ hn => h ⟨hn, hi⟩

theorem accept_turns (s : Session σ ω ε) : Turns .accept s s.accept.2 := by
  unfold accept
  split
  · exact s.failWith_turns _ (by simp)
  · rename_i hside
    exact handshakeStatus_turns _ fun _ hc => absurd hc (by simp_all)

/-! ## Writing in turns -/

theorem flush_turn (c : Call ω) {s t : Session σ ω ε} {answer : Except IoError Bool}
    (h : s.flushPending = (answer, t)) : Turn c s t ∧ t.state = s.state := by
  have ht : t = s.flushPending.2 := by rw [h]
  subst ht
  exact ⟨.flush, s.state_flushPending⟩

theorem encrypt_turn (payload : Bytes) {s t : Session σ ω ε} {chunk : Bytes}
    {answer : Except ε Unit} (h : s.encryptOnce chunk = (answer, t)) (hs : s.state = .connected) :
    Turn (.write payload) s t ∧ t.state = .connected := by
  have ht : t = (s.encryptOnce chunk).2 := by rw [h]
  subst ht
  exact ⟨.encrypt chunk hs, hs⟩

theorem fail_turn (c : Call ω) (s : Session σ ω ε) {f : Failure ε} (h : f ≠ .otherPayload) :
    Turn c s (s.fail f) :=
  .fail f fun hf => absurd hf h

theorem sendRest_turns (payload : Bytes) (fragment : Nat) (flight : InFlight) (rest : Bytes)
    {s : Session σ ω ε} (hs : s.state = .connected) :
    Turns (.write payload) s (s.sendRest fragment flight rest).2 := by
  induction flight, rest, s using sendRest.induct (σ := σ) (ω := ω) (ε := ε) fragment with
  | case1 flight rest s t e h₁ =>
    rw [sendRest_of_failed h₁]
    exact .head (flush_turn _ h₁).1 (.single (fail_turn _ _ (by simp)))
  | case2 flight rest s t h₁ =>
    rw [sendRest_of_blocked h₁]
    obtain ⟨hflush, ht⟩ := flush_turn (.write payload) h₁
    refine .head hflush (.head (.remark (.writeBlocked flight.locked flight.length
      t.pendingWrite.size) rfl) (.single (.track (some flight) ?_)))
    exact ht.trans hs
  | case3 flight rest s t hr h₁ =>
    rw [sendRest_of_done h₁ (by simpa using hr)]
    exact .single (flush_turn _ h₁).1
  | case4 flight rest s t hr chunk u e h₁ h₂ =>
    rw [sendRest_of_refused h₁ (by simpa using hr) h₂]
    obtain ⟨hflush, ht⟩ := flush_turn (.write payload) h₁
    obtain ⟨hencrypt, -⟩ := encrypt_turn payload h₂ (ht.trans hs)
    exact .head hflush (.head hencrypt (.single (fail_turn _ _ (by simp))))
  | case5 flight rest s t hr chunk u a h₁ h₂ ih =>
    rw [sendRest_of_encrypted h₁ (by simpa using hr) h₂]
    obtain ⟨hflush, ht⟩ := flush_turn (.write payload) h₁
    obtain ⟨hencrypt, hu⟩ := encrypt_turn payload h₂ (ht.trans hs)
    exact .head hflush (.head hencrypt (ih hu))

theorem sendPayload_turns {s : Session σ ω ε} (payload : Bytes) (hs : s.state = .connected) :
    Turns (.write payload) s (s.sendPayload payload).2 := by
  unfold sendPayload
  simp only
  split
  · have htrack : Turn (.write payload) s { s with inFlight := none } := .track none hs
    split
    · exact .head htrack (.single (.fail _ fun _ => ⟨payload, rfl⟩))
    · exact .head htrack (sendRest_turns payload _ _ _ hs)
  · split
    · exact .refl
    · exact sendRest_turns payload _ _ _ hs

theorem writeData_turns (s : Session σ ω ε) (payload : Bytes) :
    Turns (.write payload) s (s.writeData payload).2 := by
  unfold writeData
  split
  · rename_i hs
    exact sendPayload_turns payload hs
  · split
    · rename_i hs
      have hm : s.MayStep := .inl (by simp_all)
      have hrun := runHandshake_turns (.write payload) hm
      rcases hr : s.runHandshake with ⟨status, t⟩
      rw [hr] at hrun
      cases status with
      | ok v => exact hrun.trans (sendPayload_turns payload (runHandshake_ok hr))
      | wouldBlock => exact hrun
      | error => exact hrun
    · split
      · exact .refl
      · exact .single (fail_turn _ _ (by simp))

/-! ## Reading in turns -/

theorem notifyClose_turn (c : Call ω) (hc : c = .close ∨ ∃ max, c = .read max)
    {s t : Session σ ω ε} {answer : Except ε Unit} (h : s.notifyClose = (answer, t))
    (hs : s.state = .connected) : Turn c s t ∧ t.state = .connected := by
  have ht : t = s.notifyClose.2 := by rw [h]
  subst ht
  exact ⟨.notify hc hs, hs⟩

theorem leave_turns (max : Nat) {s : Session σ ω ε} (hs : s.state = .connected) :
    Turns (.read max) s s.leave := by
  unfold leave
  rcases h : s.flushPending with ⟨answer, t⟩
  obtain ⟨hflush, ht⟩ := flush_turn (.read max) h
  have hout : ∀ next, next = .closing ∨ next = .closed →
      Turn (.read max) t (t.setState next) :=
    fun _ hnext => .withdraw (.inr ⟨max, rfl⟩) (.inl (ht.trans hs)) hnext
  refine .head hflush ?_
  simp only
  split
  · exact .single (hout _ (.inr rfl))
  · exact .single (hout _ (.inl rfl))

theorem answerClose_turns (max : Nat) {s : Session σ ω ε} (hs : s.state = .connected) :
    Turns (.read max) s s.answerClose := by
  refine .head (.sawClose hs) ?_
  unfold answerClose
  rcases h : notifyClose { s.note .peerClosed with peerClosed := true } with ⟨answer, t⟩
  obtain ⟨hnotify, ht⟩ := notifyClose_turn (.read max) (.inr ⟨max, rfl⟩) h hs
  refine .head hnotify ?_
  cases answer with
  | ok _ => exact leave_turns max ht
  | error e => exact .head (.remark (.replyFailed e) rfl) (leave_turns max ht)

/-- A renegotiation that goes on has connected the session again. -/
theorem renegotiate_turns (max : Nat) {s t : Session σ ω ε}
    {answer : Except (Option (Status Bytes Unit)) Unit} (h : s.renegotiate = (answer, t)) :
    Turns (.read max) s.reopen t ∧ (∀ u, answer = .ok u → t.state = .connected) ∧
      t.renegotiations = s.renegotiations := by
  have hread : s.reopen.state = .handshakeRead := by
    unfold reopen
    exact state_setState ..
  have hopen : Steady s.reopen s.reopen := .refl _
  have hcount : s.reopen.renegotiations = s.renegotiations := by
    unfold reopen
    exact (Steady.setState _ _).renegotiations
  have hresume : Turn (.read max) s.reopen s.reopen.processHandshake.2 := .resume hread
  have hsteady := Steady.processHandshake s.reopen
  unfold renegotiate at h
  rcases s.reopen.processHandshake_cases with ⟨e, -, he⟩ | ⟨progress, u, -, -, hu⟩
  · rw [he] at h hresume hsteady
    injection h with ha ht
    subst ha ht
    exact ⟨.single hresume, by simp, hsteady.renegotiations.trans hcount⟩
  · rw [hu] at h hresume hsteady
    have hm : (u.setState u.nextHandshakeState).MayStep :=
      .inl (by rw [state_setState]; exact u.inHandshake_nextHandshakeState)
    have hrun := runHandshake_turns (.read max) hm
    have hkeep := hsteady.trans (Steady.runHandshake (u.setState u.nextHandshakeState))
    rcases hr : (u.setState u.nextHandshakeState).runHandshake with ⟨status, w⟩
    simp only [hr] at h hrun hkeep
    have hchain : Turns (.read max) s.reopen w := .head hresume hrun
    have hkept := hkeep.renegotiations.trans hcount
    cases status with
    | ok v =>
      injection h with ha ht
      subst ht
      exact ⟨hchain, fun _ _ => runHandshake_ok hr, hkept⟩
    | error _ =>
      injection h with ha ht
      subst ha ht
      exact ⟨hchain, by simp, hkept⟩
    | wouldBlock =>
      simp only at h
      split at h
      all_goals
        injection h with ha ht
        subst ha ht
        exact ⟨hchain, by simp, hkept⟩

theorem decrypt_turn (max : Nat) {s t : Session σ ω ε} {answer : Except ε DecryptStop}
    (h : s.decryptOnce = (answer, t)) (hs : s.state = .connected)
    (ha : answer ≠ .ok .renegotiate) : Turn (.read max) s t ∧ t.state = .connected := by
  have ht : t = s.decryptOnce.2 := by rw [h]
  subst ht
  exact ⟨.decrypt hs (by rwa [h]), hs⟩

/-- Without a new handshake, decryption runs once. -/
theorem decryptAvailable_turns_once (max admitted : Nat) {s : Session σ ω ε}
    (hs : s.state = .connected) (ha : s.decryptOnce.1 ≠ .ok .renegotiate) :
    Turns (.read max) s (decryptAvailable admitted s).2 := by
  rcases h : s.decryptOnce with ⟨answer, t⟩
  obtain ⟨hturn, ht⟩ := decrypt_turn max h hs (by rwa [h] at ha)
  rcases answer with e | _ | _ | _
  · rw [decryptAvailable_of_failed h]
    exact .head hturn (.head (fail_turn _ _ (by simp)) (flushBestEffort_turns _ _))
  · rw [decryptAvailable_of_needsInput h]
    exact .single hturn
  · rw [h] at ha
    exact absurd rfl ha
  · rw [decryptAvailable_of_closeNotify h]
    exact .head hturn (answerClose_turns max ht)

theorem decryptAvailable_turns (max admitted : Nat) {s : Session σ ω ε}
    (hs : s.state = .connected) (hadm : admitted = maxRenegotiations - s.renegotiations) :
    Turns (.read max) s (decryptAvailable admitted s).2 := by
  induction admitted generalizing s with
  | zero =>
    by_cases ha : s.decryptOnce.1 = .ok .renegotiate
    · rcases h : s.decryptOnce with ⟨answer, t⟩
      have hturn : Turn (.read max) s _ := .overrun hs ha (by omega)
      have hcount : t.renegotiations = s.renegotiations :=
        (congrArg (fun r => r.2.renegotiations) h).symm
      rw [h] at ha hturn
      subst ha
      rw [decryptAvailable_of_overrun h, hcount]
      exact .single hturn
    · exact decryptAvailable_turns_once max 0 hs ha
  | succ admitted ih =>
    by_cases ha : s.decryptOnce.1 = .ok .renegotiate
    · rcases h : s.decryptOnce with ⟨answer, t⟩
      have hturn : Turn (.read max) s _ := .reopen hs ha (by omega)
      have hcount : t.renegotiations = s.renegotiations :=
        (congrArg (fun r => r.2.renegotiations) h).symm
      rw [h] at ha hturn
      subst ha
      rcases hr : renegotiate { t with renegotiations := t.renegotiations + 1 } with ⟨answer, u⟩
      obtain ⟨hchain, hconn, hkept⟩ := renegotiate_turns max hr
      rw [hcount] at hchain
      cases answer with
      | ok a =>
        rw [decryptAvailable_of_reopened h hr]
        have hu : admitted = maxRenegotiations - u.renegotiations := by
          rw [hkept]
          simp only [hcount]
          omega
        exact .head hturn (hchain.trans (ih (hconn a rfl) hu))
      | error ended =>
        rw [decryptAvailable_of_ended h hr]
        exact .head hturn hchain
    · exact decryptAvailable_turns_once max (admitted + 1) hs ha

theorem answerRead_turns (max : Nat) (s : Session σ ω ε) : ∃ t,
    Turns (.read max) s t ∧ HandsOut t (.got (s.answerRead max).1, (s.answerRead max).2) := by
  unfold answerRead
  split
  · exact ⟨s, .refl, .takePlaintext s max⟩
  split
  · exact ⟨s, .refl, .of_eq rfl rfl⟩
  split
  · exact ⟨s.fail .eof, .single (fail_turn _ _ (by simp)), .of_eq rfl rfl⟩
  · exact ⟨s, .refl, .of_eq rfl rfl⟩

theorem finishRead_turns (max : Nat) (s : Session σ ω ε) : ∃ t,
    Turns (.read max) s t ∧ HandsOut t (.got (s.finishRead max).1, (s.finishRead max).2) := by
  unfold finishRead
  split
  · exact answerRead_turns max s
  · rcases h : s.flushPending with ⟨answer, t⟩
    obtain ⟨hflush, -⟩ := flush_turn (.read max) h
    cases answer with
    | error e => exact ⟨t.fail (.io e), .head hflush (.single (fail_turn _ _ (by simp))),
        .of_eq rfl rfl⟩
    | ok all =>
      obtain ⟨u, hu, hout⟩ := answerRead_turns max t
      exact ⟨u, .head hflush hu, hout⟩

/-- Reading that ends early hands out nothing. -/
theorem renegotiate_ended {s t : Session σ ω ε} {status : Status Bytes Unit}
    (h : s.renegotiate = (.error (some status), t)) (bytes : Bytes) : status ≠ .ok bytes := by
  unfold renegotiate at h
  simp only at h
  split at h
  · injection h with ha _
    injection ha with ha
    simp [← Option.some.inj ha]
  · split at h
    · cases h
    · injection h with ha _
      injection ha with ha
      simp [← Option.some.inj ha]
    · split at h
      · injection h with ha _
        injection ha with ha
        simp [← Option.some.inj ha]
      · cases h

theorem decryptAvailable_ended {admitted : Nat} {s t : Session σ ω ε}
    {status : Status Bytes Unit} (h : decryptAvailable admitted s = (some status, t))
    (bytes : Bytes) : status ≠ .ok bytes := by
  fun_induction decryptAvailable admitted s with
  | case1 | case2 => cases h
  | case3 | case4 =>
    injection h with h _
    simp [← Option.some.inj h]
  | case5 _ _ _ _ _ _ _ _ ih => exact ih h
  | case6 _ _ _ _ _ _ _ hr =>
    injection h with h ht
    subst h ht
    exact renegotiate_ended hr bytes

/-- What a read does once the socket has answered. -/
theorem decryptAndFinish_turns (max : Nat) {s : Session σ ω ε} (hs : s.state = .connected) :
    ∃ t, Turns (.read max) s t ∧ HandsOut t (.got (s.decryptAndFinish max).1,
      (s.decryptAndFinish max).2) := by
  have hchain := decryptAvailable_turns max _ hs rfl
  unfold decryptAndFinish
  rcases h : decryptAvailable (maxRenegotiations - s.renegotiations) s with ⟨ended, t⟩
  rw [h] at hchain
  cases ended with
  | some status =>
    refine ⟨t, hchain, .of_eq rfl ?_⟩
    cases status with
    | ok bytes => exact absurd rfl (decryptAvailable_ended h bytes)
    | wouldBlock | error => rfl
  | none =>
    obtain ⟨u, hu, hout⟩ := finishRead_turns max t
    exact ⟨u, hchain.trans hu, hout⟩

theorem receive_turns (max : Nat) {s : Session σ ω ε} (hs : s.state = .connected) :
    ∃ t, Turns (.read max) s t ∧ HandsOut t (.got (s.receive max).1, (s.receive max).2) := by
  have hfill : Turn (.read max) s (s.fillRaw (Nat.max max maxRecordLength)).2 := .fill hs
  have hstate : (s.fillRaw (Nat.max max maxRecordLength)).2.state = .connected :=
    (s.state_fillRaw _).trans hs
  unfold receive
  rcases h : s.fillRaw (Nat.max max maxRecordLength) with ⟨answer, t⟩
  rw [h] at hfill hstate
  have hgo : ∃ u, Turns (.read max) s u ∧ HandsOut u (.got (t.decryptAndFinish max).1,
      (t.decryptAndFinish max).2) := by
    obtain ⟨u, hu, hout⟩ := decryptAndFinish_turns max hstate
    exact ⟨u, .head hfill hu, hout⟩
  rcases answer with e | _ | ⟨b, rest⟩
  · simp only
    split
    · exact hgo
    · exact ⟨t.fail (.io e), .head hfill (.single (fail_turn _ _ (by simp))), .of_eq rfl rfl⟩
  · obtain ⟨u, hu, hout⟩ := decryptAndFinish_turns max (s := { t with eof := true }) hstate
    exact ⟨u, .head hfill (.head (.sawEnd hstate) hu), hout⟩
  · exact hgo

theorem readData_turns (s : Session σ ω ε) (max : Nat) : ∃ t,
    Turns (.read max) s t ∧ HandsOut t (.got (s.readData max).1, (s.readData max).2) := by
  unfold readData
  split
  · exact ⟨s, .refl, .of_eq rfl rfl⟩
  split
  · exact ⟨s, .refl, .takePlaintext s max⟩
  split
  · rename_i hs
    exact receive_turns max hs
  split
  · rename_i hs
    have hm : s.MayStep := .inl (by simp_all)
    have hrun := runHandshake_turns (.read max) hm
    rcases hr : s.runHandshake with ⟨status, t⟩
    rw [hr] at hrun
    cases status with
    | ok v =>
      obtain ⟨u, hu, hout⟩ := receive_turns max (runHandshake_ok hr)
      exact ⟨u, hrun.trans hu, hout⟩
    | wouldBlock | error => exact ⟨t, hrun, .of_eq rfl rfl⟩
  split
  · exact ⟨s, .refl, .of_eq rfl rfl⟩
  split
  · exact ⟨s, .refl, .of_eq rfl rfl⟩
  · exact ⟨s.fail (.misuse (.readIn s.state)), .single (fail_turn _ _ (by simp)), .of_eq rfl rfl⟩

/-! ## Closing in turns -/

theorem finishClose_turns {s : Session σ ω ε} (hs : s.state = .connected ∨ s.state = .closing) :
    Turns .close s s.finishClose.2 := by
  unfold finishClose
  rcases h : s.flushPending with ⟨answer, t⟩
  obtain ⟨hflush, ht⟩ := flush_turn .close h
  rcases answer with e | all
  · exact .head hflush (.single (fail_turn _ _ (by simp)))
  · cases all with
    | true => exact .head hflush (.single (.withdraw (.inl rfl) (by rwa [ht]) (.inr rfl)))
    | false => exact .single hflush

theorem close_turns (s : Session σ ω ε) : Turns .close s s.close.2 := by
  unfold close
  split
  · rename_i hs
    rcases h : s.notifyClose with ⟨answer, t⟩
    obtain ⟨hnotify, ht⟩ := notifyClose_turn .close (.inl rfl) h hs
    cases answer with
    | error e => exact .head hnotify (.single (fail_turn _ _ (by simp)))
    | ok a =>
      refine .head hnotify (.head (.release ht) (.head (.withdraw (.inl rfl) (.inl ht)
        (.inl rfl)) (finishClose_turns (.inr ?_))))
      exact state_setState ..
  split
  · rename_i hs
    exact finishClose_turns (.inr hs)
  split
  · exact .refl
  split
  · exact .refl
  · exact .single (fail_turn _ _ (by simp))

/-! ## Every call -/

/-- A call is a chain of turns, after which a read may have taken bytes out of the plaintext. -/
theorem perform_turns (s : Session σ ω ε) (c : Call ω) :
    ∃ t, Turns c s t ∧ HandsOut t (s.perform c) := by
  cases c with
  | init k =>
    refine ⟨(s.init k).2, ?_, .of_eq rfl rfl⟩
    unfold init
    split
    · rename_i h
      exact .single (.bind k h)
    · exact .refl
  | setServerName name =>
    refine ⟨(s.setServerName name).2, ?_, .of_eq rfl rfl⟩
    unfold setServerName
    split
    · exact .refl
    split
    · exact .refl
    · rename_i h
      exact .single (.nameServer name (by simpa using h))
  | connect host => exact ⟨_, connect_turns s host, .of_eq rfl rfl⟩
  | accept => exact ⟨_, accept_turns s, .of_eq rfl rfl⟩
  | write payload => exact ⟨_, writeData_turns s payload, .of_eq rfl rfl⟩
  | read max => exact readData_turns s max
  | close => exact ⟨_, close_turns s, .of_eq rfl rfl⟩
  | outside change => exact ⟨_, .single (.outside change), .of_eq rfl rfl⟩

end Session
end TlsTransport
