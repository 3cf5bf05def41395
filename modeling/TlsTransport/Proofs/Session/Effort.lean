import TlsTransport.Proofs.Session.Loops
import TlsTransport.Proofs.Session.Resumption

/-! # What a call costs

Every call ends, and what it asks of the engine is paid for: a handshake call by bytes that arrived
or by a request of the peer, but for the one that starts the handshake, and a piece to encrypt by a
byte of the payload that was not encrypted before.

* `Session.debt`: how many handshake calls nothing has paid for.
* `Session.debt_perform`: one call adds one to it at most.
* `Session.writeData_pieces`: a write encrypts at most as many pieces as there are bytes left.
* `Session.calls_end`: all loops of a session end, and no call costs more.
-/

namespace TlsTransport

variable {σ ω ε : Type}

/-! ## Entries -/

/-- Whether an entry is a handshake call. -/
def Event.isHandshake : Event ε → Bool
  | .engine (.handshake ..) => true
  | _ => false

/-- Whether an entry is a read of bytes. -/
def Event.isArrival : Event ε → Bool
  | .socket (.read _ (.ok bytes)) => !bytes.isEmpty
  | _ => false

/-- Whether an entry is a request of the peer for a new handshake. -/
def Event.isRequest : Event ε → Bool
  | .engine (.decrypt _ _ _ (.ok .renegotiate)) => true
  | _ => false

/-- What an entry adds to the handshake calls that nothing has paid for. -/
def Event.cost (e : Event ε) : Int := e.isHandshake.toNat - e.isArrival.toNat - e.isRequest.toNat

/-- The handshake calls in a journal that nothing has paid for. -/
def owed : List (Event ε) → Int
  | [] => 0
  | e :: journal => e.cost + owed journal

theorem owed_eq (journal : List (Event ε)) : owed journal =
    journal.countP Event.isHandshake - journal.countP Event.isArrival -
      journal.countP Event.isRequest := by
  induction journal with
  | nil => rfl
  | cons e journal ih =>
    simp only [owed, ih, List.countP_cons, Event.cost]
    cases e.isHandshake <;> cases e.isArrival <;> cases e.isRequest <;> simp <;> omega

theorem owed_append (newer older : List (Event ε)) :
    owed (newer ++ older) = owed newer + owed older := by
  induction newer with
  | nil => exact (Int.zero_add _).symm
  | cons e newer ih =>
    simp only [List.cons_append, owed, ih]
    exact (Int.add_assoc ..).symm

/-- What can be done in any state costs nothing. -/
theorem Event.cost_of_fits {e : Event ε} (h : e.fits .closed = true) : e.cost = 0 := by
  rcases e with call | call | n
  · cases call <;> cases h
  · cases call with
    | write => rfl
    | read | flush => cases h
  · rfl

theorem owed_eq_zero {newer : List (Event ε)} (h : ∀ e ∈ newer, e.cost = 0) : owed newer = 0 := by
  induction newer with
  | nil => rfl
  | cons e newer ih =>
    have hrest := ih fun e' he' => h e' (List.mem_cons_of_mem e he')
    rw [owed, h e List.mem_cons_self, hrest, Int.zero_add]

namespace Session

/-! ## Debts -/

/-- How many handshake calls nothing has paid for. -/
def debt (s : Session σ ω ε) : Int := owed s.journal

theorem debt_append {s t : Session σ ω ε} {newer : List (Event ε)}
    (h : t.journal = newer ++ s.journal) : t.debt = owed newer + s.debt := by
  rw [debt, debt, h, owed_append]

theorem debt_of_adds {s t : Session σ ω ε} (h : Adds .closed s t) : t.debt = s.debt := by
  obtain ⟨newer, hj, hfits⟩ := h
  rw [debt_append hj, owed_eq_zero fun e he => Event.cost_of_fits (hfits e he), Int.zero_add]

theorem debt_of_silent {s t : Session σ ω ε} (h : Silent s t) : t.debt = s.debt :=
  debt_of_adds (.silent h)

theorem debt_of_call {s t : Session σ ω ε} (call : EngineCall ε)
    (h : t.journal = .engine call :: s.journal) : t.debt = s.debt + (Event.engine call).cost := by
  rw [debt, h, owed, Int.add_comm]
  rfl

section Moves

variable [Socket ω]

theorem debt_flushPending (s : Session σ ω ε) : s.flushPending.2.debt = s.debt :=
  debt_of_adds (.flushPending s)

theorem debt_flushBestEffort (s : Session σ ω ε) : s.flushBestEffort.debt = s.debt :=
  debt_of_adds (.flushBestEffort s)

/-- Bytes that arrive pay for one handshake call. -/
theorem debt_fillRaw {s t : Session σ ω ε} {max : Nat} {answer : Except IoError Bytes}
    (h : s.fillRaw max = (answer, t)) :
    t.debt = s.debt + (Event.socket (ε := ε) (.read max answer)).cost := by
  rcases fillRaw_reads h with ⟨hnone, rfl⟩ | ⟨first, hj, hfirst⟩
  · simp only [fillRaw, hnone, Prod.mk.injEq] at h
    rw [← h.1]
    exact (Int.add_zero _).symm
  · have hread : t.journal = (.socket (.read max answer) :: (first.map Event.socket).reverse) ++
        s.journal := hj
    have hfree : ∀ e ∈ (first.map (Event.socket (ε := ε))).reverse, e.cost = 0 := by
      intro e he
      obtain ⟨call, hcall, rfl⟩ := List.mem_map.1 (List.mem_reverse.1 he)
      obtain ⟨e, rfl⟩ := hfirst call hcall
      rfl
    rw [debt_append hread, owed, owed_eq_zero hfree]
    omega

theorem debt_fillRaw_le {s t : Session σ ω ε} {max : Nat} {answer : Except IoError Bytes}
    (h : s.fillRaw max = (answer, t)) : t.debt ≤ s.debt := by
  have hcost : (Event.socket (ε := ε) (.read max answer)).cost ≤ 0 := by
    cases answer with
    | error => exact Int.le_refl 0
    | ok bytes => cases bytes <;> simp [Event.cost, Event.isHandshake, Event.isArrival,
        Event.isRequest]
  rw [debt_fillRaw h]
  omega

end Moves

variable [Engine σ ε] [Socket ω]

/-! ## The handshake -/

theorem debt_processHandshake (s : Session σ ω ε) : s.processHandshake.2.debt = s.debt + 1 := by
  have honce : s.handshakeOnce.2.debt = s.debt + 1 :=
    debt_of_call (.handshake _ _ s.handshakeOnce.1) rfl
  rcases s.processHandshake_cases with ⟨e, -, he⟩ | ⟨progress, t, -, ht, hu⟩
  · rw [he, ← honce]
    exact (debt_flushBestEffort _).trans (debt_of_silent (.fail _ _))
  · have hsame : t.debt = s.handshakeOnce.2.debt := by rw [ht]; rfl
    rw [hu, ← honce, ← hsame]
    exact debt_of_silent (.setState _ _)

/-- The handshake call that starts a handshake is free. -/
def allowance (s : Session σ ω ε) : Int := if s.state = .initialized then 1 else 0

omit [Engine σ ε] [Socket ω] in
theorem allowance_of_inHandshake {s : Session σ ω ε} (h : s.state.inHandshake = true) :
    s.allowance = 0 := by
  have hne : s.state ≠ .initialized := by
    intro hs
    rw [hs] at h
    cases h
  exact if_neg hne

theorem debt_step (s : Session σ ω ε) : s.step.2.debt ≤ s.debt + s.allowance := by
  have hallow : 0 ≤ s.allowance := by
    unfold allowance
    split <;> decide
  have hless : ∀ {t : Session σ ω ε}, t.debt ≤ s.debt → t.debt ≤ s.debt + s.allowance := by
    intro t ht
    omega
  have hsame : ∀ {t : Session σ ω ε}, t.debt = s.debt → t.debt ≤ s.debt + s.allowance :=
    fun ht => hless (Int.le_of_eq ht)
  have hfail : ∀ {t : Session σ ω ε} {f : Failure ε}, t.debt ≤ s.debt →
      (t.fail f).debt ≤ s.debt + s.allowance := by
    intro t f ht
    rw [debt_of_silent (.fail t f)]
    exact hless ht
  generalize hr : s.step = r
  have hcase := s.step_case
  rw [hr] at hcase
  cases hcase with
  | startFailed =>
    have hstart : s.startEngine.2.debt = s.debt := (debt_of_call _ rfl).trans (Int.add_zero _)
    exact hfail (Int.le_of_eq hstart)
  | started h =>
    have hstart : { s.startEngine.2 with handshakeComplete := false }.debt = s.debt :=
      (debt_of_call _ rfl).trans (Int.add_zero _)
    have hone : s.allowance = 1 := if_pos h
    exact Int.le_of_eq (by rw [debt_processHandshake, hstart, hone])
  | sent => exact hsame ((debt_of_silent (.setState _ _)).trans s.debt_flushPending)
  | sendBlocked => exact hsame s.debt_flushPending
  | sendFailed => exact hfail (Int.le_of_eq s.debt_flushPending)
  | ended h ha => exact hfail (debt_fillRaw_le (Prod.ext ha rfl))
  | arrived bytes h ha hne =>
    have hread := debt_fillRaw (Prod.ext ha rfl)
    have hpaid : (Event.socket (ε := ε) (.read maxRecordLength (.ok bytes))).cost = -1 := by
      obtain ⟨b, rest, rfl⟩ := List.exists_cons_of_ne_nil hne
      rfl
    rw [debt_processHandshake, hread, hpaid]
    omega
  | waits e h ha => exact hless (debt_fillRaw_le (Prod.ext ha rfl))
  | receiveFailed e h ha => exact hfail (debt_fillRaw_le (Prod.ext ha rfl))
  | finish =>
    rcases s.finishHandshake_cases with ⟨-, f, -, hf⟩ | ⟨-, v, -, hv⟩
    · rw [hf]
      exact hfail (Int.le_refl _)
    · rw [hv]
      exact hsame (debt_of_silent (.connectedAs _ _))
  | agreed => exact hsame rfl
  | refused => exact hfail (Int.le_refl _)

theorem debt_runHandshake (s : Session σ ω ε) : s.runHandshake.2.debt ≤ s.debt + s.allowance := by
  fun_induction runHandshake s with
  | case1 s s' hs ih =>
    have hstep : s'.debt ≤ s.debt + s.allowance := by
      have h := s.debt_step
      rwa [hs] at h
    rw [allowance_of_inHandshake (step_proceed hs), Int.add_zero] at ih
    exact Int.le_trans ih hstep
  | case2 s status s' hs =>
    have hstep := s.debt_step
    rwa [hs] at hstep

/-- A handshake that is under way costs nothing more. -/
theorem debt_resumed {s : Session σ ω ε} (h : s.state.inHandshake = true) :
    s.runHandshake.2.debt ≤ s.debt := by
  have hrun := s.debt_runHandshake
  rw [allowance_of_inHandshake h] at hrun
  omega

/-! ## Reading -/

theorem debt_renegotiate (s : Session σ ω ε) : s.renegotiate.2.debt ≤ s.debt + 1 := by
  have hfirst : s.reopen.processHandshake.2.debt = s.debt + 1 := by
    rw [debt_processHandshake, debt_of_silent (.reopen s)]
  rcases s.renegotiate_left with h | ⟨t, ht, h⟩
  · rw [h]
    exact Int.le_of_eq hfirst
  · rw [ht] at hfirst
    rw [h]
    exact Int.le_trans (debt_resumed (processHandshake_goesOn ht)) (Int.le_of_eq hfirst)

omit [Socket ω] in
/-- A request of the peer pays for the handshake call that it leads to. -/
theorem debt_decryptOnce {s t : Session σ ω ε} {answer : Except ε DecryptStop}
    (h : s.decryptOnce = (answer, t)) :
    t.debt ≤ s.debt ∧ (answer = .ok .renegotiate → t.debt + 1 ≤ s.debt) := by
  have ht : t = s.decryptOnce.2 := by rw [h]
  have ha : answer = s.decryptOnce.1 := by rw [h]
  have hcost : t.debt = s.debt + (Event.engine (.decrypt s.rawRead.size s.plaintext.size
      ((Engine.decrypt s.engine s.rawRead s.pendingWrite s.plaintext).traffic s.rawRead
        s.pendingWrite s.plaintext) answer)).cost := by
    rw [ht, ha]
    exact debt_of_call _ rfl
  rw [hcost]
  rcases answer with e | _ | _ | _
  · exact ⟨Int.le_of_eq (Int.add_zero _), by simp⟩
  · exact ⟨Int.le_of_eq (Int.add_zero _), by simp⟩
  · have hpaid : (Event.engine (.decrypt s.rawRead.size s.plaintext.size
        ((Engine.decrypt s.engine s.rawRead s.pendingWrite s.plaintext).traffic s.rawRead
          s.pendingWrite s.plaintext) (.ok .renegotiate : Except ε DecryptStop))).cost = -1 := rfl
    rw [hpaid]
    omega
  · exact ⟨Int.le_of_eq (Int.add_zero _), by simp⟩

omit [Socket ω] in
theorem debt_notifyClose (s : Session σ ω ε) : s.notifyClose.2.debt = s.debt :=
  (debt_of_call (.closeNotify _ s.notifyClose.1) rfl).trans (Int.add_zero _)

omit [Engine σ ε] in
theorem debt_leave (s : Session σ ω ε) : s.leave.debt = s.debt := by
  have hflush := s.debt_flushPending
  unfold leave
  rcases h : s.flushPending with ⟨answer, t⟩
  rw [h] at hflush
  simp only
  split <;> exact (debt_of_silent (.setState _ _)).trans hflush

theorem debt_answerClose (s : Session σ ω ε) : s.answerClose.debt = s.debt := by
  have hseen : { s.note .peerClosed with peerClosed := true }.debt = s.debt :=
    debt_of_silent (t := s.note .peerClosed) (.note s .peerClosed)
  have hnotify := debt_notifyClose { s.note .peerClosed with peerClosed := true }
  unfold answerClose
  rcases h : notifyClose { s.note .peerClosed with peerClosed := true } with ⟨answer, t⟩
  rw [h] at hnotify
  have ht : t.debt = s.debt := hnotify.trans hseen
  cases answer with
  | ok _ => exact (debt_leave t).trans ht
  | error e => exact (debt_leave _).trans ((debt_of_silent (.note t _)).trans ht)

theorem Round.debt {s t : Session σ ω ε} (h : Round s t) : t.debt ≤ s.debt := by
  have hpaid := (debt_decryptOnce (Prod.ext h.request rfl)).2 rfl
  have hdone := debt_renegotiate s.decryptOnce.2.asked
  rw [h.done] at hdone
  exact Int.le_trans hdone hpaid

theorem Rounds.debt {n : Nat} {s t : Session σ ω ε} (h : Rounds n s t) : t.debt ≤ s.debt := by
  induction h with
  | none => exact Int.le_refl _
  | more h _ ih => exact Int.le_trans ih h.debt

theorem LastRound.debt {n : Nat} {s : Session σ ω ε}
    {r : Option (Status Bytes Unit) × Session σ ω ε} (h : LastRound s n r) :
    r.2.debt ≤ s.debt := by
  cases h with
  | drained hd => exact (debt_decryptOnce hd).1
  | noticed hd =>
    rw [debt_answerClose]
    exact (debt_decryptOnce hd).1
  | refused hd =>
    rw [debt_flushBestEffort, debt_of_silent (.fail _ _)]
    exact (debt_decryptOnce hd).1
  | overrun hd =>
    rw [debt_of_silent (.fail _ _)]
    exact (debt_decryptOnce hd).1
  | stopped hd hr =>
    have hpaid := (debt_decryptOnce hd).2 rfl
    have hdone := debt_renegotiate s.decryptOnce.2.asked
    rw [hd, hr] at hdone
    exact Int.le_trans hdone hpaid

omit [Engine σ ε] [Socket ω] in
theorem debt_answerRead (s : Session σ ω ε) (max : Nat) : (s.answerRead max).2.debt = s.debt := by
  unfold answerRead
  split
  · rfl
  split
  · rfl
  split
  · exact debt_of_silent (.fail _ _)
  · rfl

omit [Engine σ ε] in
theorem debt_finishRead (s : Session σ ω ε) (max : Nat) : (s.finishRead max).2.debt = s.debt := by
  have hflush := s.debt_flushPending
  unfold finishRead
  split
  · exact debt_answerRead s max
  · rcases h : s.flushPending with ⟨e | _, t⟩ <;> rw [h] at hflush
    · exact (debt_of_silent (.fail _ _)).trans hflush
    · exact (debt_answerRead t max).trans hflush

theorem debt_decryptAndFinish (s : Session σ ω ε) (max : Nat) :
    (s.decryptAndFinish max).2.debt ≤ s.debt := by
  obtain ⟨n, t, -, hrounds, hlast⟩ :=
    decryptAvailable_rounds (maxRenegotiations - s.renegotiations) s
  have hless := Int.le_trans hlast.debt hrounds.debt
  unfold decryptAndFinish
  rcases hd : decryptAvailable (maxRenegotiations - s.renegotiations) s with ⟨_ | status, u⟩ <;>
    rw [hd] at hless
  · exact Int.le_trans (Int.le_of_eq (debt_finishRead u max)) hless
  · exact hless

theorem debt_receive (s : Session σ ω ε) (max : Nat) : (s.receive max).2.debt ≤ s.debt := by
  generalize hr : s.receive max = r
  have hcase := s.receive_case max
  rw [hr] at hcase
  cases hcase with
  | failed h =>
    rw [debt_of_silent (.fail _ _)]
    exact debt_fillRaw_le h
  | @ended t h =>
    have hfill : t.debt ≤ s.debt := debt_fillRaw_le h
    exact Int.le_trans (debt_decryptAndFinish _ max) hfill
  | arrived h => exact Int.le_trans (debt_decryptAndFinish _ max) (debt_fillRaw_le h)

theorem Ready.debt {s t : Session σ ω ε} (h : Ready s t) : t.debt ≤ s.debt := by
  cases h with
  | connected => exact Int.le_refl _
  | agreed h _ ht =>
    have hrun := debt_resumed h
    rwa [ht] at hrun

theorem debt_readData (s : Session σ ω ε) (max : Nat) : (s.readData max).2.debt ≤ s.debt := by
  generalize hr : s.readData max = r
  have hcase := s.readData_case max
  rw [hr] at hcase
  cases hcase with
  | nothing | buffered | parted | lost => exact Int.le_refl _
  | received _ ht => exact Int.le_trans (debt_receive _ max) ht.debt
  | waits h _ ht | failed h _ ht =>
    have hrun := debt_resumed h
    rwa [ht] at hrun
  | refused => exact Int.le_of_eq (debt_of_silent (.fail _ _))

/-! ## Writing and closing -/

omit [Socket ω] in
theorem debt_encryptOnce {s t : Session σ ω ε} {chunk : Bytes} {answer : Except ε Unit}
    (h : s.encryptOnce chunk = (answer, t)) : t.debt = s.debt := by
  have ht : t = (s.encryptOnce chunk).2 := by rw [h]
  rw [ht]
  exact (debt_of_call (.encrypt chunk _ (s.encryptOnce chunk).1) rfl).trans (Int.add_zero _)

theorem debt_sendRest (fragment : Nat) (flight : InFlight) (rest : Bytes) (s : Session σ ω ε) :
    (s.sendRest fragment flight rest).2.debt = s.debt := by
  have hflush : ∀ {s t : Session σ ω ε} {answer}, s.flushPending = (answer, t) →
      t.debt = s.debt := by
    intro s t answer h
    rw [← debt_flushPending s, h]
  induction flight, rest, s using sendRest.induct (σ := σ) (ω := ω) (ε := ε) fragment with
  | case1 flight rest s t e h₁ =>
    rw [sendRest_of_failed h₁]
    exact (debt_of_silent (.fail _ _)).trans (hflush h₁)
  | case2 flight rest s t h₁ =>
    rw [sendRest_of_blocked h₁]
    exact (debt_of_silent (.note t _)).trans (hflush h₁)
  | case3 flight rest s t hr h₁ =>
    rw [sendRest_of_done h₁ (by simpa using hr)]
    exact hflush h₁
  | case4 flight rest s t hr chunk u e h₁ h₂ =>
    rw [sendRest_of_refused h₁ (by simpa using hr) h₂]
    exact (debt_of_silent (.fail _ _)).trans ((debt_encryptOnce h₂).trans (hflush h₁))
  | case5 flight rest s t hr chunk u a h₁ h₂ ih =>
    rw [sendRest_of_encrypted h₁ (by simpa using hr) h₂]
    exact ih.trans ((debt_encryptOnce h₂).trans (hflush h₁))

theorem debt_sendPayload (s : Session σ ω ε) (payload : Bytes) :
    (s.sendPayload payload).2.debt = s.debt := by
  unfold sendPayload
  simp only
  split
  · split
    · exact debt_of_silent (s := { s with inFlight := none }) (.fail _ _)
    · exact debt_sendRest _ _ _ { s with inFlight := none }
  · split
    · rfl
    · exact debt_sendRest _ _ _ s

theorem debt_writeData (s : Session σ ω ε) (payload : Bytes) :
    (s.writeData payload).2.debt ≤ s.debt := by
  unfold writeData
  split
  · exact Int.le_of_eq (debt_sendPayload s payload)
  split
  · rename_i hin
    have hrun := debt_resumed (Bool.and_eq_true_iff.1 hin).1
    rcases hr : s.runHandshake with ⟨v | _ | _, t⟩ <;> rw [hr] at hrun
    · exact Int.le_trans (Int.le_of_eq (debt_sendPayload t payload)) hrun
    · exact hrun
    · exact hrun
  split
  · exact Int.le_refl _
  · exact Int.le_of_eq (debt_of_silent (.fail _ _))

omit [Engine σ ε] in
theorem debt_finishClose (s : Session σ ω ε) : s.finishClose.2.debt = s.debt := by
  have hflush := s.debt_flushPending
  unfold finishClose
  rcases h : s.flushPending with ⟨e | _ | _, t⟩ <;> rw [h] at hflush
  · exact (debt_of_silent (.fail _ _)).trans hflush
  · exact hflush
  · exact (debt_of_silent (.setState _ _)).trans hflush

theorem debt_close (s : Session σ ω ε) : s.close.2.debt = s.debt := by
  have hnotify := s.debt_notifyClose
  unfold close
  split
  · rcases h : s.notifyClose with ⟨e | a, t⟩ <;> rw [h] at hnotify
    · exact (debt_of_silent (.fail _ _)).trans hnotify
    · have hleave : ({ t with inFlight := none }.setState .closing).debt = t.debt :=
        debt_of_silent (s := { t with inFlight := none }) (.setState _ _)
      exact (debt_finishClose _).trans (hleave.trans hnotify)
  split
  · exact debt_finishClose s
  split
  · rfl
  split
  · rfl
  · exact debt_of_silent (.fail _ _)

/-! ## Every call -/

theorem debt_handshakeStatus (s : Session σ ω ε) : s.handshakeStatus.2.debt ≤ s.debt + 1 := by
  have hrun : s.state = .initialized ∨ s.state.inHandshake = true →
      s.handshakeStatus.2.debt ≤ s.debt + 1 := by
    intro h
    have hallow : s.allowance ≤ 1 := by
      unfold allowance
      split <;> decide
    rw [handshakeStatus_of_handshake h]
    exact Int.le_trans s.debt_runHandshake (Int.add_le_add_left hallow _)
  have hfail : ∀ f : Failure ε, (s.failWith f).2.debt ≤ s.debt + 1 := by
    intro f
    have hsame : (s.failWith f).2.debt = s.debt := debt_of_silent (.fail s f)
    omega
  cases hs : s.state with
  | initialized => exact hrun (.inl hs)
  | handshakeWrite | handshakeRead | handshakeDone => exact hrun (.inr (by rw [hs]; rfl))
  | connected => cases hv : s.version <;> simp only [handshakeStatus, hs, hv] <;> omega
  | error => simp only [handshakeStatus, hs]; omega
  | constructed | closing | closed => simpa only [handshakeStatus, hs] using hfail _

/-- One call leaves at most one handshake call more that nothing has paid for. -/
theorem debt_perform (s : Session σ ω ε) (c : Call ω) : (s.perform c).2.debt ≤ s.debt + 1 := by
  have hless : ∀ {t : Session σ ω ε}, t.debt ≤ s.debt → t.debt ≤ s.debt + 1 := by
    intro t ht
    omega
  have hfail : ∀ f : Failure ε, (s.failWith f).2.debt ≤ s.debt + 1 := fun f =>
    hless (Int.le_of_eq (debt_of_silent (.fail s f)))
  cases c with
  | init k =>
    have hbind : (s.init k).2.debt = s.debt := by
      unfold init
      split
      · exact debt_of_silent (s := { s with socket := some k }) (.setState _ _)
      · rfl
    exact hless (Int.le_of_eq hbind)
  | setServerName name =>
    have hname : (s.setServerName name).2.debt = s.debt := by
      unfold setServerName
      split
      · rfl
      split <;> rfl
    exact hless (Int.le_of_eq hname)
  | connect host =>
    simp only [perform, connect]
    split
    · exact hfail _
    · split
      · exact debt_handshakeStatus { s with hostname := some host }
      · exact debt_handshakeStatus s
  | accept =>
    simp only [perform, accept]
    split
    · exact hfail _
    · exact debt_handshakeStatus s
  | write payload => exact hless (debt_writeData s payload)
  | read max => exact hless (debt_readData s max)
  | close => exact hless (Int.le_of_eq s.debt_close)
  | outside change => exact hless (Int.le_refl _)

theorem perform_journal (s : Session σ ω ε) (c : Call ω) :
    s.journal <:+ (s.perform c).2.journal := by
  obtain ⟨t, ht, hout⟩ := s.perform_turns c
  have hj := Turns.journal ht
  rw [hout.frame]
  exact hj

/-- The handshake calls of one call: all but one follow bytes that arrived or a request. -/
theorem perform_handshakes (s : Session σ ω ε) (c : Call ω) : ∃ newer,
    (s.perform c).2.journal = newer ++ s.journal ∧ newer.countP Event.isHandshake ≤
      1 + newer.countP Event.isArrival + newer.countP Event.isRequest := by
  obtain ⟨newer, hj⟩ := s.perform_journal c
  have hdebt := s.debt_perform c
  rw [debt_append hj.symm, owed_eq] at hdebt
  exact ⟨newer, hj.symm, by omega⟩

/-! ## Pieces of a payload -/

omit [Engine σ ε] [Socket ω] in
theorem pieces_length_le (fragment : Nat) (rest : Bytes) :
    (pieces fragment rest).length ≤ rest.length := by
  fun_induction pieces fragment rest with
  | case1 => exact Nat.zero_le _
  | case2 rest h ih =>
    have hpos := List.length_pos_iff.2 (show rest ≠ [] by simpa using h)
    rw [List.length_drop] at ih
    rw [List.length_cons]
    omega

/-- How many bytes of a payload a write has still to encrypt. -/
def unlocked (s : Session σ ω ε) (payload : Bytes) : Nat :=
  payload.length - s.inFlight.elim 0 InFlight.locked

theorem sendRest_pieces (fragment : Nat) (flight : InFlight) (rest : Bytes) (s : Session σ ω ε) :
    ∃ es, (s.sendRest fragment flight rest).2.encryptions = s.encryptions ++ es ∧
      es.length ≤ rest.length := by
  obtain ⟨es, hes, hcut, -⟩ := s.sendRest_sent fragment flight rest
  refine ⟨es, hes.encryptions, ?_⟩
  have hle := hcut.length_le
  rw [List.length_map] at hle
  exact Nat.le_trans hle (pieces_length_le fragment rest)

theorem sendPayload_pieces (s : Session σ ω ε) (payload : Bytes) :
    ∃ es, (s.sendPayload payload).2.encryptions = s.encryptions ++ es ∧
      es.length ≤ s.unlocked payload := by
  unfold sendPayload
  cases hf : s.inFlight with
  | some flight =>
    simp only
    split
    · have hquiet : Silent { s with inFlight := none } _ := .fail _ .otherPayload
      have hsame : _ = s.encryptions := hquiet.gather_engine EngineCall.encryption
      exact ⟨[], hsame.trans (List.append_nil _).symm, Nat.zero_le _⟩
    · obtain ⟨es, hes, hle⟩ := sendRest_pieces (Engine.maxFragment s.engine) flight
        (payload.drop flight.locked) { s with inFlight := none }
      rw [List.length_drop] at hle
      refine ⟨es, hes, ?_⟩
      rw [unlocked, hf]
      exact hle
  | none =>
    have hall : s.unlocked payload = payload.length := by
      rw [unlocked, hf]
      rfl
    simp only
    split
    · exact ⟨[], (List.append_nil _).symm, Nat.zero_le _⟩
    · rw [hall]
      exact sendRest_pieces _ _ payload s

theorem writeData_pieces (s : Session σ ω ε) (payload : Bytes) :
    ∃ es, (s.writeData payload).2.encryptions = s.encryptions ++ es ∧
      es.length ≤ s.unlocked payload := by
  have hno : ∀ {t : Session σ ω ε}, t.encryptions = s.encryptions →
      ∃ es, t.encryptions = s.encryptions ++ es ∧ es.length ≤ s.unlocked payload :=
    fun ht => ⟨[], ht.trans (List.append_nil _).symm, Nat.zero_le _⟩
  unfold writeData
  split
  · exact sendPayload_pieces s payload
  split
  · rename_i hin
    have hrests := runHandshake_rests (s := s) (.inl (Bool.and_eq_true_iff.1 hin).1)
    rcases hr : s.runHandshake with ⟨v | _ | _, t⟩ <;> rw [hr] at hrests
    · have hlive : t.state.live = true := by
        rw [runHandshake_ok hr]
        rfl
      -- A session that connects again has the same write in flight.
      have hsame : t.inFlight = s.inFlight := by
        rcases hrests.inFlight with hsame | ⟨-, hspent⟩
        · exact hsame
        · have hdead := hspent.2
          rw [hlive] at hdead
          cases hdead
      obtain ⟨es, hes, hle⟩ := sendPayload_pieces t payload
      have hunlocked : t.unlocked payload = s.unlocked payload := by
        rw [unlocked, unlocked, hsame]
      rw [hrests.encryptions] at hes
      exact ⟨es, hes, hunlocked ▸ hle⟩
    · exact hno hrests.encryptions
    · exact hno hrests.encryptions
  split
  · exact hno rfl
  · have hquiet := Silent.fail s (.misuse (.writeIn s.state))
    exact hno (hquiet.gather_engine _)

/-! ## The whole -/

/-- Every loop of a session ends with what the operation of the session answers, whatever the engine
and the socket do: after so many rounds at most. No call makes more handshake calls than bytes
arrived and requests came, but for one, and no write encrypts more pieces than the payload has bytes
that are not encrypted yet. -/
theorem calls_end (s : Session σ ω ε) :
    (∀ max, ∃ n ≤ s.supply + 1, Ends (fillRound max) n s (s.fillRaw max)) ∧
    (∃ n ≤ s.pendingWrite.size + s.supply + 1, Ends flushRound n s s.flushPending) ∧
    (∃ n ≤ 4 * s.supply + stepsLeft s.state + 1, Ends handshakeRound n s s.runHandshake) ∧
    (∀ fragment flight rest, ∃ n ≤ rest.length + 1,
      Ends (sendRound fragment) n (flight, rest, s) (s.sendRest fragment flight rest)) ∧
    (∃ n ≤ maxRenegotiations - s.renegotiations + 1, Ends decryptRound n s
      (decryptAvailable (maxRenegotiations - s.renegotiations) s)) ∧
    (∀ c, ∃ newer, (s.perform c).2.journal = newer ++ s.journal ∧
      newer.countP Event.isHandshake ≤
        1 + newer.countP Event.isArrival + newer.countP Event.isRequest) ∧
    (∀ payload, ∃ es, (s.writeData payload).2.encryptions = s.encryptions ++ es ∧
      es.length ≤ s.unlocked payload) :=
  ⟨fun max => (fill_unrolls max).ends s, flush_unrolls.ends s, handshake_unrolls.ends s,
    fun fragment flight rest => (send_unrolls fragment).ends (flight, rest, s),
    decrypt_unrolls.ends s, s.perform_handshakes, s.writeData_pieces⟩

end Session
end TlsTransport
