import TlsTransport.Proofs.Session.Moments
import TlsTransport.Proofs.Session.Rounds
import TlsTransport.Proofs.Session.Waiting

/-! # Counting renegotiations

The counter of a session goes up when the peer asks for a new handshake, deep inside a read, but the
handshake can end in a later call, or never. What the counter says is compared with the journal:
every renegotiation but the one under way was completed.

* `completions`: how many handshakes that the peer asked for were completed.
* `Counted`: the counter in each state; every turn keeps it.
* `Away`: the later moments up to which the session was not connected again.
* `Session.renegotiations_counted`: what the counter says at every moment of every run.
-/

namespace TlsTransport

variable {σ ω ε : Type}

/-! ## The journal -/

/-- Whether an entry begins a handshake that the peer asked for, or the first one. -/
def Event.request? : Event ε → Option Bool
  | .engine (.start _ _) => some false
  | .engine (.decrypt _ _ _ (.ok .renegotiate)) => some true
  | _ => none

/-- Whether the handshake that was begun last is one that the peer asked for. -/
def askedAgain : List (Event ε) → Bool := latest Event.request? false

/-- How many renegotiations were completed: the peer asked for a handshake, the engine called it
complete, and then the session connected. -/
def completions : List (Event ε) → Nat
  | [] => 0
  | .notice (.stateChanged _ .connected) :: older =>
    completions older + (askedAgain older && answeredComplete older).toNat
  | _ :: older => completions older

/-- Whether an entry begins a handshake or connects the session. -/
def Event.marks : Event ε → Bool
  | .engine (.start _ _) => true
  | .engine (.decrypt _ _ _ (.ok .renegotiate)) => true
  | .notice (.stateChanged _ .connected) => true
  | _ => false

theorem Event.marks_decrypt {n m : Nat} {moved : Traffic} {answer : Except ε DecryptStop}
    (h : answer ≠ .ok .renegotiate) : (Event.engine (.decrypt n m moved answer)).marks = false := by
  rcases answer with e | _ | _ | _
  · rfl
  · rfl
  · exact absurd rfl h
  · rfl

theorem askedAgain_unmarked {newer : List (Event ε)} (h : ∀ e ∈ newer, e.marks = false)
    (older : List (Event ε)) : askedAgain (newer ++ older) = askedAgain older := by
  apply latest_of_none
  intro e he
  have hm := h e he
  unfold Event.marks at hm
  unfold Event.request?
  split at hm <;> simp_all

theorem completions_cons {e : Event ε} (h : e.marks = false) (older : List (Event ε)) :
    completions (e :: older) = completions older := by
  rcases e with call | call | n
  · rfl
  · rfl
  · cases n with
    | stateChanged before after =>
      cases after with
      | connected => cases h
      | _ => rfl
    | _ => rfl

theorem completions_unmarked {newer : List (Event ε)} (h : ∀ e ∈ newer, e.marks = false)
    (older : List (Event ε)) : completions (newer ++ older) = completions older := by
  induction newer with
  | nil => rfl
  | cons e newer ih =>
    rw [List.cons_append, completions_cons (h e List.mem_cons_self)]
    exact ih fun e' he' => h e' (List.mem_cons_of_mem e he')

namespace Session

/-! ## Moments between which no handshake began or ended -/

/-- Between two moments no handshake began and none connected the session. -/
structure Unmarked (s t : Session σ ω ε) : Prop where
  renegotiating : t.renegotiating = s.renegotiating
  renegotiations : t.renegotiations = s.renegotiations
  journal : Grows (fun e => e.marks = false) s t

namespace Unmarked

variable {s t u : Session σ ω ε}

theorem of_eq (hr : t.renegotiating = s.renegotiating) (hn : t.renegotiations = s.renegotiations)
    (hj : t.journal = s.journal) : Unmarked s t := ⟨hr, hn, .of_eq hj⟩

theorem trans (h : Unmarked s t) (k : Unmarked t u) : Unmarked s u :=
  ⟨k.renegotiating.trans h.renegotiating, k.renegotiations.trans h.renegotiations,
    h.journal.trans k.journal⟩

theorem one {e : Event ε} (hr : t.renegotiating = s.renegotiating)
    (hn : t.renegotiations = s.renegotiations) (hj : t.journal = e :: s.journal)
    (hm : e.marks = false) : Unmarked s t := ⟨hr, hn, .one hj hm⟩

theorem setState (s : Session σ ω ε) {next : SessionState} (h : next ≠ .connected) :
    Unmarked s (s.setState next) := by
  have hm : (Event.notice (.stateChanged s.state next) : Event ε).marks = false := by
    cases next with
    | connected => exact absurd rfl h
    | _ => rfl
  refine ⟨?_, (Steady.setState s next).renegotiations, .setState s hm⟩
  rw [setState_eq]

theorem fail (s : Session σ ω ε) (f : Failure ε) : Unmarked s (s.fail f) := by
  refine ⟨?_, (Steady.fail s f).renegotiations, .fail s rfl rfl⟩
  rw [fail_eq]

section Moves

variable [Socket ω]

theorem flushPending (s : Session σ ω ε) : Unmarked s s.flushPending.2 := by
  refine ⟨?_, (Steady.flushPending s).renegotiations, .flushPending (fun _ => rfl) s⟩
  obtain ⟨k, b, calls, h⟩ := s.flushPending_frame
  rw [h]

theorem fillRaw (s : Session σ ω ε) (max : Nat) : Unmarked s (s.fillRaw max).2 := by
  refine ⟨?_, (Steady.fillRaw s max).renegotiations, .fillRaw (fun _ => rfl) s max⟩
  obtain ⟨k, b, calls, h⟩ := s.fillRaw_frame max
  rw [h]

theorem flushBestEffort (s : Session σ ω ε) : Unmarked s s.flushBestEffort := by
  unfold Session.flushBestEffort
  split
  · exact flushPending s
  · exact of_eq rfl rfl rfl

end Moves

theorem processHandshake [Engine σ ε] [Socket ω] (s : Session σ ω ε) :
    Unmarked s s.processHandshake.2 := by
  have honce : Unmarked s s.handshakeOnce.2 := one rfl rfl rfl rfl
  rcases s.processHandshake_cases with ⟨e, -, he⟩ | ⟨progress, t, -, ht, hu⟩
  · rw [he]
    exact honce.trans ((fail _ _).trans (flushBestEffort _))
  · have hne : t.nextHandshakeState ≠ .connected := by
      intro hc
      have hnext := t.inHandshake_nextHandshakeState
      rw [hc] at hnext
      cases hnext
    have hsame : Unmarked s.handshakeOnce.2 t := by
      rw [ht]
      exact of_eq rfl rfl rfl
    rw [hu]
    exact honce.trans (hsame.trans (setState _ hne))

end Unmarked

/-! ## The counter -/

/-- What the counter says in each state. -/
structure Counted (s : Session σ ω ε) : Prop where
  balance : s.state ≠ .error → s.renegotiations = completions s.journal + s.renegotiating.toNat
  bound : s.renegotiations ≤ maxRenegotiations ∨
    s.state = .error ∧ s.renegotiations = maxRenegotiations + 1
  asked : s.state.inHandshake = true → s.renegotiating = askedAgain s.journal
  settled : s.state.inHandshake = false → s.state ≠ .error → s.renegotiating = false

namespace Counted

variable {s t : Session σ ω ε}

/-- A session that neither begins nor ends a handshake stays as it is or fails. -/
theorem keep (h : Counted s) (k : Unmarked s t) (hs : t.state = .error ∨
    t.state.inHandshake = s.state.inHandshake ∧ (s.state = .error → t.state = .error)) :
    Counted t := by
  obtain ⟨newer, hj, hm⟩ := k.journal
  have hlive : t.state ≠ .error →
      s.state ≠ .error ∧ t.state.inHandshake = s.state.inHandshake := by
    intro ht
    rcases hs with hs | ⟨hin, herr⟩
    · exact absurd hs ht
    · exact ⟨fun hs => ht (herr hs), hin⟩
  refine ⟨fun ht => ?_, ?_, fun ht => ?_, fun ht hne => ?_⟩
  · rw [k.renegotiations, k.renegotiating, hj, completions_unmarked hm]
    exact h.balance (hlive ht).1
  · rw [k.renegotiations]
    rcases h.bound with hle | ⟨herr, hmax⟩
    · exact .inl hle
    · exact .inr ⟨hs.elim id fun hs => hs.2 herr, hmax⟩
  · have hne : t.state ≠ .error := by
      intro he
      rw [he] at ht
      cases ht
    rw [k.renegotiating, hj, askedAgain_unmarked hm]
    exact h.asked ((hlive hne).2 ▸ ht)
  · rw [k.renegotiating]
    exact h.settled ((hlive hne).2 ▸ ht) (hlive hne).1

theorem within (h : Counted s) (hs : s.state ≠ .error) : s.renegotiations ≤ maxRenegotiations := by
  rcases h.bound with hle | ⟨herr, -⟩
  · exact hle
  · exact absurd herr hs

/-- A session that goes on with the handshake that was begun last. -/
theorem enter (h : Counted s) (hs : s.state ≠ .error)
    (ha : s.renegotiating = askedAgain s.journal) (k : Unmarked s t)
    (ht : t.state.inHandshake = true) : Counted t := by
  obtain ⟨newer, hj, hm⟩ := k.journal
  refine ⟨fun _ => ?_, .inl ?_, fun _ => ?_, fun hin => ?_⟩
  · rw [k.renegotiations, k.renegotiating, hj, completions_unmarked hm]
    exact h.balance hs
  · rw [k.renegotiations]
    exact h.within hs
  · rw [k.renegotiating, hj, askedAgain_unmarked hm]
    exact ha
  · rw [ht] at hin
    cases hin

theorem same (h : Counted s) (k : Unmarked s t) (hs : t.state = s.state) : Counted t :=
  h.keep k (.inr ⟨by rw [hs], fun he => hs.trans he⟩)

theorem fail (h : Counted s) (f : Failure ε) : Counted (s.fail f) := by
  apply h.keep (.fail s f)
  rcases s.fail_state f with hf | ⟨hf, hs⟩
  · exact .inl hf
  · exact .inr ⟨by rw [hf, hs], fun he => by rw [hs] at he; cases he⟩

variable [Engine σ ε]

/-- Connecting settles the renegotiation that was under way. -/
theorem connectedAs (h : Counted s) (hs : s.state = .handshakeDone)
    (hc : answeredComplete s.journal = true) (v : TlsVersion) : Counted (s.connectedAs v) := by
  obtain ⟨remarks, hremarks, hframe⟩ := s.connectedAs_frame v
  have hm : ∀ e ∈ remarks.map Event.notice, e.marks = false := by
    intro e he
    obtain ⟨n, hn, rfl⟩ := List.mem_map.1 he
    rcases hremarks n hn with rfl | rfl | rfl <;> rfl
  have hasked := h.asked (by rw [hs]; rfl)
  have hbalance := h.balance (by rw [hs]; simp)
  have hcomplete : answeredComplete (remarks.map Event.notice ++ s.journal) = true := by
    clear hremarks hframe hm
    induction remarks with
    | nil => exact hc
    | cons n remarks ih => exact ih
  rw [hframe]
  refine ⟨fun _ => ?_, .inl ?_, fun hin => ?_, fun _ _ => rfl⟩
  · -- The entry that connects the session counts as much as the flag gives up.
    rw [if_neg (by rw [hs]; simp)]
    show s.renegotiations = completions _ + (askedAgain _ && answeredComplete _).toNat + 0
    rw [completions_unmarked hm, askedAgain_unmarked hm, hcomplete, Bool.and_true, ← hasked]
    exact hbalance
  · exact h.within (by rw [hs]; simp)
  · cases hin

/-- Starting begins a handshake that the peer did not ask for. -/
theorem start (h : Counted s) (hs : s.state = .initialized) : Counted s.startEngine.2 := by
  refine ⟨h.balance, h.bound, fun hin => ?_, h.settled⟩
  have hin : s.state.inHandshake = true := hin
  rw [hs] at hin
  cases hin

/-- The peer asked for a handshake, and the session counts it. -/
theorem requested (h : Counted s) (hs : s.state = .connected)
    (ha : s.decryptOnce.1 = .ok .renegotiate) :
    askedAgain s.decryptOnce.2.asked.journal = true ∧
    s.decryptOnce.2.asked.renegotiations = completions s.decryptOnce.2.asked.journal + 1 := by
  have hj : s.decryptOnce.2.asked.journal = .engine (.decrypt s.rawRead.size s.plaintext.size
      ((Engine.decrypt s.engine s.rawRead s.pendingWrite s.plaintext).traffic s.rawRead
        s.pendingWrite s.plaintext) s.decryptOnce.1) :: s.journal := rfl
  have hsettled := h.settled (by rw [hs]; rfl) (by rw [hs]; simp)
  have hbalance := h.balance (by rw [hs]; simp)
  rw [hsettled] at hbalance
  rw [hj, ha]
  exact ⟨rfl, congrArg (· + 1) hbalance⟩

theorem reopen (h : Counted s) (hs : s.state = .connected)
    (ha : s.decryptOnce.1 = .ok .renegotiate) (hr : s.renegotiations < maxRenegotiations) :
    Counted s.decryptOnce.2.asked.reopen := by
  obtain ⟨hagain, hcount⟩ := h.requested hs ha
  have hstate : s.decryptOnce.2.asked.state = .connected := hs
  rw [reopen_eq, hstate]
  exact ⟨fun _ => hcount, .inl hr, fun _ => hagain.symm, fun hin => by cases hin⟩

theorem overrun (h : Counted s) (hs : s.state = .connected)
    (hr : maxRenegotiations ≤ s.renegotiations) :
    Counted (s.decryptOnce.2.asked.fail .renegotiations) := by
  have hstate : s.decryptOnce.2.asked.state = .connected := hs
  have hfail : (s.decryptOnce.2.asked.fail .renegotiations).state = .error :=
    fail_error _ (by rw [hstate]; simp)
  have hcount : s.renegotiations + 1 = maxRenegotiations + 1 := by
    have hle := h.within (by rw [hs]; simp)
    omega
  refine ⟨fun hne => absurd hfail hne, .inr ⟨hfail, ?_⟩, fun hin => ?_, fun _ hne => ?_⟩
  · rw [(Unmarked.fail _ _).renegotiations]
    exact hcount
  · rw [hfail] at hin
    cases hin
  · exact absurd hfail hne

variable [Socket ω]

theorem processHandshake (h : Counted s) (hc : s.state ≠ .closed) (he : s.state ≠ .error)
    (ha : s.renegotiating = askedAgain s.journal) : Counted s.processHandshake.2 := by
  have hkeep := Unmarked.processHandshake s
  rcases s.processHandshake_cases with ⟨e, -, hfail⟩ | ⟨progress, t, -, -, hu⟩
  · apply h.keep hkeep (.inl ?_)
    rw [hfail, state_flushBestEffort]
    exact fail_error _ hc
  · apply h.enter he ha hkeep
    rw [hu, state_setState]
    exact t.inHandshake_nextHandshakeState

theorem step (h : Counted s) (hg : Gated s) : Counted s.step.2 := by
  generalize hr : s.step = r
  have hcase := s.step_case
  rw [hr] at hcase
  cases hcase with
  | startFailed e hs => exact (h.start hs).fail _
  | started hs =>
    have hready : Counted { s.startEngine.2 with handshakeComplete := false } :=
      (h.start hs).same (.of_eq rfl rfl rfl) rfl
    have hfirst : s.renegotiating = false := h.settled (by rw [hs]; rfl) (by rw [hs]; simp)
    have hstate : s.state ≠ .closed ∧ s.state ≠ .error := by rw [hs]; simp
    exact hready.processHandshake hstate.1 hstate.2 hfirst
  | sent hs =>
    refine h.keep ((Unmarked.flushPending s).trans (.setState _ (by split <;> simp))) (.inr ?_)
    rw [state_setState, hs]
    exact ⟨by split <;> rfl, by simp⟩
  | sendBlocked => exact h.same (.flushPending s) s.state_flushPending
  | sendFailed => exact (h.same (.flushPending s) s.state_flushPending).fail _
  | ended | receiveFailed => exact (h.same (.fillRaw s _) (s.state_fillRaw _)).fail _
  | arrived _ hs =>
    have hfill := h.same (.fillRaw s maxRecordLength) (s.state_fillRaw _)
    have hread : (s.fillRaw maxRecordLength).2.state = .handshakeRead := by rw [state_fillRaw, hs]
    exact hfill.processHandshake (by rw [hread]; simp) (by rw [hread]; simp)
      (hfill.asked (by rw [hread]; rfl))
  | waits => exact h.same (.fillRaw s _) (s.state_fillRaw _)
  | finish hs =>
    rcases s.finishHandshake_cases with ⟨-, f, -, hf⟩ | ⟨-, v, -, hv⟩
    · rw [hf]
      exact h.fail f
    · rw [hv]
      have hcomplete := (hg.answered (by rw [hs]; rfl)).symm.trans (hg.flushed hs).1
      exact h.connectedAs hs hcomplete v
  | agreed => exact h
  | refused => exact h.fail _

theorem turn {c : Call ω} (h : Counted s) (hg : Gated s) (ht : Turn c s t) : Counted t := by
  cases ht with
  | bind k hs =>
    have hbound : Unmarked s { s with socket := some k } := .of_eq rfl rfl rfl
    apply h.keep (hbound.trans (.setState _ (by simp))) (.inr ?_)
    rw [state_setState, hs]
    simp [SessionState.inHandshake]
  | nameServer | nameHost | outside | sawEnd | track | release =>
    exact h.same (.of_eq rfl rfl rfl) rfl
  | step => exact h.step hg
  | decrypt _ ha =>
    exact h.same (.one rfl rfl rfl (Event.marks_decrypt ha)) rfl
  | reopen hs ha hr => exact h.reopen hs ha hr
  | overrun hs _ hr => exact h.overrun hs hr
  | resume hs =>
    exact h.processHandshake (by rw [hs]; simp) (by rw [hs]; simp) (h.asked (by rw [hs]; rfl))
  | fill => exact h.same (.fillRaw s _) (s.state_fillRaw _)
  | sawClose => exact h.same (Unmarked.one rfl rfl rfl rfl) rfl
  | encrypt | notify => exact h.same (.one rfl rfl rfl rfl) rfl
  | withdraw _ hs hnext =>
    apply h.keep (.setState s (by rcases hnext with rfl | rfl <;> simp)) (.inr ?_)
    rw [state_setState]
    rcases hnext with rfl | rfl <;> rcases hs with hs | hs <;> rw [hs] <;>
      simp [SessionState.inHandshake]
  | flush => exact h.same (.flushPending s) s.state_flushPending
  | remark n hn =>
    exact h.same (.one rfl rfl rfl (by cases n <;> first | rfl | cases hn)) rfl
  | fail f => exact h.fail f

end Counted

/-! ## Later moments -/

variable [Engine σ ε] [Socket ω]

/-- The later moments up to which the session was not connected again. -/
def Away : Session σ ω ε → Session σ ω ε → Prop :=
  Relation.ReflTransGen fun s t => Passes s t ∧ t.state ≠ .connected

theorem Counted.follows {s t : Session σ ω ε} (h : Counted s) (hg : Gated s) (k : Follows s t) :
    Counted t := by
  induction k with
  | refl => exact h
  | tail hearlier hlast ih =>
    cases hlast with
    | turn hturn => exact ih.turn (hg.follows hearlier) hturn
    | handing => exact ih.same (.of_eq rfl rfl rfl) rfl

omit [Engine σ ε] [Socket ω] in
theorem Counted.ofEngine (engine : σ) (side : Side) (verifyPeer : Bool) (policy : CipherPolicy) :
    Counted (ofEngine engine side verifyPeer policy : Session σ ω ε) :=
  ⟨fun _ => rfl, .inl (Nat.zero_le _), fun h => (by cases h), fun _ _ => rfl⟩

theorem Passes.renegotiations {s t : Session σ ω ε} (h : Passes s t) :
    s.renegotiations ≤ t.renegotiations := by
  have hsteady : ∀ {u v : Session σ ω ε}, s.renegotiations ≤ u.renegotiations → Steady u v →
      s.renegotiations ≤ v.renegotiations := by
    intro u v hle hkeep
    rwa [hkeep.renegotiations]
  have hsame : s.renegotiations ≤ s.renegotiations := Nat.le_refl _
  have hmore : s.renegotiations ≤ s.decryptOnce.2.asked.renegotiations := Nat.le_succ _
  cases h with
  | handing => exact hsame
  | turn hturn =>
    cases hturn with
    | reopen =>
      rw [reopen_eq]
      exact hmore
    | overrun => exact hsteady hmore (.fail _ _)
    | bind k =>
      have hbound : s.renegotiations ≤ { s with socket := some k }.renegotiations := hsame
      exact hsteady hbound (.setState _ _)
    | step => exact hsteady hsame (.step s)
    | resume => exact hsteady hsame (.processHandshake s)
    | fill => exact hsteady hsame (.fillRaw s _)
    | withdraw => exact hsteady hsame (.setState s _)
    | flush => exact hsteady hsame (.flushPending s)
    | fail f => exact hsteady hsame (.fail s f)
    | _ => exact hsame

theorem Follows.renegotiations {s t : Session σ ω ε} (h : Follows s t) :
    s.renegotiations ≤ t.renegotiations := by
  induction h with
  | refl => exact Nat.le_refl _
  | tail _ hlast ih => exact Nat.le_trans ih hlast.renegotiations

/-! ## The write in flight -/

/-- A turn in a handshake leaves the write in flight alone, or the session will never be connected
again. -/
theorem Passes.inFlight {s t : Session σ ω ε} (h : Passes s t)
    (hs : s.state.inHandshake = true) : t.inFlight = s.inFlight ∨ t.Spent := by
  have hno : ∀ {state : SessionState}, s.state = state → state.inHandshake = false →
      t.inFlight = s.inFlight ∨ t.Spent := by
    intro state hstate hout
    rw [hstate, hout] at hs
    cases hs
  cases h with
  | handing => exact .inl rfl
  | turn hturn =>
    cases hturn with
    | bind _ h | nameServer _ h | nameHost _ _ h | decrypt h | reopen h | overrun h | fill h
    | sawEnd h | sawClose h | encrypt _ h | track _ h | release h | notify _ h => exact hno h rfl
    | withdraw _ h => exact h.elim (fun h => hno h rfl) fun h => hno h rfl
    | step => exact (Rests.step s).inFlight.imp_right And.right
    | resume => exact (Rests.processHandshake s).inFlight.imp_right And.right
    | flush => exact .inl (Keeps.flushPending s).inFlight
    | outside | remark => exact .inl rfl
    | fail f => exact .inr (s.fail_spent f)

theorem Passes.spent {s t : Session σ ω ε} (h : Passes s t) (hs : s.Spent) : t.Spent := by
  cases h with
  | turn hturn => exact hturn.spent hs
  | handing => exact hs

theorem Passes.begun {s t : Session σ ω ε} (h : Passes s t) (hs : s.state.begun = true) :
    t.state.begun = true := by
  cases h with
  | turn hturn => exact hturn.begun hs
  | handing => exact hs

/-- Until it is connected again, a session is in its handshake with the same write in flight, or it
will never be connected again. -/
theorem Away.inFlight {s t : Session σ ω ε} (h : Away s t) (hs : s.state.inHandshake = true) :
    t.state.inHandshake = true ∧ t.inFlight = s.inFlight ∨ t.Spent := by
  induction h with
  | refl => exact .inl ⟨hs, rfl⟩
  | @tail u v _ hlast ih =>
    obtain ⟨hpass, hv⟩ := hlast
    rcases ih with ⟨hu, hsame⟩ | hspent
    · -- Out of a handshake only the connected state leads back, and it is not reached on the way.
      have hbegun := hpass.begun (SessionState.begun_of_inHandshake hu)
      rcases hpass.inFlight hu with hflight | hspent
      · cases hin : v.state.inHandshake with
        | true => exact .inl ⟨rfl, hflight.trans hsame⟩
        | false =>
          refine .inr ⟨hbegun, ?_⟩
          cases hstate : v.state <;> simp_all [SessionState.inHandshake, SessionState.live]
      · exact .inr hspent
    · exact .inr (hpass.spent hspent)

theorem Away.reconnected {s t u : Session σ ω ε} (h : Away s t) (hs : s.state.inHandshake = true)
    (hlast : Passes t u) (hu : u.state = .connected) : u.inFlight = s.inFlight := by
  have hlive : ¬ u.Spent := by
    rintro ⟨-, hdead⟩
    rw [hu] at hdead
    cases hdead
  rcases h.inFlight hs with ⟨ht, hsame⟩ | hspent
  · rcases hlast.inFlight ht with hflight | hspent
    · exact hflight.trans hsame
    · exact absurd hspent hlive
  · exact absurd (hlast.spent hspent) hlive

/-! ## The whole -/

/-- A read asks the engine to decrypt once more than renegotiations are left at most. -/
theorem Counted.readData {s : Session σ ω ε} (h : Counted s) (hg : Gated s) (max : Nat) :
    ∃ answers, (s.readData max).2.decryptions = s.decryptions ++ answers ∧
      answers.length ≤ maxRenegotiations + 1 - s.renegotiations := by
  rcases s.readData_opened max with hsame | ⟨t, hopen, hread⟩
  · exact ⟨[], by rw [hsame, List.append_nil], Nat.zero_le _⟩
  · obtain ⟨n, u, hn, -, -, hasked⟩ := t.decryptAndFinish_rounds max
    have ht := h.follows hg (.of_turns hopen.turns)
    have hle := ht.within (by rw [hopen.connected]; simp)
    rw [hopen.decryptions] at hasked
    rw [hopen.renegotiations] at hn hle
    refine ⟨_, by rw [hread, hasked], ?_⟩
    rw [List.length_append, List.length_replicate, List.length_singleton]
    omega

/-- At every moment of every run the counter is within its bound, passes the limit only when the
session has failed over it, and tells how many renegotiations were completed if the session is
connected or was closed. It never goes down, and it bounds the decryptions of a read. A
renegotiation that the peer asks for at this moment leaves the write in flight alone, whenever it
connects the session again. -/
theorem renegotiations_counted (engine : σ) (side : Side) (verifyPeer : Bool)
    (policy : CipherPolicy) {s : Session σ ω ε}
    (hs : Follows (ofEngine engine side verifyPeer policy) s) :
    (∀ calls, Follows s (s.run calls).2) ∧
    (∀ t, Follows s t → s.renegotiations ≤ t.renegotiations) ∧
    s.renegotiations ≤ maxRenegotiations + 1 ∧
    (s.renegotiations = maxRenegotiations + 1 → s.state = .error) ∧
    (s.state = .connected ∨ s.state = .closing ∨ s.state = .closed →
      s.renegotiations = completions s.journal) ∧
    (∀ max, ∃ answers, (s.readData max).2.decryptions = s.decryptions ++ answers ∧
      answers.length ≤ maxRenegotiations + 1 - s.renegotiations) ∧
    (s.state = .connected → s.decryptOnce.1 = .ok .renegotiate →
      ∀ t u, Away s.decryptOnce.2.asked.reopen t → Passes t u → u.state = .connected →
        u.inFlight = s.inFlight) := by
  have hfresh : Gated (ofEngine engine side verifyPeer policy : Session σ ω ε) := .of_unbegun rfl
  have hgate := hfresh.follows hs
  have hcount := (Counted.ofEngine engine side verifyPeer policy).follows hfresh hs
  refine ⟨s.run_follows, fun t ht => ht.renegotiations, ?_, ?_, ?_, hcount.readData hgate, ?_⟩
  · rcases hcount.bound with hle | ⟨-, hmax⟩ <;> omega
  · intro hmax
    rcases hcount.bound with hle | ⟨herr, -⟩
    · omega
    · exact herr
  · intro hstate
    have hne : s.state ≠ .error := by rcases hstate with h | h | h <;> rw [h] <;> simp
    have hout : s.state.inHandshake = false := by rcases hstate with h | h | h <;> rw [h] <;> rfl
    rw [hcount.balance hne, hcount.settled hout hne]
    rfl
  · intro _ _ t u haway hlast hu
    have hin : s.decryptOnce.2.asked.reopen.state.inHandshake = true := by
      rw [reopen_eq]
      rfl
    have hsame : s.decryptOnce.2.asked.reopen.inFlight = s.inFlight := by
      rw [reopen_eq]
      rfl
    exact (haway.reconnected hin hlast hu).trans hsame

/-- A client whose write waits while its peer asks for a new handshake. -/
def busyClient : Session (ScriptedEngine false) ScriptedSocket String :=
  ofEngine ⟨{ promptScript with decryptions := [⟨0, [], [], .renegotiate, none⟩] }⟩ .client true
    .default

theorem busyClient_counts :
    let calls := [.init (.ofScript [] [.ok 2, .error (.bare .wouldBlock)] []),
      .connect "localhost", .write (List.replicate 20 7)]
    let s := (busyClient.run calls).2
    let t := (busyClient.run (calls ++ [.read 4])).2
    s.state = .connected ∧ s.decryptOnce.1 = .ok .renegotiate ∧ s.inFlight.isSome = true ∧
      t.state = .connected ∧ t.inFlight = s.inFlight ∧ s.renegotiations = 0 ∧
      t.renegotiations = 1 ∧ t.renegotiations = completions t.journal := by
  intro calls s t
  obtain ⟨-, -, -, -, hcount, -⟩ :=
    renegotiations_counted _ _ _ _ (busyClient.run_follows (calls ++ [.read 4]))
  have hstate : t.state = .connected := by decide +kernel
  exact ⟨by decide +kernel, by decide +kernel, by decide +kernel, hstate, by decide +kernel,
    by decide +kernel, by decide +kernel, hcount (.inl hstate)⟩

end Session
end TlsTransport
