import Mathlib.Data.List.Induction
import TlsTransport.Proofs.Session.Entries
import TlsTransport.Proofs.Session.History
import TlsTransport.Proofs.Session.Ledger
import TlsTransport.Script.Engine
import TlsTransport.Script.Socket

/-! # The end of the data

Reading no bytes means that no more will come: the peer said so, or the session was closed by its
own side. A stream that ends without that is an error, however its end is met.

* `PeerEnded`, `StreamEnded`: what the journal tells of the end.
* `Session.Candid`: a session leaves or remembers an end only for the reason that its journal tells;
  kept by every call.
* `Session.read_ends_data`: what a read can answer at the end.
-/

namespace TlsTransport

variable {σ ω ε : Type}

/-- The engine answered that the peer sends no more data. -/
def PeerEnded (journal : List (Event ε)) : Prop := ∃ input plaintext moved,
  .engine (.decrypt input plaintext moved (.ok .closeNotify)) ∈ journal

/-- The socket answered that the stream ended. -/
def StreamEnded (journal : List (Event ε)) : Prop := ∃ max, .socket (.read max (.ok [])) ∈ journal

/-- Whether an entry is the answer that the peer sends no more data. -/
def Event.endsData : Event ε → Bool
  | .engine (.decrypt _ _ _ (.ok .closeNotify)) => true
  | _ => false

/-- Whether an entry is a read of no bytes. -/
def Event.endsStream : Event ε → Bool
  | .socket (.read _ (.ok [])) => true
  | _ => false

theorem any_endsData {journal : List (Event ε)} :
    journal.any Event.endsData = true ↔ PeerEnded journal := by
  rw [List.any_eq_true]
  refine ⟨fun ⟨e, hmem, he⟩ => ?_, fun ⟨n, p, moved, hmem⟩ => ⟨_, hmem, rfl⟩⟩
  unfold Event.endsData at he
  split at he
  · exact ⟨_, _, _, hmem⟩
  · cases he

theorem any_endsStream {journal : List (Event ε)} :
    journal.any Event.endsStream = true ↔ StreamEnded journal := by
  rw [List.any_eq_true]
  refine ⟨fun ⟨e, hmem, he⟩ => ?_, fun ⟨max, hmem⟩ => ⟨_, hmem, rfl⟩⟩
  unfold Event.endsStream at he
  split at he
  · exact ⟨_, hmem⟩
  · cases he

instance (journal : List (Event ε)) : Decidable (PeerEnded journal) :=
  decidable_of_iff _ any_endsData

instance (journal : List (Event ε)) : Decidable (StreamEnded journal) :=
  decidable_of_iff _ any_endsStream

theorem PeerEnded.mono {older newer : List (Event ε)} (h : PeerEnded older)
    (hle : older <:+ newer) : PeerEnded newer := by
  obtain ⟨n, p, moved, hmem⟩ := h
  exact ⟨n, p, moved, hle.subset hmem⟩

/-- The stream did not end in between. -/
def Unended (s t : Session σ ω ε) : Prop := ∃ newer,
  t.journal = newer ++ s.journal ∧ ¬ StreamEnded newer

namespace Unended

open Session

variable {s t u : Session σ ω ε}

theorem trans (h : Unended s t) (k : Unended t u) : Unended s u := by
  obtain ⟨older, holder, hquiet⟩ := h
  obtain ⟨newer, hnewer, hquiet'⟩ := k
  refine ⟨newer ++ older, by rw [hnewer, holder, List.append_assoc], ?_⟩
  rintro ⟨max, hmem⟩
  rcases List.mem_append.1 hmem with hmem | hmem
  · exact hquiet' ⟨max, hmem⟩
  · exact hquiet ⟨max, hmem⟩

theorem of_eq (h : t.journal = s.journal) : Unended s t := ⟨[], h, fun ⟨_, hmem⟩ => by cases hmem⟩

theorem suffix (h : Unended s t) : s.journal <:+ t.journal := by
  obtain ⟨newer, hj, -⟩ := h
  exact ⟨newer, hj.symm⟩

theorem call {call : EngineCall ε} (h : t.journal = .engine call :: s.journal) : Unended s t :=
  ⟨[.engine call], h, fun ⟨_, hmem⟩ => by cases List.mem_singleton.1 hmem⟩

/-- What fits a state in which the socket is not read. -/
theorem adds {state : SessionState} (h : Adds state s t) (hread : state ≠ .handshakeRead)
    (hconn : state ≠ .connected) : Unended s t := by
  obtain ⟨newer, hj, hfits⟩ := h
  refine ⟨newer, hj, fun ⟨max, hmem⟩ => ?_⟩
  have hfit := hfits _ hmem
  cases state <;> simp_all [Event.fits, SocketCall.isWrite]

theorem silent (h : Silent s t) : Unended s t :=
  adds (Adds.silent h : Adds .initialized s t) (by simp) (by simp)

variable [Socket ω]

theorem flushPending (s : Session σ ω ε) : Unended s s.flushPending.2 :=
  adds (Adds.flushPending s : Adds .initialized s _) (by simp) (by simp)

theorem flushBestEffort (s : Session σ ω ε) : Unended s s.flushBestEffort :=
  adds (Adds.flushBestEffort s : Adds .initialized s _) (by simp) (by simp)

theorem fillRaw {max : Nat} {answer : Except IoError Bytes} (h : s.fillRaw max = (answer, t))
    (hne : answer ≠ .ok []) : Unended s t := by
  rcases fillRaw_reads h with ⟨-, rfl⟩ | ⟨first, hj, hfirst⟩
  · exact of_eq rfl
  · refine ⟨_ :: (first.map Event.socket).reverse, hj, fun ⟨m, hmem⟩ => ?_⟩
    rcases List.mem_cons.1 hmem with hmem | hmem
    · injection hmem with hcall
      injection hcall with _ ha
      exact hne ha.symm
    · obtain ⟨call, hcall, heq⟩ := List.mem_map.1 (List.mem_reverse.1 hmem)
      obtain ⟨e, rfl⟩ := hfirst call hcall
      cases heq

theorem processHandshake [Engine σ ε] (s : Session σ ω ε) : Unended s s.processHandshake.2 :=
  adds (.processHandshake s (.inl rfl)) (by simp) (by simp)

end Unended

namespace Session

section Steps

variable [Engine σ ε] [Socket ω] {s t : Session σ ω ε}

/-! ## How a handshake stops -/

theorem processHandshake_leads (s : Session σ ω ε) (hs : s.state ≠ .closed) :
    s.processHandshake.2.state.inHandshake = true ∨ s.processHandshake.2.state = .error := by
  rcases s.processHandshake_cases with ⟨e, -, he⟩ | ⟨progress, t, -, -, ht⟩
  · rw [he, state_flushBestEffort]
    exact .inr (fail_error _ hs)
  · rw [ht, state_setState]
    exact .inl t.inHandshake_nextHandshakeState

theorem processHandshake_error (h : s.processHandshake = (.yield (.error ()), t))
    (hs : s.state ≠ .closed) : t.state = .error := by
  rcases s.processHandshake_cases with ⟨e, -, he⟩ | ⟨progress, u, -, -, hu⟩
  · rw [he] at h
    injection h with _ ht
    rw [← ht, state_flushBestEffort]
    exact fail_error _ hs
  · rw [hu] at h
    cases h

omit [Engine σ ε] [Socket ω] in
theorem MayStep.not_closed (h : s.MayStep) : s.state ≠ .closed := by
  rintro hc
  rcases h with h | ⟨h, -⟩ <;> rw [hc] at h <;> cases h

/-- A step that fails leaves a failed session. -/
theorem step_yield_error (h : s.step = (.yield (.error ()), t)) (hm : s.MayStep) :
    t.state = .error := by
  have hlive := hm.not_closed
  have hfail : ∀ {u : Session σ ω ε} {f : Failure ε}, u.state = s.state →
      u.failStep f = (.yield (.error ()), t) → t.state = .error := by
    intro u f hu hf
    injection hf with _ hf
    rw [← hf]
    exact fail_error f (by rwa [hu])
  generalize hr : s.step = r at h
  have hcase := s.step_case
  rw [hr] at hcase
  cases hcase with
  | startFailed => exact hfail (u := s.startEngine.2) rfl h
  | started => exact processHandshake_error h hlive
  | sendFailed => exact hfail s.state_flushPending h
  | ended | receiveFailed => exact hfail (s.state_fillRaw _) h
  | arrived => exact processHandshake_error h (by rwa [state_fillRaw])
  | finish =>
    rcases s.finishHandshake_cases with ⟨-, f, -, hf⟩ | ⟨-, v, -, hv⟩
    · rw [hf] at h
      exact hfail rfl h
    · rw [hv] at h
      cases h
  | refused _ hno hi =>
    rcases hm with hm | ⟨hm, -⟩
    · rw [hm] at hno
      cases hno
    · exact absurd hm hi
  | _ => cases h

/-- A step leads on in the handshake, to the connected session or to failure. -/
theorem step_leads (hm : s.MayStep) : s.step.2.state.inHandshake = true ∨
    s.step.2.state = .connected ∨ s.step.2.state = .error := by
  rcases h : s.step with ⟨result, t⟩
  rcases result with _ | _ | _ | _
  · exact .inl (step_proceed h)
  · exact .inr (.inl (step_yield_ok h))
  · rcases step_yield_wouldBlock h with ht | ht
    · exact .inl (by rw [ht]; rfl)
    · exact .inl (by rw [ht]; rfl)
  · exact .inr (.inr (step_yield_error h hm))

/-- A step that would block ended with the socket call that said so. -/
theorem step_yield_blocked (h : s.step = (.yield .wouldBlock, t)) : JustBlocked s t := by
  generalize hr : s.step = r at h
  have hcase := s.step_case
  rw [hr] at hcase
  cases hcase with
  | started | arrived => exact absurd h processHandshake_not_blocked
  | sendBlocked _ ha =>
    injection h with _ h
    exact h ▸ flushPending_blocked (Prod.ext ha rfl)
  | waits e _ ha hb =>
    injection h with _ h
    rcases fillRaw_reads (Prod.ext ha rfl) with ⟨hnone, -⟩ | ⟨first, hj, -⟩
    · simp only [fillRaw, hnone] at ha
      cases ha
      cases hb
    · rw [← h]
      exact ⟨_, _, hj, hb, List.suffix_append ..⟩
  | finish => exact absurd h finishHandshake_not_blocked
  | _ => simp [failStep] at h

theorem runHandshake_error (h : s.runHandshake = (.error (), t)) (hm : s.MayStep) :
    t.state = .error := by
  fun_induction runHandshake s with
  | case1 s s' hs ih => exact ih h (.inl (step_proceed hs))
  | case2 s status s' hs =>
    injection h with hv ht
    subst hv ht
    exact step_yield_error hs hm

theorem runHandshake_blocked (h : s.runHandshake = (.wouldBlock, t)) : JustBlocked s t := by
  fun_induction runHandshake s with
  | case1 s s' hs ih =>
    have hj := (Adds.step s).suffix
    rw [hs] at hj
    exact (ih h).since hj
  | case2 s status s' hs =>
    injection h with hv ht
    subst hv ht
    exact step_yield_blocked hs

/-- A step met the end of the stream only if it failed. -/
theorem step_unended (s : Session σ ω ε) : Unended s s.step.2 ∨ s.step.2.state = .error := by
  generalize hr : s.step = r
  have hcase := s.step_case
  rw [hr] at hcase
  cases hcase with
  | startFailed => exact .inl ((Unended.call (t := s.startEngine.2) rfl).trans (.silent (.fail _ _)))
  | started =>
    have hstart : Unended s { s.startEngine.2 with handshakeComplete := false } := .call rfl
    exact .inl (hstart.trans (.processHandshake _))
  | sent => exact .inl ((Unended.flushPending s).trans (.silent (.setState _ _)))
  | sendBlocked => exact .inl (.flushPending s)
  | sendFailed => exact .inl ((Unended.flushPending s).trans (.silent (.fail _ _)))
  | ended h => exact .inr (fail_error _ (by rw [state_fillRaw, h]; simp))
  | arrived bytes h ha hne =>
    have hfill : Unended s (s.fillRaw maxRecordLength).2 :=
      .fillRaw (Prod.ext ha rfl) (by simpa using hne)
    exact .inl (hfill.trans (.processHandshake _))
  | waits e h ha => exact .inl (.fillRaw (Prod.ext ha rfl) (by simp))
  | receiveFailed e h ha =>
    have hfill : Unended s (s.fillRaw maxRecordLength).2 := .fillRaw (Prod.ext ha rfl) (by simp)
    exact .inl (hfill.trans (.silent (.fail _ _)))
  | finish =>
    rcases s.finishHandshake_cases with ⟨-, f, -, hf⟩ | ⟨-, v, -, hv⟩
    · rw [hf]
      exact .inl (.silent (.fail _ _))
    · rw [hv]
      exact .inl (.silent (.connectedAs _ _))
  | agreed => exact .inl (.of_eq rfl)
  | refused => exact .inl (.silent (.fail _ _))

end Steps

/-! ## Leaving for a reason -/

/-- A session leaves its connection only when the peer ended the data or its own side closed it, and
it remembers that the stream ended. -/
structure Candid (own : Prop) (s : Session σ ω ε) : Prop where
  gone : s.state = .closing ∨ s.state = .closed → PeerEnded s.journal ∨ own
  told : s.peerClosed = true → PeerEnded s.journal
  remembers : StreamEnded s.journal → s.eof = true ∨ s.state = .error

namespace Candid

variable {own : Prop} {s t : Session σ ω ε}

theorem mono {own' : Prop} (h : Candid own s) (himp : own → own') : Candid own' s :=
  ⟨fun hs => (h.gone hs).imp_right himp, h.told, h.remembers⟩

/-- Going on without an end of the stream. -/
theorem extend (h : Candid own s) (hj : Unended s t) (hp : t.peerClosed = s.peerClosed)
    (he : t.eof = s.eof) (herr : s.state ≠ .error)
    (hgone : t.state = .closing ∨ t.state = .closed → PeerEnded t.journal ∨ own) :
    Candid own t where
  gone := hgone
  told ht := (h.told (hp ▸ ht)).mono hj.suffix
  remembers hend := by
    obtain ⟨newer, hnewer, hquiet⟩ := hj
    obtain ⟨max, hmem⟩ := hend
    rw [hnewer] at hmem
    rcases List.mem_append.1 hmem with hmem | hmem
    · exact absurd ⟨max, hmem⟩ hquiet
    · rcases h.remembers ⟨max, hmem⟩ with heof | hs
      · exact .inl (he.trans heof)
      · exact absurd hs herr

/-- The same with the state that it had. -/
theorem stay (h : Candid own s) (hj : Unended s t) (hp : t.peerClosed = s.peerClosed)
    (he : t.eof = s.eof) (hs : t.state = s.state) : Candid own t where
  gone ht := (h.gone (hs ▸ ht)).imp_left (·.mono hj.suffix)
  told ht := (h.told (hp ▸ ht)).mono hj.suffix
  remembers hend := by
    rw [hs]
    by_cases herr : s.state = .error
    · exact .inr herr
    · exact .inl ((h.extend hj hp he herr fun ht =>
        (h.gone (hs ▸ ht)).imp_left (·.mono hj.suffix)).remembers hend |>.resolve_right
          (by rwa [hs]))

theorem of_error (hs : t.state = .error) (hp : t.peerClosed = true → PeerEnded t.journal) :
    Candid own t := by
  refine ⟨fun h => ?_, hp, fun _ => .inr hs⟩
  rcases h with h | h <;> rw [hs] at h <;> cases h

theorem fail (h : Candid own s) (f : Failure ε) : Candid own (s.fail f) := by
  have hq := Unended.silent (.fail s f)
  have hsteady := Steady.fail s f
  rcases s.fail_state f with hf | ⟨hf, hs⟩
  · exact of_error hf fun hp => (h.told (hsteady.peerClosed ▸ hp)).mono hq.suffix
  · exact h.stay hq hsteady.peerClosed hsteady.eof (hf.trans hs.symm)

section Moves

variable [Socket ω]

theorem flushPending (h : Candid own s) : Candid own s.flushPending.2 :=
  h.stay (.flushPending s) (Steady.flushPending s).peerClosed (Steady.flushPending s).eof
    s.state_flushPending

end Moves

variable [Engine σ ε] [Socket ω]

theorem step (h : Candid own s) (hm : s.MayStep) : Candid own s.step.2 := by
  have hsteady := Steady.step s
  rcases s.step_unended with hq | herr
  · refine h.extend hq hsteady.peerClosed hsteady.eof ?_ fun hgone => ?_
    · rintro hs
      rcases hm with hm | ⟨hm, -⟩ <;> rw [hs] at hm <;> cases hm
    · rcases step_leads hm with ht | ht | ht <;> rcases hgone with hg | hg <;> rw [hg] at ht <;>
        cases ht
  · exact of_error herr fun hp => (h.told (hsteady.peerClosed ▸ hp)).mono (Adds.step s).suffix

theorem runHandshake (h : Candid own s) (hm : s.MayStep) : Candid own s.runHandshake.2 := by
  fun_induction Session.runHandshake s with
  | case1 s s' hs ih =>
    have hstep := h.step hm
    rw [hs] at hstep
    exact ih hstep (.inl (step_proceed hs))
  | case2 s status s' hs =>
    have hstep := h.step hm
    rwa [hs] at hstep

theorem processHandshake (h : Candid own s) (hs : s.state = .handshakeRead) :
    Candid own s.processHandshake.2 := by
  have hsteady := Steady.processHandshake s
  refine h.extend (.processHandshake s) hsteady.peerClosed hsteady.eof (by rw [hs]; simp) ?_
  intro hgone
  rcases s.processHandshake_leads (by rw [hs]; simp) with ht | ht <;>
    rcases hgone with hg | hg <;> rw [hg] at ht <;> cases ht

/-- The turns of a call that does not read, and that is the reason itself if it closes. -/
theorem turn {c : Call ω} (h : Candid own s) (hread : ∀ max, c ≠ .read max)
    (hclose : c = .close → own) (ht : Turn c s t) : Candid own t := by
  have hstays : ∀ {state : SessionState} {u : Session σ ω ε}, s.state = state → state ≠ .error →
      Unended s u → u.peerClosed = s.peerClosed → u.eof = s.eof →
      u.state ≠ .closing → u.state ≠ .closed → Candid own u := by
    rintro state u rfl herr hq hp he h₁ h₂
    exact h.extend hq hp he herr fun hgone => hgone.elim (absurd · h₁) (absurd · h₂)
  cases ht with
  | bind k hs =>
    have hq : Unended s ({ s with socket := some k }.setState .initialized) :=
      (Unended.of_eq (t := { s with socket := some k }) rfl).trans (.silent (.setState _ _))
    have hsteady := Steady.setState { s with socket := some k } .initialized
    refine hstays hs (by simp) hq hsteady.peerClosed hsteady.eof ?_ ?_ <;>
      rw [state_setState] <;> simp
  | nameServer | nameHost | outside | track => exact h.stay (.of_eq rfl) rfl rfl rfl
  | step hm => exact h.step hm
  | encrypt => exact h.stay (.call rfl) rfl rfl rfl
  | flush => exact h.flushPending
  | remark n => exact h.stay (.silent (.note s n)) rfl rfl rfl
  | fail f => exact h.fail f
  | decrypt | reopen | overrun | resume | fill | sawEnd | sawClose => exact absurd rfl (hread _)
  | release => exact h.stay (.of_eq rfl) rfl rfl rfl
  | notify => exact h.stay (.call rfl) rfl rfl rfl
  | @withdraw _ _ next hc hs =>
    rcases hc with hc | ⟨max, hc⟩
    · have hsteady := Steady.setState s next
      refine h.extend (.silent (.setState s _)) hsteady.peerClosed hsteady.eof ?_
        fun _ => .inr (hclose hc)
      rcases hs with hs | hs <;> rw [hs] <;> simp
    · exact absurd hc (hread max)

theorem turns {c : Call ω} (h : Candid own s) (hread : ∀ max, c ≠ .read max)
    (hclose : c = .close → own) (ht : Turns c s t) : Candid own t := by
  induction ht with
  | refl => exact h
  | tail _ hlast ih => exact ih.turn hread hclose hlast

end Candid

/-! ## Reading -/

section Reading

variable [Engine σ ε] [Socket ω] {own : Prop} {s t : Session σ ω ε}

/-- How decryption ends: with `none` the session did not fail, and if it is closed then by the peer,
who was answered. With a status it failed or waits in a handshake for its socket. -/
structure Stops (own : Prop) (s : Session σ ω ε) (ended : Option (Status Bytes Unit))
    (t : Session σ ω ε) : Prop where
  candid : Candid own t
  goesOn : ended = none → t.state ≠ .error ∧
    (t.state = .closed → t.peerClosed = true ∧ t.pendingWrite.data = [])
  waits : ended = some .wouldBlock → t.state.inHandshake = true ∧ JustBlocked s t
  failed : ended = some (.error ()) → t.state = .error

omit [Engine σ ε] [Socket ω] in
theorem Stops.since {u : Session σ ω ε} {ended : Option (Status Bytes Unit)}
    (h : Stops own t ended u) (hs : s.journal <:+ t.journal) : Stops own s ended u where
  candid := h.candid
  goesOn := h.goesOn
  waits he := ⟨(h.waits he).1, (h.waits he).2.since hs⟩
  failed := h.failed

omit [Engine σ ε] [Socket ω] in
theorem Candid.reopen (h : Candid own s) (hs : s.state = .connected) : Candid own s.reopen := by
  have hstate : s.reopen.state = .handshakeRead := by rw [reopen_eq]
  refine h.extend (.silent (.reopen s)) (by rw [reopen_eq]) (by rw [reopen_eq]) (by rw [hs]; simp)
    fun hgone => ?_
  rcases hgone with hg | hg <;> rw [hstate] at hg <;> cases hg

theorem renegotiate_stops {answer : Except (Option (Status Bytes Unit)) Unit}
    (h : s.renegotiate = (answer, t)) (hc : Candid own s) (hs : s.state = .connected) :
    (∀ u, answer = .ok u → Candid own t ∧ t.state = .connected ∧ s.journal <:+ t.journal) ∧
    ∀ ended, answer = .error ended → Stops own s ended t := by
  have hread : s.reopen.state = .handshakeRead := by rw [reopen_eq]
  have hopened := hc.reopen hs
  have hfirst := hopened.processHandshake hread
  have hgrown : s.journal <:+ s.reopen.processHandshake.2.journal :=
    ((Unended.silent (.reopen s)).trans (.processHandshake _)).suffix
  unfold renegotiate at h
  rcases s.reopen.processHandshake_cases with ⟨e, -, he⟩ | ⟨progress, u, -, -, hu⟩
  · have hfailed := processHandshake_error he (by rw [hread]; simp)
    rw [he] at h hfirst
    injection h with ha ht
    subst ha ht
    refine ⟨by simp, fun ended hended => ?_⟩
    injection hended with hended
    subst hended
    exact ⟨hfirst, by simp, by simp, fun _ => hfailed⟩
  · rw [hu] at h hfirst hgrown
    have hm : (u.setState u.nextHandshakeState).MayStep :=
      .inl (by rw [state_setState]; exact u.inHandshake_nextHandshakeState)
    have hrun := hfirst.runHandshake hm
    have hlonger := (runHandshake_turns (.accept : Call ω) hm).journal
    rcases hr : (u.setState u.nextHandshakeState).runHandshake with ⟨status, w⟩
    simp only [hr] at h hrun hlonger
    have hall : s.journal <:+ w.journal := hgrown.trans hlonger
    cases status with
    | ok v =>
      injection h with ha ht
      subst ha ht
      exact ⟨fun _ _ => ⟨hrun, runHandshake_ok hr, hall⟩, by simp⟩
    | error _ =>
      injection h with ha ht
      subst ha ht
      refine ⟨by simp, fun ended hended => ?_⟩
      injection hended with hended
      subst hended
      exact ⟨hrun, by simp, by simp, fun _ => runHandshake_error hr hm⟩
    | wouldBlock =>
      have hin : w.state.inHandshake = true := by
        rcases runHandshake_wouldBlock hr with hw | hw <;> rw [hw] <;> rfl
      have hblocked := (runHandshake_blocked hr).since hgrown
      have hlive : w.state ≠ .error := fun hw => by rw [hw] at hin; cases hin
      simp only at h
      split at h
      all_goals
        injection h with ha ht
        subst ha ht
        refine ⟨by simp, fun ended hended => ?_⟩
        injection hended with hended
        subst hended
        exact ⟨hrun, fun _ => ⟨hlive, fun hw => by rw [hw] at hin; cases hin⟩,
          fun _ => ⟨hin, hblocked⟩, by simp⟩

/-- Answering the peer's end leaves the connection, and the peer is the reason. -/
theorem Candid.answerClose (h : Candid own s) (hs : s.state = .connected)
    (hend : PeerEnded s.journal) : Candid own s.answerClose ∧ s.answerClose.state ≠ .error ∧
      (s.answerClose.state = .closed →
        s.answerClose.peerClosed = true ∧ s.answerClose.pendingWrite.data = []) := by
  have hleave : ∀ {t : Session σ ω ε}, Candid own t → t.state = .connected →
      t.peerClosed = true → PeerEnded t.journal → Candid own t.leave ∧ t.leave.state ≠ .error ∧
      (t.leave.state = .closed → t.leave.peerClosed = true ∧ t.leave.pendingWrite.data = []) := by
    intro t ht hconn hclosed hpeer
    have hflush := ht.flushPending
    have hpeer' := hpeer.mono (Unended.flushPending t).suffix
    have hstate : t.flushPending.2.state = .connected := t.state_flushPending.trans hconn
    have hgo : ∀ next, Candid own (t.flushPending.2.setState next) := by
      intro next
      have hq := Unended.silent (.setState t.flushPending.2 next)
      have hsteady := Steady.setState t.flushPending.2 next
      exact hflush.extend hq hsteady.peerClosed hsteady.eof (by rw [hstate]; simp)
        fun _ => .inl (hpeer'.mono hq.suffix)
    have htold : t.flushPending.2.peerClosed = true :=
      (Steady.flushPending t).peerClosed.trans hclosed
    unfold leave
    rcases hf : t.flushPending with ⟨answer, u⟩
    rw [hf] at hgo htold
    simp only
    split
    · have hdone : u.pendingWrite.data = [] := by
        have hd := flushPending_done (s := t) (by rw [hf])
        rwa [hf] at hd
      refine ⟨hgo .closed, by rw [state_setState]; simp, fun _ => ?_⟩
      rw [setState_eq]
      exact ⟨htold, hdone⟩
    · refine ⟨hgo .closing, by rw [state_setState]; simp, fun hc => ?_⟩
      rw [state_setState] at hc
      cases hc
  have htold : Candid own { s.note .peerClosed with peerClosed := true } := by
    have hnote := h.stay (.silent (.note s .peerClosed)) rfl rfl rfl
    exact ⟨hnote.gone, fun _ => hend.mono (Unended.silent (.note s .peerClosed)).suffix,
      hnote.remembers⟩
  have hquiet : Unended s { s.note .peerClosed with peerClosed := true } :=
    (Unended.silent (.note s .peerClosed)).trans (.of_eq rfl)
  unfold Session.answerClose
  rcases hn : notifyClose { s.note .peerClosed with peerClosed := true } with ⟨answer, t⟩
  have ht : t = (notifyClose { s.note .peerClosed with peerClosed := true }).2 := by rw [hn]
  have hcall : Unended { s.note .peerClosed with peerClosed := true } t :=
    ht ▸ .call (t := (notifyClose { s.note .peerClosed with peerClosed := true }).2) rfl
  have hsame : t.state = s.state := by rw [ht]; rfl
  have hnotified : Candid own t := htold.stay hcall (by rw [ht]; rfl) (by rw [ht]; rfl) hsame
  have hpeer : PeerEnded t.journal := hend.mono (hquiet.trans hcall).suffix
  have hclosed : t.peerClosed = true := by rw [ht]; rfl
  cases answer with
  | ok _ => exact hleave hnotified (hsame.trans hs) hclosed hpeer
  | error e =>
    have hnoted := Unended.silent (.note t (.replyFailed e))
    exact hleave (hnotified.stay hnoted rfl rfl rfl) (hsame.trans hs) hclosed
      (hpeer.mono hnoted.suffix)

theorem decryptAvailable_stops {admitted : Nat} {ended : Option (Status Bytes Unit)}
    (h : decryptAvailable admitted s = (ended, t)) (hc : Candid own s)
    (hs : s.state = .connected) : Stops own s ended t := by
  have honce : ∀ {s u : Session σ ω ε} {answer : Except ε DecryptStop}, Candid own s →
      s.decryptOnce = (answer, u) →
      Candid own u ∧ u.state = s.state ∧ (∃ n p moved,
        u.journal = .engine (.decrypt n p moved answer) :: s.journal) := by
    intro s u answer hc hd
    have hu : u = s.decryptOnce.2 := by rw [hd]
    have ha : answer = s.decryptOnce.1 := by rw [hd]
    subst hu ha
    exact ⟨hc.stay (.call rfl) rfl rfl rfl, rfl, _, _, _, rfl⟩
  fun_induction decryptAvailable admitted s with
  | case1 admitted s u hd =>
    obtain ⟨hu, hstate, -⟩ := honce hc hd
    injection h with he ht
    subst he ht
    exact ⟨hu, fun _ => by rw [hstate, hs]; simp, by simp, by simp⟩
  | case2 admitted s u hd =>
    obtain ⟨hu, hstate, n, p, moved, hj⟩ := honce hc hd
    obtain ⟨hleft, hgone⟩ := hu.answerClose (hstate.trans hs)
      ⟨n, p, moved, by rw [hj]; exact List.mem_cons_self ..⟩
    injection h with he ht
    subst he ht
    exact ⟨hleft, fun _ => hgone, by simp, by simp⟩
  | case3 admitted s u e hd =>
    obtain ⟨hu, hstate, -⟩ := honce hc hd
    have hfail := hu.fail (.native e)
    have hsteady := Steady.flushBestEffort (u.fail (.native e))
    have herr : (u.fail (.native e)).state = .error := fail_error _ (by rw [hstate, hs]; simp)
    injection h with he ht
    subst he ht
    exact ⟨hfail.stay (.flushBestEffort _) hsteady.peerClosed hsteady.eof (state_flushBestEffort _),
      by simp, by simp, fun _ => by rw [state_flushBestEffort, herr]⟩
  | case4 s u v hd =>
    obtain ⟨hu, hstate, -⟩ := honce hc hd
    have hcount : Candid own { u with renegotiations := u.renegotiations + 1 } :=
      hu.stay (.of_eq rfl) rfl rfl rfl
    injection h with he ht
    subst he ht
    exact ⟨hcount.fail _, by simp, by simp, fun _ => fail_error _ (by
      show u.state ≠ _
      rw [hstate, hs]
      simp)⟩
  | case5 s u v admitted w a hd hr ih =>
    obtain ⟨hu, hstate, n, p, moved, hj⟩ := honce hc hd
    have hcount : Candid own { u with renegotiations := u.renegotiations + 1 } :=
      hu.stay (.of_eq rfl) rfl rfl rfl
    obtain ⟨hok, -⟩ := renegotiate_stops hr hcount (hstate.trans hs)
    obtain ⟨hw, hconn, hlonger⟩ := hok a rfl
    have hgrown : s.journal <:+ w.journal :=
      (hj ▸ List.suffix_cons _ _ : s.journal <:+ u.journal).trans hlonger
    exact (ih h hw hconn).since hgrown
  | case6 s u v admitted w ended' hd hr =>
    obtain ⟨hu, hstate, n, p, moved, hj⟩ := honce hc hd
    have hcount : Candid own { u with renegotiations := u.renegotiations + 1 } :=
      hu.stay (.of_eq rfl) rfl rfl rfl
    obtain ⟨-, hended⟩ := renegotiate_stops hr hcount (hstate.trans hs)
    injection h with he ht
    subst he ht
    exact (hended _ rfl).since (hj ▸ List.suffix_cons _ _ : s.journal <:+ u.journal)

/-- How a read ends, whatever made its own side close. -/
structure Reads (own : Prop) (s : Session σ ω ε) (r : Status Bytes Unit × Session σ ω ε) :
    Prop where
  candid : Candid own r.2
  done : r.1 = .ok [] → (PeerEnded r.2.journal ∨ own) ∧ r.2.plaintext.data = []
  waits : r.1 = .wouldBlock → StreamEnded r.2.journal →
    r.2.state.inHandshake = true ∧ JustBlocked s r.2
  failed : r.1 = .error () → r.2.state = .error

omit [Engine σ ε] [Socket ω] in
theorem Reads.since {r : Status Bytes Unit × Session σ ω ε} (h : Reads own t r)
    (hs : s.journal <:+ t.journal) : Reads own s r :=
  ⟨h.candid, h.done, fun hw he => ⟨(h.waits hw he).1, (h.waits hw he).2.since hs⟩, h.failed⟩

omit [Engine σ ε] [Socket ω] in
theorem Candid.failRead (h : Candid own t) (f : Failure ε) (hs : t.state ≠ .closed) :
    Reads own s (.error (), t.fail f) :=
  ⟨h.fail f, by simp, by simp, fun _ => fail_error f hs⟩

omit [Engine σ ε] [Socket ω] in
theorem Candid.takePlaintext (h : Candid own t) {max : Nat} (hmax : 0 < max)
    (hp : t.plaintext.isEmpty = false) : Reads own s (t.takePlaintext max) := by
  have hne : t.plaintext.data.take max ≠ [] := by
    have hdata : t.plaintext.data ≠ [] := by simpa [Buffer.isEmpty] using hp
    rw [Ne, List.take_eq_nil_iff, not_or]
    exact ⟨Nat.ne_of_gt hmax, hdata⟩
  refine ⟨⟨h.gone, h.told, h.remembers⟩, fun hok => ?_, fun hok => ?_, fun hok => ?_⟩
  · injection hok with hok
    exact absurd hok hne
  · cases hok
  · cases hok

omit [Engine σ ε] [Socket ω] in
theorem answerRead_reads (h : Candid own t) {max : Nat} (hmax : 0 < max)
    (hlive : t.state ≠ .error) (hclosed : t.state = .closed → t.peerClosed = true) :
    Reads own s (t.answerRead max) := by
  unfold answerRead
  cases hp : t.plaintext.isEmpty with
  | false => exact h.takePlaintext hmax hp
  | true =>
    simp only [Bool.not_true, Bool.false_eq_true, if_false]
    split
    · rename_i hpeer
      exact ⟨h, fun _ => ⟨.inl (h.told hpeer), t.plaintext.isEmpty_iff.1 hp⟩, by simp, by simp⟩
    split
    · rename_i hpeer _
      exact h.failRead .eof fun hs => hpeer (hclosed hs)
    · rename_i heof
      refine ⟨h, by simp, fun _ hend => ?_, by simp⟩
      exact ((h.remembers hend).elim heof hlive).elim

omit [Engine σ ε] in
theorem finishRead_reads (h : Candid own t) {max : Nat} (hmax : 0 < max)
    (hlive : t.state ≠ .error)
    (hclosed : t.state = .closed → t.peerClosed = true ∧ t.pendingWrite.data = []) :
    Reads own s (t.finishRead max) := by
  unfold finishRead
  split
  · exact answerRead_reads h hmax hlive fun hs => (hclosed hs).1
  · rename_i hpending
    have hopen : t.state ≠ .closed := fun hs =>
      hpending (t.pendingWrite.isEmpty_iff.2 (hclosed hs).2)
    have hflush := h.flushPending
    have hstate := t.state_flushPending
    rcases hf : t.flushPending with ⟨answer, u⟩
    rw [hf] at hflush hstate
    have hstate : u.state = t.state := hstate
    cases answer with
    | error e => exact hflush.failRead (.io e) (by rwa [hstate])
    | ok _ =>
      exact answerRead_reads hflush hmax (by rwa [hstate])
        fun hs => absurd (hstate.symm.trans hs) hopen

theorem decryptAndFinish_reads (h : Candid own t) {max : Nat} (hmax : 0 < max)
    (hs : t.state = .connected) : Reads own t (t.decryptAndFinish max) := by
  unfold decryptAndFinish
  rcases hd : decryptAvailable (maxRenegotiations - t.renegotiations) t with ⟨ended, u⟩
  have hstops := decryptAvailable_stops hd h hs
  cases ended with
  | none =>
    obtain ⟨hlive, hclosed⟩ := hstops.goesOn rfl
    exact finishRead_reads hstops.candid hmax hlive hclosed
  | some status =>
    refine ⟨hstops.candid, fun hok => ?_, fun hw _ => ?_, fun he => ?_⟩
    · exact absurd hok (decryptAvailable_ended hd [])
    · exact hstops.waits (congrArg some hw)
    · exact hstops.failed (congrArg some he)

theorem receive_reads (h : Candid own s) {max : Nat} (hmax : 0 < max) (hs : s.state = .connected) :
    Reads own s (s.receive max) := by
  unfold receive
  rcases hf : s.fillRaw (Nat.max max maxRecordLength) with ⟨answer, t⟩
  have ht : t = (s.fillRaw (Nat.max max maxRecordLength)).2 := by rw [hf]
  have hsteady : Steady s t := ht ▸ Steady.fillRaw s _
  have hstate : t.state = .connected := by rw [ht, state_fillRaw, hs]
  have hgrown : s.journal <:+ t.journal := by
    rw [ht]
    exact (Adds.fillRaw s _ (.inr rfl) : Adds .connected s _).suffix
  -- Only an answer without bytes is the end of the stream.
  have hgo : answer ≠ .ok [] → Candid own t := fun hne =>
    h.stay (.fillRaw hf hne) hsteady.peerClosed hsteady.eof (hstate.trans hs.symm)
  rcases answer with e | _ | ⟨b, rest⟩
  · simp only
    split
    · exact (decryptAndFinish_reads (hgo (by simp)) hmax hstate).since hgrown
    · exact (hgo (by simp)).failRead _ (by rw [hstate]; simp)
  · have hend : Candid own { t with eof := true } := by
      refine ⟨fun hgone => ?_, fun hp => ?_, fun _ => .inl rfl⟩
      · have hgone : t.state = .closing ∨ t.state = .closed := hgone
        rcases hgone with hg | hg <;> rw [hstate] at hg <;> cases hg
      · exact (h.told (hsteady.peerClosed ▸ hp)).mono hgrown
    exact (decryptAndFinish_reads hend hmax hstate).since hgrown
  · exact (decryptAndFinish_reads (hgo (by simp)) hmax hstate).since hgrown

theorem readData_reads (h : Candid own s) {max : Nat} (hmax : 0 < max) :
    Reads own s (s.readData max) := by
  have hne : ¬max = 0 := Nat.ne_of_gt hmax
  unfold readData
  rw [if_neg hne]
  cases hp : s.plaintext.isEmpty with
  | false => exact h.takePlaintext hmax hp
  | true =>
    simp only [Bool.not_true, Bool.false_eq_true, if_false]
    split
    · rename_i hs
      exact receive_reads h hmax hs
    split
    · rename_i hs
      have hm : s.MayStep := .inl (by simp_all)
      have hrun := h.runHandshake hm
      have hgrown := (runHandshake_turns (.accept : Call ω) hm).journal
      rcases hr : s.runHandshake with ⟨status, t⟩
      rw [hr] at hrun hgrown
      cases status with
      | ok v => exact (receive_reads hrun hmax (runHandshake_ok hr)).since hgrown
      | wouldBlock =>
        have hin : t.state.inHandshake = true := by
          rcases runHandshake_wouldBlock hr with ht | ht <;> rw [ht] <;> rfl
        exact ⟨hrun, by simp, fun _ _ => ⟨hin, runHandshake_blocked hr⟩, by simp⟩
      | error _ => exact ⟨hrun, by simp, by simp, fun _ => runHandshake_error hr hm⟩
    split
    · rename_i hgone
      exact ⟨h, fun _ => ⟨h.gone hgone, s.plaintext.isEmpty_iff.1 hp⟩, by simp, by simp⟩
    split
    · rename_i herr
      exact ⟨h, by simp, by simp, fun _ => herr⟩
    · rename_i hgone _
      exact h.failRead _ fun hs => hgone (.inr hs)

end Reading

/-! ## Every run -/

section Running

variable [Engine σ ε] [Socket ω] {own : Prop} {s : Session σ ω ε}

theorem Candid.close (h : Candid own s) : Candid (own ∨ s.state = .connected) s.close.2 := by
  have hbase : Candid (own ∨ s.state = .connected) s := h.mono .inl
  by_cases hs : s.state = .connected
  · exact hbase.turns (by simp) (fun _ => .inr hs) (close_turns s)
  by_cases hclosing : s.state = .closing
  · -- It goes on closing for the reason for which it began to.
    have hwhy : Candid (PeerEnded s.journal ∨ own) s.close.2 :=
      (h.mono .inr).turns (by simp) (fun _ => h.gone (.inl hclosing)) (close_turns s)
    refine ⟨fun hgone => ?_, hwhy.told, hwhy.remembers⟩
    rcases hwhy.gone hgone with hpeer | hpeer | hown
    · exact .inl hpeer
    · exact .inl (hpeer.mono (close_turns s).journal)
    · exact .inr (.inl hown)
  unfold Session.close
  rw [if_neg hs, if_neg hclosing]
  split
  · exact hbase
  split
  · exact hbase
  · exact hbase.fail _

/-- A call closed the session while it was connected. -/
def ClosedBy (fresh : Session σ ω ε) (calls : List (Call ω)) : Prop := ∃ before after,
  calls = before ++ .close :: after ∧ (fresh.run before).2.state = .connected

theorem Candid.run (engine : σ) (side : Side) (verifyPeer : Bool) (policy : CipherPolicy)
    (calls : List (Call ω)) :
    Candid (ClosedBy (ofEngine engine side verifyPeer policy : Session σ ω ε) calls)
      ((ofEngine engine side verifyPeer policy : Session σ ω ε).run calls).2 := by
  induction calls using List.reverseRecOn with
  | nil =>
    refine ⟨fun hgone => ?_, fun hp => ?_, fun ⟨_, hmem⟩ => ?_⟩
    · rcases hgone with hg | hg <;> cases hg
    · cases hp
    · cases hmem
  | append_singleton calls c ih =>
    have hlonger : ClosedBy (ofEngine engine side verifyPeer policy : Session σ ω ε) calls →
        ClosedBy (ofEngine engine side verifyPeer policy : Session σ ω ε) (calls ++ [c]) := by
      rintro ⟨before, after, rfl, hs⟩
      exact ⟨before, after ++ [c], by simp, hs⟩
    rw [run_concat]
    have hbase := ih.mono hlonger
    have hturns : (∀ max, c ≠ .read max) → c ≠ .close →
        Candid (ClosedBy (ofEngine engine side verifyPeer policy : Session σ ω ε) (calls ++ [c]))
          (((ofEngine engine side verifyPeer policy : Session σ ω ε).run calls).2.perform c).2 := by
      intro hread hclose
      obtain ⟨t, ht, hout⟩ := Session.perform_turns
        ((ofEngine engine side verifyPeer policy : Session σ ω ε).run calls).2 c
      have hend := hbase.turns hread (absurd · hclose) ht
      rw [hout.frame]
      exact ⟨hend.gone, hend.told, hend.remembers⟩
    cases c with
    | read max =>
      rcases Nat.eq_zero_or_pos max with rfl | hmax
      · exact hbase
      · exact (readData_reads hbase hmax).candid
    | close =>
      refine ih.close.mono fun hwhy => hwhy.elim hlonger fun hs => ?_
      exact ⟨calls, [], rfl, hs⟩
    | init | setServerName | connect | accept | write | outside => exact hturns (by simp) (by simp)

/-- A read of no bytes means that the peer ended the data or the own side closed the session, and
that every decrypted byte was handed out. Without either, when the stream has ended a read still
hands out bytes, or it fails, or the socket stopped it within a handshake. -/
theorem read_ends_data (engine : σ) (side : Side) (verifyPeer : Bool) (policy : CipherPolicy)
    (calls : List (Call ω)) {max : Nat} (hmax : 0 < max) :
    let fresh : Session σ ω ε := ofEngine engine side verifyPeer policy
    let s := (fresh.run calls).2
    let r := s.readData max
    (r.1 = .ok [] → (PeerEnded r.2.journal ∨ ClosedBy fresh calls) ∧
      s.plaintext.data = [] ∧ r.2.plaintext.data = [] ∧
      (KeepsBuffers σ → (fresh.run calls).1.flatMap Answer.handed = r.2.revealed)) ∧
    (¬ PeerEnded r.2.journal → ¬ ClosedBy fresh calls → StreamEnded r.2.journal →
      (∃ bytes, bytes ≠ [] ∧ r.1 = .ok bytes) ∨ (r.1 = .error () ∧ r.2.state = .error) ∨
      (r.1 = .wouldBlock ∧ r.2.state.inHandshake = true ∧ JustBlocked s r.2)) := by
  intro fresh s r
  have hreads : Reads (ClosedBy fresh calls) s r :=
    readData_reads (Candid.run engine side verifyPeer policy calls) hmax
  refine ⟨fun hok => ?_, fun hpeer hown hend => ?_⟩
  · obtain ⟨hwhy, hempty⟩ := hreads.done hok
    refine ⟨hwhy, ?_, hempty, fun hσ => ?_⟩
    · refine Classical.byContradiction fun hp => ?_
      have hsome : s.plaintext.isEmpty = false := by simpa [Buffer.isEmpty] using hp
      have hread : r = s.takePlaintext max := by
        simp [r, readData, Nat.ne_of_gt hmax, hsome]
      rw [hread] at hok
      injection hok with hok
      rcases List.take_eq_nil_iff.1 hok with h0 | h0
      · exact Nat.ne_of_gt hmax h0
      · exact hp h0
    · have hbalance := (((Balanced.ofEngine engine side verifyPeer policy).run (ω := ω) hσ
        calls).perform hσ (.read max)).opened
      have hnone : ((fresh.run calls).2.perform (.read max)).1.handed = [] := by
        have ha : ((fresh.run calls).2.perform (.read max)).1 = .got r.1 := rfl
        rw [ha, hok]
        rfl
      have hstate : ((fresh.run calls).2.perform (.read max)).2 = r.2 := rfl
      rw [List.nil_append, hnone, hstate, hempty, List.append_nil, List.append_nil] at hbalance
      exact hbalance
  · rcases hr : r.1 with bytes | _ | _
    · refine .inl ⟨bytes, ?_, rfl⟩
      rintro rfl
      exact (hreads.done hr).1.elim hpeer hown
    · exact .inr (.inr ⟨rfl, hreads.waits hr hend⟩)
    · exact .inr (.inl ⟨rfl, hreads.failed hr⟩)

end Running

/-- A client over a stream of three bytes, with an engine that decrypts like this. -/
def briefClient (decryptions : List ScriptedStep) :
    Session (ScriptedEngine true) ScriptedSocket String :=
  ofEngine ⟨⟨16, some .tls13, none, none, [], [], [], [], decryptions, []⟩⟩ .client true .default

/-- After the three bytes the stream ends: with a notice of the peer the next read answers no bytes,
without one it fails. -/
theorem briefClient_ends :
    let calls := [.init (.ofScript [.ok [1, 2, 3], .ok []] [] []), .connect "localhost", .read 5]
    let noticed := briefClient [⟨3, [], [1, 2, 3], .close, none⟩]
    let cut := briefClient []
    ((noticed.run calls).2.readData 5).1 = .ok [] ∧
      (PeerEnded ((noticed.run calls).2.readData 5).2.journal ∨ ClosedBy noticed calls) ∧
    ((cut.run calls).2.readData 5).1 = .error () ∧
      ((cut.run calls).2.readData 5).2.state = .error := by
  intro calls noticed cut
  have hnoticed : ((noticed.run calls).2.readData 5).1 = .ok [] := by decide +kernel
  have hpeer : ¬ PeerEnded ((cut.run calls).2.readData 5).2.journal := by decide +kernel
  have hown : ¬ ClosedBy cut calls := by
    rintro ⟨before, after, hcalls, -⟩
    have hmem : Call.close ∈ calls := by rw [hcalls]; simp
    simp [calls] at hmem
  have hend : StreamEnded ((cut.run calls).2.readData 5).2.journal := by decide +kernel
  have hcut : ((cut.run calls).2.readData 5).1 = .error () := by decide +kernel
  refine ⟨hnoticed, ((read_ends_data _ _ _ _ calls (by decide : 0 < 5)).1 hnoticed).1, hcut, ?_⟩
  rcases (read_ends_data _ _ _ _ calls (by decide : 0 < 5)).2 hpeer hown hend with
    ⟨bytes, -, hok⟩ | ⟨-, hs⟩ | ⟨hblock, -⟩
  · exact absurd (hcut.symm.trans hok) (by simp)
  · exact hs
  · exact absurd (hcut.symm.trans hblock) (by simp)

end Session
end TlsTransport
