import TlsTransport.Proofs.Session.Agreement
import TlsTransport.Proofs.Session.Resumption

/-! # The payload of the write in flight

Of a write in flight a session records the length and a digest of the payload, and how much of it is
encrypted. Which payload that is, only its history tells: the one of the call that started the
write. A write of another payload is refused before anything is done with it; a write of the same
one goes on where the last one stopped.

* `Began`: the payload with which the write in flight began.
* `Session.Carries`: the record of a write in flight is that of this payload.
* `Began.awaits`: so it is, whatever was called since.
* `Session.write_guarded`: what becomes of a write while another one is in flight.
-/

namespace TlsTransport

variable {σ ω ε : Type}

namespace Session

/-! ## Records -/

/-- No write is in flight, or one of this payload, no more of which is encrypted than there is. -/
def Carries (s : Session σ ω ε) (payload : Bytes) : Prop :=
  s.inFlight = none ∨ ∃ locked ≤ payload.length, s.Awaits payload locked

theorem Carries.of_rests {payload : Bytes} {s t : Session σ ω ε} (h : s.Carries payload)
    (hr : Rests s t) : t.Carries payload := by
  rcases hr.inFlight with hsame | ⟨hnone, -⟩
  · simp only [Carries, Awaits, hsame]
    exact h
  · exact .inl hnone

/-- A payload that the record of another one cannot be told from. -/
def Matches (p q : Bytes) : Prop := q.length = p.length ∧ Digest.sip q = Digest.sip p

instance (p q : Bytes) : Decidable (Matches p q) := inferInstanceAs (Decidable (_ ∧ _))

theorem Awaits.of_matches {s : Session σ ω ε} {p q : Bytes} {locked : Nat}
    (h : s.Awaits p locked) (hq : Matches p q) : s.Awaits q locked := by
  rw [Awaits, hq.1, hq.2]
  exact h

theorem Carries.of_matches {s : Session σ ω ε} {p q : Bytes} (h : s.Carries q)
    (hq : Matches p q) : s.Carries p := by
  rcases h with h | ⟨locked, hl, h⟩
  · exact .inl h
  · exact .inr ⟨locked, by rw [← hq.1]; exact hl, h.of_matches ⟨hq.1.symm, hq.2.symm⟩⟩

variable [Engine σ ε] [Socket ω] {s t : Session σ ω ε}

/-! ## One write -/

/-- A write that is done leaves the record as it found it. -/
theorem sendRest_done {fragment n : Nat} {flight : InFlight} {rest : Bytes}
    (h : s.sendRest fragment flight rest = (.ok n, t)) : t.inFlight = s.inFlight := by
  induction flight, rest, s using sendRest.induct (σ := σ) (ω := ω) (ε := ε) fragment with
  | case1 flight rest s u e h₁ =>
    rw [sendRest_of_failed h₁] at h
    cases h
  | case2 flight rest s u h₁ =>
    rw [sendRest_of_blocked h₁] at h
    cases h
  | case3 flight rest s u hr h₁ =>
    have hkeep := Keeps.of_flushed h₁
    rw [sendRest_of_done h₁ (by simpa using hr)] at h
    injection h with _ ht
    rw [← ht, hkeep.inFlight]
  | case4 flight rest s u hr chunk v e h₁ h₂ =>
    rw [sendRest_of_refused h₁ (by simpa using hr) h₂] at h
    cases h
  | case5 flight rest s u hr chunk v a h₁ h₂ ih =>
    have hkeep := Keeps.of_flushed h₁
    have hv : v.inFlight = u.inFlight := by
      have hsame : v = (u.encryptOnce chunk).2 := by rw [h₂]
      rw [hsame]
      rfl
    rw [sendRest_of_encrypted h₁ (by simpa using hr) h₂] at h
    rw [ih h, hv, hkeep.inFlight]

/-- What a write of the rest of a payload leaves. -/
structure Resumes (payload : Bytes) (locked : Nat) (s : Session σ ω ε)
    (r : Status Nat Unit × Session σ ω ε) (es : List (Bytes × Bool)) : Prop where
  bound : locked ≤ payload.length
  encryptions : r.2.encryptions = s.encryptions ++ es
  /-- It encrypted pieces of what was left, from where the last call stopped. -/
  rest : (es.map Prod.fst).flatten <+: payload.drop locked
  whole : ∀ n, r.1 = .ok n → (es.map Prod.fst).flatten = payload.drop locked
  carries : r.2.Carries payload
  mismatches : r.2.mismatches = s.mismatches

theorem sendPayload_resumes {payload : Bytes} {locked : Nat} (hs : s.state = .connected)
    (h : s.Takes payload locked) (hl : locked ≤ payload.length) :
    ∃ es, Resumes payload locked s (s.sendPayload payload) es := by
  -- What is left is cut into pieces, and those that were encrypted come first.
  obtain ⟨es, hes⟩ := sendPayload_written (if_pos hs) h
  have hrest : (es.map Prod.fst).flatten <+: payload.drop locked := by
    obtain ⟨more, hmore⟩ := hes.cut
    refine ⟨more.flatten, ?_⟩
    rw [← List.flatten_append, hmore, pieces_flatten]
  refine ⟨es, hl, hes.encrypts.encryptions, hrest, fun n hn => ?_, ?_, hes.encrypts.mismatches⟩
  · obtain ⟨-, -, hall, -⟩ := hes.ended n hn
    rw [hall, pieces_flatten]
  · by_cases hdone : ∃ n, (s.sendPayload payload).1 = .ok n
    · obtain ⟨n, hn⟩ := hdone
      refine .inl ?_
      rw [sendPayload_eq h] at hn ⊢
      exact sendRest_done (Prod.ext hn rfl)
    · rcases hes.unfinished fun n hn => hdone ⟨n, hn⟩ with ⟨hawaits, -⟩ | ⟨hnone, -⟩
      · refine .inr ⟨_, ?_, hawaits⟩
        have hlength := hrest.length_le
        rw [List.length_drop] at hlength
        omega
      · exact .inl hnone

theorem sendPayload_refused {p q : Bytes} {locked : Nat} (h : s.Awaits p locked)
    (hq : ¬ Matches p q) :
    s.sendPayload q = (.error (), { s with inFlight := none }.fail .otherPayload) := by
  have hdiffers : p.length ≠ q.length ∨ Digest.sip p ≠ Digest.sip q := by
    by_cases hlength : p.length = q.length
    · exact .inr fun hdigest => hq ⟨hlength.symm, hdigest.symm⟩
    · exact .inl hlength
  have hflight : s.inFlight = some ⟨p.length, locked, Digest.sip p⟩ := h
  simp only [sendPayload, hflight]
  rw [if_pos hdiffers]

/-- A write on a connected session, or on one that connects first, is one of a payload; any other
comes to nothing. -/
theorem writeData_case (s : Session σ ω ε) (payload : Bytes) :
    (∃ t, Rests s t ∧ t.state = .connected ∧ s.writeData payload = t.sendPayload payload) ∨
      Rests s (s.writeData payload).2 := by
  unfold writeData
  split
  · rename_i hs
    exact .inl ⟨s, (Keeps.refl s).toRests, hs, rfl⟩
  split
  · rename_i hin
    have hrests := runHandshake_rests (s := s) (.inl (Bool.and_eq_true_iff.1 hin).1)
    rcases hr : s.runHandshake with ⟨v | _ | _, t⟩
    · rw [hr] at hrests
      exact .inl ⟨t, hrests, runHandshake_ok hr, rfl⟩
    · rw [hr] at hrests
      exact .inr hrests
    · rw [hr] at hrests
      exact .inr hrests
  split
  · exact .inr (Keeps.refl s).toRests
  · exact .inr (.fail s (by simp))

theorem writeData_begins (h : s.inFlight = none) (payload : Bytes) :
    (s.writeData payload).2.Carries payload ∧
      (s.writeData payload).2.mismatches = s.mismatches := by
  rcases s.writeData_case payload with ⟨t, hrests, ht, hwrite⟩ | hrests
  · have hfree : t.inFlight = none := hrests.inFlight.elim (·.trans h) (·.1)
    rw [hwrite, ← hrests.mismatches]
    by_cases hp : payload = []
    · subst hp
      have hnothing : t.sendPayload [] = (.ok 0, t) := by simp [sendPayload, hfree]
      rw [hnothing]
      exact ⟨.inl hfree, rfl⟩
    · obtain ⟨es, hes⟩ := sendPayload_resumes ht (.first hfree hp) (Nat.zero_le _)
      exact ⟨hes.carries, hes.mismatches⟩
  · exact ⟨Carries.of_rests (.inl h) hrests, hrests.mismatches⟩

theorem writeData_goesOn {p q : Bytes} {locked : Nat} (h : s.Awaits p locked)
    (hl : locked ≤ p.length) : (s.writeData q).2.Carries p ∧
      (Matches p q → (s.writeData q).2.mismatches = s.mismatches) := by
  have hcarries : s.Carries p := .inr ⟨locked, hl, h⟩
  rcases s.writeData_case q with ⟨t, hrests, ht, hwrite⟩ | hrests
  · have hlive : t.state.live = true := by rw [ht]; rfl
    have hawaits := h.of_rests hrests hlive
    rw [hwrite, ← hrests.mismatches]
    by_cases hq : Matches p q
    · obtain ⟨es, hes⟩ := sendPayload_resumes ht (.inl (hawaits.of_matches hq))
        (by rw [hq.1]; exact hl)
      exact ⟨hes.carries.of_matches hq, fun _ => hes.mismatches⟩
    · rw [sendPayload_refused hawaits hq]
      exact ⟨.inl (fail_inFlight _ _), fun hsame => absurd hsame hq⟩
  · exact ⟨hcarries.of_rests hrests, fun _ => hrests.mismatches⟩

end Session

section Turning

variable [Engine σ ε] [Socket ω] {s t : Session σ ω ε}

/-- To close is to give up the write in flight, and else to do what a read may do. -/
theorem Turn.of_close (h : Turn .close s t) :
    t = { s with inFlight := none } ∨ Turn (.read 0) s t := by
  cases h with
  | step h => exact .inr (.step h)
  | release => exact .inl rfl
  | notify _ h => exact .inr (.notify (.inr ⟨0, rfl⟩) h)
  | withdraw _ h hnext => exact .inr (.withdraw (.inr ⟨0, rfl⟩) h hnext)
  | flush => exact .inr .flush
  | remark n h => exact .inr (.remark n h)
  | fail f h =>
    refine .inr (.fail f fun hf => ?_)
    obtain ⟨payload, hwrite⟩ := h hf
    cases hwrite

theorem Turns.of_close (h : Turns .close s t) :
    (t.inFlight = s.inFlight ∨ t.inFlight = none) ∧ t.mismatches = s.mismatches := by
  induction h with
  | refl => exact ⟨.inl rfl, rfl⟩
  | tail _ hlast ih =>
    obtain ⟨hflight, hcount⟩ := ih
    rcases hlast.of_close with rfl | hturn
    · exact ⟨.inr rfl, hcount⟩
    · have hrests := hturn.rests trivial
      refine ⟨?_, hrests.mismatches.trans hcount⟩
      rcases hrests.inFlight with hsame | ⟨hnone, -⟩
      · rwa [hsame]
      · exact .inr hnone

end Turning

namespace Session

variable [Engine σ ε] [Socket ω] {s t : Session σ ω ε}

/-! ## Every call -/

/-- Only a write begins one, and only a write can be refused for its payload. -/
theorem perform_bystander (s : Session σ ω ε) {c : Call ω} (hc : ∀ payload, c ≠ .write payload) :
    ((s.perform c).2.inFlight = s.inFlight ∨ (s.perform c).2.inFlight = none) ∧
      (s.perform c).2.mismatches = s.mismatches := by
  by_cases hby : c.standsBy
  · have hrests := s.perform_rests hby
    exact ⟨hrests.inFlight.imp id And.left, hrests.mismatches⟩
  · cases c with
    | write payload => exact absurd rfl (hc payload)
    | close =>
      obtain ⟨t, ht, hout⟩ := s.perform_turns .close
      have hclose := ht.of_close
      rw [hout.frame]
      exact hclose
    | _ => exact absurd trivial hby

theorem perform_carries {payload : Bytes} {locked : Nat} (h : s.Awaits payload locked)
    (hl : locked ≤ payload.length) (c : Call ω) : (s.perform c).2.Carries payload := by
  by_cases hc : ∃ q, c = .write q
  · obtain ⟨q, rfl⟩ := hc
    exact (writeData_goesOn h hl).1
  · obtain ⟨hflight, -⟩ := s.perform_bystander fun q hq => hc ⟨q, hq⟩
    rcases hflight with hsame | hnone
    · refine .inr ⟨locked, hl, ?_⟩
      rw [Awaits, hsame]
      exact h
    · exact .inl hnone

/-! ## Every run -/

/-- After these calls a write is in flight, and it began with this payload. -/
inductive Began (s : Session σ ω ε) : List (Call ω) → Bytes → Prop where
  | start {calls : List (Call ω)} {payload : Bytes} (hfree : (s.run calls).2.inFlight = none)
      (h : (s.run (calls ++ [.write payload])).2.inFlight ≠ none) :
      Began s (calls ++ [.write payload]) payload
  | stay {calls : List (Call ω)} {payload : Bytes} (hb : Began s calls payload) (c : Call ω)
      (h : (s.run (calls ++ [c])).2.inFlight ≠ none) : Began s (calls ++ [c]) payload

theorem began_of_inFlight (hs : s.inFlight = none) (calls : List (Call ω))
    (h : (s.run calls).2.inFlight ≠ none) : ∃ payload, Began s calls payload := by
  induction calls using List.reverseRecOn with
  | nil => exact absurd hs h
  | append_singleton calls c ih =>
    by_cases hbefore : (s.run calls).2.inFlight = none
    · by_cases hc : ∃ payload, c = .write payload
      · obtain ⟨payload, rfl⟩ := hc
        exact ⟨payload, .start hbefore h⟩
      · -- Nothing but a write puts one in flight.
        obtain ⟨hflight, -⟩ := (s.run calls).2.perform_bystander fun q hq => hc ⟨q, hq⟩
        rw [hbefore, or_self] at hflight
        rw [run_concat] at h
        exact absurd hflight h
    · obtain ⟨payload, hb⟩ := ih hbefore
      exact ⟨payload, .stay hb c h⟩

/-- The record of a write in flight is that of the payload with which it began. -/
theorem Began.awaits {calls : List (Call ω)} {payload : Bytes} (h : Began s calls payload) :
    ∃ locked ≤ payload.length, (s.run calls).2.Awaits payload locked := by
  -- Each call keeps the record or drops it; that a write is still in flight excludes the latter.
  induction h with
  | @start calls payload hfree h =>
    rw [run_concat] at h ⊢
    exact (writeData_begins hfree payload).1.resolve_left h
  | @stay calls payload _ c h ih =>
    obtain ⟨locked, hl, hawaits⟩ := ih
    rw [run_concat] at h ⊢
    exact (perform_carries hawaits hl c).resolve_left h

/-- Calls that stand by leave the write in flight as it is, or it is given up for good. -/
theorem run_rests (s : Session σ ω ε) {calls : List (Call ω)} (h : ∀ c ∈ calls, c.standsBy) :
    Rests s (s.run calls).2 := by
  induction calls using List.reverseRecOn with
  | nil => exact (Keeps.refl s).toRests
  | append_singleton calls c ih =>
    have hbefore := ih fun d hd => h d (List.mem_append_left _ hd)
    have hlast := (s.run calls).2.perform_rests (h c (by simp))
    rw [run_concat]
    refine ⟨hlast.encryptions.trans hbefore.encryptions,
      hlast.mismatches.trans hbefore.mismatches, ?_⟩
    rcases hlast.inFlight with hsame | hspent
    · rw [hsame]
      exact hbefore.inFlight.imp id fun ⟨hnone, hspent⟩ => ⟨hnone, perform_spent hspent c⟩
    · exact .inr hspent

theorem Began.between {calls : List (Call ω)} {payload : Bytes} (h : Began s calls payload)
    {between : List (Call ω)} (hb : ∀ c ∈ between, c.standsBy) :
    Began s (calls ++ between) payload ∨ (s.run (calls ++ between)).2.Spent := by
  induction between using List.reverseRecOn with
  | nil =>
    rw [List.append_nil]
    exact .inl h
  | append_singleton between c ih =>
    have hbefore := ih fun d hd => hb d (List.mem_append_left _ hd)
    rw [← List.append_assoc]
    rcases hbefore with hbegan | hspent
    · have hlast := (s.run (calls ++ between)).2.perform_rests (hb c (by simp))
      obtain ⟨locked, -, hawaits⟩ := hbegan.awaits
      rcases hlast.inFlight with hsame | ⟨-, hspent⟩
      · refine .inl (.stay hbegan c ?_)
        rw [run_concat, hsame, hawaits]
        simp
      · rw [run_concat]
        exact .inr hspent
    · rw [run_concat]
      exact .inr (perform_spent hspent c)

/-! ## Refusals -/

theorem leads_recorded (h : Leads s t) :
    t.lastFailure = s.lastFailure ∨
      ∃ f, t.lastFailure = some f ∧ t.failures = s.failures ++ [f] := by
  cases h with
  | well h => exact .inl h.clean.lastFailure
  | falls h => exact .inr h.fallen.recorded
  | declined f => exact .inr ⟨f, lastFailure_fail s f, failures_fail s f⟩

omit [Engine σ ε] [Socket ω] in
theorem mismatches_eq (s : Session σ ω ε) (state : SessionState) :
    s.mismatches =
      (s.failures.flatMap fun f => Event.mismatch (.notice (.failed state f))).length := by
  have hone : ∀ e : Event ε, Event.mismatch e =
      e.failure.flatMap fun f => Event.mismatch (.notice (.failed state f)) := by
    intro e
    rcases e with _ | _ | n
    · rfl
    · rfl
    · cases n with
      | failed _ f => cases f <;> rfl
      | _ => rfl
  rw [mismatches, failures, gather, gather, List.flatMap_assoc]
  exact congrArg (fun f => (List.flatMap f s.journal.reverse).length) (funext hone)

theorem leads_refused (h : Leads s t) (ht : t.lastFailure = some .otherPayload)
    (hs : s.lastFailure ≠ some .otherPayload) : t.mismatches ≠ s.mismatches := by
  rcases leads_recorded h with hsame | ⟨f, hlast, hall⟩
  · rw [hsame] at ht
    exact absurd ht hs
  · rw [ht] at hlast
    injection hlast with hf
    rw [mismatches_eq t s.state, hall, mismatches_eq s s.state, List.flatMap_append,
      List.length_append, ← hf]
    exact Nat.succ_ne_self _

theorem perform_refused (hs : s.inFlight = none) (calls : List (Call ω)) (c : Call ω)
    (h : ((s.run calls).2.perform c).2.mismatches ≠ (s.run calls).2.mismatches) :
    ∃ p q, c = .write q ∧ Began s calls p ∧ ¬ Matches p q := by
  by_cases hc : ∃ q, c = .write q
  · obtain ⟨q, rfl⟩ := hc
    have hflight : (s.run calls).2.inFlight ≠ none := fun hnone =>
      h (writeData_begins hnone q).2
    obtain ⟨p, hbegan⟩ := began_of_inFlight hs calls hflight
    obtain ⟨locked, hl, hawaits⟩ := hbegan.awaits
    exact ⟨p, q, rfl, hbegan, fun hq => h ((writeData_goesOn hawaits hl).2 hq)⟩
  · exact absurd ((s.run calls).2.perform_bystander fun q hq => hc ⟨q, hq⟩).2 h

/-! ## The guard -/

/-- What a connected session does with a write while one of a payload is in flight: it goes on with
a payload that matches, and refuses any other without doing anything with it. -/
structure Guards (p : Bytes) (locked : Nat) (s : Session σ ω ε) : Prop where
  goesOn (q : Bytes) (hq : Matches p q) : ∃ es, Resumes q locked s (s.writeData q) es
  refuses (q : Bytes) (hq : ¬ Matches p q) : s.writeData q = (.error (), { s with
    state := .error
    inFlight := none
    lastFailure := some .otherPayload
    journal := .notice (.stateChanged .connected .error) ::
      .notice (.failed .connected .otherPayload) :: s.journal })

theorem Awaits.guards {p : Bytes} {locked : Nat} (h : s.Awaits p locked) (hl : locked ≤ p.length)
    (hs : s.state = .connected) : s.Guards p locked where
  goesOn q hq := by
    rw [writeData, if_pos hs]
    exact sendPayload_resumes hs (.inl (h.of_matches hq)) (by rw [hq.1]; exact hl)
  refuses q hq := by
    rw [writeData, if_pos hs, sendPayload_refused h hq, fail_eq]
    simp [hs]

/-- The calls of a client that connects and writes, over a socket that is not ready to be
written. -/
def pausedCalls : List (Call ScriptedSocket) :=
  [.init (.ofScript [] [.error (.bare .wouldBlock)] []), .connect "localhost", .write [1, 2, 3]]

/-- A client after these calls, whose engine takes two bytes at a time. -/
def pausedClient : Session (ScriptedEngine false) ScriptedSocket String :=
  ((ofEngine ⟨{ promptScript with fragment := 2 }⟩ .client true .default).run pausedCalls).2

end Session
end TlsTransport
