import TlsTransport.Proofs.Session.Gate

/-! # Moments of a session

A session is looked at between any two turns, also in the middle of a call.

* `Passes`, `Follows`: from one moment to the next, and to all later ones.
* `Session.run_follows`: a run leads to a later moment.
* `Grows`: what was added to the journal between two moments.
-/

namespace TlsTransport

variable {σ ω ε α : Type}

namespace Session

/-! ## Later moments -/

section Later

variable [Engine σ ε] [Socket ω]

/-- One moment of a session passes into the next: with a turn of some call, or when a read hands out
plaintext. -/
inductive Passes (s : Session σ ω ε) : Session σ ω ε → Prop where
  | turn {c : Call ω} {t : Session σ ω ε} (h : Turn c s t) : Passes s t
  | handing (rest : Buffer) : Passes s { s with plaintext := rest }

/-- The later moments of a session. -/
def Follows : Session σ ω ε → Session σ ω ε → Prop := Relation.ReflTransGen Passes

theorem Follows.of_turns {c : Call ω} {s t : Session σ ω ε} (h : Turns c s t) : Follows s t := by
  induction h with
  | refl => exact .refl
  | tail _ hlast ih => exact ih.tail (.turn hlast)

theorem perform_follows (s : Session σ ω ε) (c : Call ω) : Follows s (s.perform c).2 := by
  obtain ⟨t, ht, hout⟩ := s.perform_turns c
  rw [hout.frame]
  exact (Follows.of_turns ht).tail (.handing _)

theorem run_follows (s : Session σ ω ε) (calls : List (Call ω)) : Follows s (s.run calls).2 := by
  induction calls generalizing s with
  | nil => exact .refl
  | cons c calls ih => exact (s.perform_follows c).trans (ih _)

end Later
end Session

open Session

theorem Gated.follows [Engine σ ε] [Socket ω] {s t : Session σ ω ε} (h : Gated s)
    (k : Follows s t) : Gated t := by
  induction k with
  | refl => exact h
  | tail _ hlast ih =>
    cases hlast with
    | turn hturn => exact ih.turn hturn
    | handing => exact ih.congr rfl rfl rfl id rfl

/-! ## What was added to the journal -/

/-- All that was added to the journal in between is like this. -/
def Grows (p : Event ε → Prop) (s t : Session σ ω ε) : Prop :=
  ∃ newer, t.journal = newer ++ s.journal ∧ ∀ e ∈ newer, p e

namespace Grows

variable {p q : Event ε → Prop} {s t u : Session σ ω ε}

theorem of_eq (h : t.journal = s.journal) : Grows p s t := ⟨[], h, by simp⟩

theorem trans (h : Grows p s t) (k : Grows p t u) : Grows p s u := by
  obtain ⟨older, holder, hp⟩ := h
  obtain ⟨newer, hnewer, hp'⟩ := k
  refine ⟨newer ++ older, by rw [hnewer, holder, List.append_assoc], fun e he => ?_⟩
  exact (List.mem_append.1 he).elim (hp' e) (hp e)

theorem mono (h : Grows p s t) (hpq : ∀ e, p e → q e) : Grows q s t := by
  obtain ⟨newer, hj, hp⟩ := h
  exact ⟨newer, hj, fun e he => hpq e (hp e he)⟩

theorem one {e : Event ε} (hj : t.journal = e :: s.journal) (he : p e) : Grows p s t :=
  ⟨[e], hj, by simpa using he⟩

theorem sockets {calls : List SocketCall} (h : ∀ call, p (.socket call))
    (hj : t.journal = (calls.map Event.socket).reverse ++ s.journal) : Grows p s t := by
  refine ⟨_, hj, fun e he => ?_⟩
  obtain ⟨call, -, rfl⟩ := List.mem_map.1 (List.mem_reverse.1 he)
  exact h call

theorem gather (f : Event ε → List α) (h : Grows (fun e => f e = []) s t) :
    TlsTransport.gather f t.journal = TlsTransport.gather f s.journal := by
  obtain ⟨newer, hj, hp⟩ := h
  have hnone : TlsTransport.gather f newer = [] := by
    rw [TlsTransport.gather, List.flatMap_eq_nil_iff]
    exact fun e he => hp e (List.mem_reverse.1 he)
  rw [hj, gather_append, hnone, List.append_nil]

theorem latest {f : Event ε → Option α} (default : α) (h : Grows (fun e => f e = none) s t) :
    TlsTransport.latest f default t.journal = TlsTransport.latest f default s.journal := by
  obtain ⟨newer, hj, hp⟩ := h
  rw [hj]
  exact latest_of_none hp default s.journal

theorem silent (h : Silent s t) (hn : ∀ n, p (.notice n)) : Grows p s t := by
  obtain ⟨notices, hj⟩ := h.journal
  refine ⟨_, hj, fun e he => ?_⟩
  obtain ⟨n, -, rfl⟩ := List.mem_map.1 he
  exact hn n

theorem setState (s : Session σ ω ε) {next : SessionState}
    (h : p (.notice (.stateChanged s.state next))) : Grows p s (s.setState next) := by
  rw [setState_eq]
  by_cases hs : s.state = next
  · exact of_eq (if_pos hs)
  · exact one (if_neg hs) h

theorem fail (s : Session σ ω ε) {f : Failure ε} (hf : p (.notice (.failed s.state f)))
    (hs : p (.notice (.stateChanged s.state .error))) : Grows p s (s.fail f) := by
  rw [fail_eq]
  by_cases hover : s.state = .closed ∨ s.state = .error
  · exact one (if_pos hover) hf
  · refine ⟨[.notice (.stateChanged s.state .error), .notice (.failed s.state f)],
      if_neg hover, fun e he => ?_⟩
    rcases List.mem_cons.1 he with rfl | he
    · exact hs
    · rwa [List.mem_singleton.1 he]

/-- Connecting is reported with remarks on the version and on the handshake. -/
theorem connectedAs [Engine σ ε] (s : Session σ ω ε) (v : TlsVersion)
    (hn : ∀ n : Notice ε, n = .insecureVersion v ∨ n = .renegotiated v ∨
      n = .handshakeCompleted v (Engine.cipherSuite s.engine) → p (.notice n))
    (hs : p (.notice (.stateChanged s.state .connected))) : Grows p s (s.connectedAs v) := by
  obtain ⟨remarks, hremarks, h⟩ := s.connectedAs_frame v
  have hp : ∀ e ∈ remarks.map Event.notice, p e := by
    intro e he
    obtain ⟨n, hmem, rfl⟩ := List.mem_map.1 he
    exact hn n (hremarks n hmem)
  rw [h]
  by_cases hconn : s.state = .connected
  · exact ⟨_, if_pos hconn, hp⟩
  · refine ⟨.notice (.stateChanged s.state .connected) :: remarks.map Event.notice,
      if_neg hconn, fun e he => ?_⟩
    rcases List.mem_cons.1 he with rfl | he
    · exact hs
    · exact hp e he

section Moves

variable [Socket ω] (hsock : ∀ call, p (.socket call))
include hsock

theorem flushPending (s : Session σ ω ε) : Grows p s s.flushPending.2 := by
  obtain ⟨k, b, calls, h⟩ := s.flushPending_frame
  rw [h]
  exact sockets hsock rfl

theorem fillRaw (s : Session σ ω ε) (max : Nat) : Grows p s (s.fillRaw max).2 := by
  obtain ⟨k, b, calls, h⟩ := s.fillRaw_frame max
  rw [h]
  exact sockets hsock rfl

theorem flushBestEffort (s : Session σ ω ε) : Grows p s s.flushBestEffort := by
  unfold Session.flushBestEffort
  split
  · exact flushPending hsock s
  · exact of_eq rfl

theorem leave (hstate : ∀ before next, p (.notice (.stateChanged before next)))
    (s : Session σ ω ε) : Grows p s s.leave := by
  have hflush := flushPending hsock s
  unfold Session.leave
  rcases h : s.flushPending with ⟨answer, t⟩
  rw [h] at hflush
  simp only
  split
  · exact hflush.trans (setState t (hstate _ _))
  · exact hflush.trans (setState t (hstate _ _))

end Moves
end Grows
end TlsTransport
