import Mathlib.Data.List.Induction
import TlsTransport.Proofs.Session.Entries
import TlsTransport.Script.Engine
import TlsTransport.Script.Socket

/-! # The gate before a connected session

A session connects from `handshakeDone` only, after every check, and this holds of the first
handshake and of every later one, whichever call drives it.

* `answeredComplete`: whether the engine said that the handshake under way is complete.
* `Gated`: what is known of a session in each state; every turn keeps it.
* `LeftBy`: the call whose host counts; `Named` says that a live client has its host.
* `Entry`: what holds of every turn that connects; `EnteredBy` finds the turns of a run that did.
* `Session.connects_through_gate`: the moments of every call and the session after every run.
-/

namespace TlsTransport

variable {σ ω ε : Type}

/-! ## The answer of the engine -/

/-- Whether the engine called the handshake complete since it was started and since the peer last
asked for a new one. -/
def answeredComplete : List (Event ε) → Bool
  | [] => false
  | .engine (.handshake _ _ (.ok .complete)) :: _ => true
  | .engine (.start _ _) :: _ => false
  | .engine (.decrypt _ _ _ (.ok .renegotiate)) :: _ => false
  | _ :: older => answeredComplete older

theorem answeredComplete_sockets (calls : List SocketCall) (older : List (Event ε)) :
    answeredComplete ((calls.map Event.socket).reverse ++ older) = answeredComplete older := by
  induction calls generalizing older with
  | nil => rfl
  | cons call calls ih =>
    rw [List.map_cons, List.reverse_cons, List.append_assoc, ih]
    rfl

theorem answeredComplete_handshake (n : Nat) (moved : Traffic)
    (progress : HandshakeProgress) (older : List (Event ε)) :
    answeredComplete (.engine (.handshake n moved (.ok progress)) :: older) =
      (answeredComplete older || progress == .complete) := by
  cases progress <;> simp [answeredComplete]

/-! ## What is known in each state -/

/-- In a handshake the session knows what the engine answered, it is done only when nothing is
pending, and a session that was ever connected has a version. -/
structure Gated (s : Session σ ω ε) : Prop where
  answered : s.state.inHandshake = true → s.handshakeComplete = answeredComplete s.journal
  flushed : s.state = .handshakeDone → s.handshakeComplete = true ∧ s.pendingWrite.data = []
  version : s.state = .connected ∨ s.state = .closing ∨ s.state = .closed → s.version.isSome = true

namespace Gated

open Session

variable {s t : Session σ ω ε}

theorem of_unbegun (h : s.state.begun = false) : Gated s := by
  refine ⟨fun hs => ?_, fun hs => ?_, fun hs => ?_⟩
  · rw [SessionState.begun_of_inHandshake hs] at h
    cases h
  · rw [hs] at h
    cases h
  · rcases hs with hs | hs | hs <;> rw [hs] at h <;> cases h

theorem of_error (h : s.state = .error) : Gated s := by
  refine ⟨fun hs => ?_, fun hs => ?_, fun hs => ?_⟩
  · rw [h] at hs
    cases hs
  · rw [h] at hs
    cases hs
  · rcases hs with hs | hs | hs <;> rw [h] at hs <;> cases hs

theorem of_version (h : s.state.inHandshake = false) (hv : s.version.isSome = true) : Gated s := by
  refine ⟨fun hs => ?_, fun hs => ?_, fun _ => hv⟩
  · rw [h] at hs
    cases hs
  · rw [hs] at h
    cases h

theorem of_connected (h : Gated s) (hs : s.state = .connected) (ht : t.state = .connected)
    (hv : t.version = s.version) : Gated t :=
  of_version (by rw [ht]; rfl) (by rw [hv]; exact h.version (.inl hs))

theorem fail (f : Failure ε) (h : s.state = .closed → s.version.isSome = true) :
    Gated (s.fail f) := by
  rcases s.fail_state f with hf | ⟨hf, hs⟩
  · exact of_error hf
  · refine of_version (by rw [hf]; rfl) ?_
    rw [fail_eq]
    exact h hs

/-- Only the flags and the buffer of what is pending matter, and the engine calls. -/
theorem congr (h : Gated s) (hs : t.state = s.state)
    (hc : t.handshakeComplete = s.handshakeComplete)
    (hj : answeredComplete t.journal = answeredComplete s.journal)
    (hp : s.pendingWrite.data = [] → t.pendingWrite.data = []) (hv : t.version = s.version) :
    Gated t where
  answered hin := by
    rw [hc, hj]
    exact h.answered (by rwa [hs] at hin)
  flushed hdone := by
    obtain ⟨hcomplete, hempty⟩ := h.flushed (by rwa [hs] at hdone)
    exact ⟨by rwa [hc], hp hempty⟩
  version hin := by
    rw [hv]
    exact h.version (by rwa [hs] at hin)

/-- Going on with a handshake. -/
theorem enter {next : SessionState} (hnext : next.inHandshake = true)
    (hc : s.handshakeComplete = answeredComplete s.journal)
    (hdone : next = .handshakeDone → s.handshakeComplete = true ∧ s.pendingWrite.data = []) :
    Gated (s.setState next) := by
  rw [setState_eq]
  refine ⟨fun _ => ?_, hdone, fun hv => ?_⟩
  · simp only
    rw [hc]
    split <;> rfl
  · rcases hv with rfl | rfl | rfl <;> cases hnext

theorem next_done {s : Session σ ω ε} (h : s.nextHandshakeState = .handshakeDone) :
    s.handshakeComplete = true ∧ s.pendingWrite.data = [] := by
  unfold nextHandshakeState at h
  cases hp : s.pendingWrite.isEmpty with
  | false => simp [hp] at h
  | true =>
    refine ⟨?_, s.pendingWrite.isEmpty_iff.1 hp⟩
    cases hcomplete : s.handshakeComplete with
    | false => simp [hp, hcomplete] at h
    | true => rfl

section Moves

variable [Socket ω]

theorem flushPending (h : Gated s) : Gated s.flushPending.2 := by
  obtain ⟨k, b, calls, hf⟩ := s.flushPending_frame
  refine h.congr s.state_flushPending ?_ ?_ flushPending_of_empty ?_
  · rw [hf]
  · rw [hf]
    exact answeredComplete_sockets _ _
  · rw [hf]

theorem fillRaw (h : Gated s) (max : Nat) : Gated (s.fillRaw max).2 := by
  obtain ⟨k, b, calls, hf⟩ := s.fillRaw_frame max
  rw [hf]
  exact h.congr rfl rfl (answeredComplete_sockets _ _) id rfl

end Moves

variable [Engine σ ε] [Socket ω]

/-- The engine's part of a handshake, from any session that knows what the engine answered. -/
theorem processHandshake (hs : s.state ≠ .closed)
    (hc : s.handshakeComplete = answeredComplete s.journal) : Gated s.processHandshake.2 := by
  rcases s.processHandshake_cases with ⟨e, -, he⟩ | ⟨progress, t, ha, ht, hu⟩
  · rw [he]
    refine of_error ?_
    rw [state_flushBestEffort]
    exact fail_error _ hs
  · rw [hu]
    refine enter t.inHandshake_nextHandshakeState ?_ next_done
    have hj : s.handshakeOnce.2.journal = .engine (.handshake s.rawRead.size
        ((Engine.handshake s.engine s.rawRead s.pendingWrite).traffic s.rawRead s.pendingWrite)
        s.handshakeOnce.1) :: s.journal := rfl
    rw [ht]
    simp only
    rw [hj, ha, answeredComplete_handshake, hc]

theorem step (h : Gated s) : Gated s.step.2 := by
  generalize hr : s.step = r
  have hcase := s.step_case
  rw [hr] at hcase
  cases hcase with
  | startFailed _ hs =>
    refine fail _ fun hc => ?_
    have hc : s.state = .closed := hc
    rw [hs] at hc
    cases hc
  | started hs =>
    have hne : s.state ≠ .closed := by rw [hs]; simp
    exact processHandshake (s := { s.startEngine.2 with handshakeComplete := false }) hne rfl
  | sent hs ha =>
    have hflush := h.flushPending
    have hwrite : s.flushPending.2.state = .handshakeWrite := by rw [state_flushPending, hs]
    have hcomplete : s.flushPending.2.handshakeComplete = s.handshakeComplete := by
      obtain ⟨k, b, calls, hf⟩ := s.flushPending_frame
      rw [hf]
    refine enter (by split <;> rfl) (hflush.answered (by rw [hwrite]; rfl)) fun hd => ?_
    refine ⟨?_, flushPending_done ha⟩
    rw [hcomplete]
    cases hflag : s.handshakeComplete with
    | true => rfl
    | false => simp [hflag] at hd
  | sendBlocked => exact h.flushPending
  | sendFailed => exact fail _ fun hc => h.flushPending.version (.inr (.inr hc))
  | ended | receiveFailed => exact fail _ fun hc => (h.fillRaw _).version (.inr (.inr hc))
  | arrived _ hs =>
    have hfill := h.fillRaw maxRecordLength
    have hread : (s.fillRaw maxRecordLength).2.state = .handshakeRead := by rw [state_fillRaw, hs]
    exact processHandshake (by rw [hread]; simp) (hfill.answered (by rw [hread]; rfl))
  | waits => exact h.fillRaw _
  | finish hs =>
    rcases s.finishHandshake_cases with ⟨-, f, -, hf⟩ | ⟨hc, v, hv, he⟩
    · rw [hf]
      exact fail f fun hc => h.version (.inr (.inr hc))
    · obtain ⟨remarks, -, hframe⟩ := s.connectedAs_frame v
      rw [he, hframe]
      exact of_version rfl rfl
  | agreed => exact h
  | refused => exact fail _ fun hc => h.version (.inr (.inr hc))

theorem turn {c : Call ω} (h : Gated s) (ht : Turn c s t) : Gated t := by
  cases ht with
  | bind => exact of_unbegun (by rw [state_setState]; rfl)
  | nameServer | nameHost | outside => exact h.congr rfl rfl rfl id rfl
  | step => exact h.step
  | decrypt hs | sawEnd hs | sawClose hs | encrypt _ hs | track _ hs | release hs | notify _ hs =>
    exact h.of_connected hs hs rfl
  | reopen _ ha =>
    have hj : answeredComplete s.decryptOnce.2.journal = false := by
      have hcall : s.decryptOnce.2.journal = .engine (.decrypt s.rawRead.size s.plaintext.size
        ((Engine.decrypt s.engine s.rawRead s.pendingWrite s.plaintext).traffic s.rawRead
          s.pendingWrite s.plaintext) s.decryptOnce.1) :: s.journal := rfl
      rw [hcall, ha]
      rfl
    unfold reopen
    exact enter rfl hj.symm (by simp)
  | overrun hs =>
    refine fail _ fun hc => ?_
    have hc : s.state = .closed := hc
    rw [hs] at hc
    cases hc
  | resume hs => exact processHandshake (by rw [hs]; simp) (h.answered (by rw [hs]; rfl))
  | fill => exact h.fillRaw _
  | withdraw _ hs hnext =>
    have hv := h.version (hs.elim .inl fun hs => .inr (.inl hs))
    rw [setState_eq]
    rcases hnext with rfl | rfl <;> exact of_version rfl hv
  | flush => exact h.flushPending
  | remark => exact h.congr rfl rfl rfl id rfl
  | fail f => exact fail f fun hc => h.version (.inr (.inr hc))

theorem turns {c : Call ω} (h : Gated s) (ht : Turns c s t) : Gated t := by
  induction ht with
  | refl => exact h
  | tail _ hlast ih => exact ih.turn hlast

theorem perform (h : Gated s) (c : Call ω) : Gated (s.perform c).2 := by
  obtain ⟨t, ht, hout⟩ := s.perform_turns c
  rw [hout.frame]
  exact (h.turns ht).congr rfl rfl rfl id rfl

theorem run (h : Gated s) (calls : List (Call ω)) : Gated (s.run calls).2 := by
  induction calls generalizing s with
  | nil => exact h
  | cons c calls ih => exact ih (h.perform c)

end Gated

namespace Session

variable [Engine σ ε] [Socket ω]

/-! ## The host that counts -/

/-- A call with this host made the session leave `initialized`. -/
def LeftBy (fresh : Session σ ω ε) (calls : List (Call ω)) (host : String) : Prop :=
  ∃ before after, calls = before ++ .connect host :: after ∧
    (fresh.run before).2.state = .initialized ∧
    (fresh.run (before ++ [.connect host])).2.state ≠ .initialized

theorem perform_begun {s : Session σ ω ε} (h : s.state.begun = true) (c : Call ω) :
    (s.perform c).2.state.begun = true := by
  obtain ⟨t, ht, hout⟩ := s.perform_turns c
  rw [hout.frame]
  exact ht.begun h

theorem run_begun {s : Session σ ω ε} (h : s.state.begun = true) (calls : List (Call ω)) :
    (s.run calls).2.state.begun = true := by
  induction calls generalizing s with
  | nil => exact h
  | cons c calls ih => exact ih (perform_begun h c)

/-- What comes after a call that left `initialized` is not `initialized`. -/
theorem not_initialized_after {fresh : Session σ ω ε} {before longer : List (Call ω)}
    {host : String} (h : (fresh.run before).2.state = .initialized)
    (hlonger : before ++ [.connect host] <+: longer) :
    (fresh.run longer).2.state ≠ .initialized := by
  obtain ⟨after, rfl⟩ := hlonger
  have hleft : (fresh.run (before ++ [.connect host])).2.state.begun = true := by
    rw [run_concat]
    exact connect_begun h host
  rw [run_append]
  intro hc
  have hlate := run_begun hleft after
  rw [hc] at hlate
  cases hlate

theorem LeftBy.unique {fresh : Session σ ω ε} {calls : List (Call ω)} {host other : String}
    (h : LeftBy fresh calls host) (k : LeftBy fresh calls other) : other = host := by
  obtain ⟨b₁, a₁, h₁, hi₁, -⟩ := h
  obtain ⟨b₂, a₂, h₂, hi₂, -⟩ := k
  have hp₁ : b₁ ++ [.connect host] <+: calls := ⟨a₁, by simp [h₁]⟩
  have hp₂ : b₂ ++ [.connect other] <+: calls := ⟨a₂, by simp [h₂]⟩
  have hq₁ : b₁ <+: calls := ⟨_, h₁.symm⟩
  have hq₂ : b₂ <+: calls := ⟨_, h₂.symm⟩
  have hlen : b₁.length = b₂.length := by
    rcases Nat.lt_trichotomy b₁.length b₂.length with hlt | heq | hgt
    · have hpre := List.prefix_of_prefix_length_le hp₁ hq₂ (by simpa using Nat.succ_le_of_lt hlt)
      exact absurd hi₂ (not_initialized_after hi₁ hpre)
    · exact heq
    · have hpre := List.prefix_of_prefix_length_le hp₂ hq₁ (by simpa using Nat.succ_le_of_lt hgt)
      exact absurd hi₁ (not_initialized_after hi₂ hpre)
  obtain ⟨-, htail⟩ := List.append_inj (h₁.symm.trans h₂) hlen
  injection htail with hcall
  injection hcall with hcall
  exact hcall.symm

theorem LeftBy.append {fresh : Session σ ω ε} {calls : List (Call ω)} {host : String}
    (h : LeftBy fresh calls host) (later : List (Call ω)) : LeftBy fresh (calls ++ later) host := by
  obtain ⟨before, after, hcalls, hi, hleft⟩ := h
  exact ⟨before, after ++ later, by simp [hcalls], hi, hleft⟩

/-- At the end of a run: no host before the first handshake call, and a live client has the host of
the call that left `initialized`. -/
structure Named (fresh : Session σ ω ε) (calls : List (Call ω)) (s : Session σ ω ε) : Prop where
  unnamed : s.state.begun = false → s.hostname = none
  named : s.side = .client → s.state.live = true →
    ∃ host, s.hostname = some host ∧ LeftBy fresh calls host

/-- During a call the host can be that of the call itself. -/
structure Naming (fresh : Session σ ω ε) (calls : List (Call ω)) (c : Call ω)
    (x : Session σ ω ε) : Prop where
  unnamed : x.state.begun = false → x.hostname = none ∨ ∃ host, c = .connect host ∧
    x.hostname = some host ∧ (fresh.run calls).2.state = .initialized
  named : x.side = .client → x.state.live = true →
    ∃ host, x.hostname = some host ∧ LeftBy fresh (calls ++ [c]) host
  origin : x.state = .initialized → (fresh.run calls).2.state = .initialized ∨ ∃ k, c = .init k

theorem Naming.turn {fresh : Session σ ω ε} {calls : List (Call ω)} {c : Call ω}
    {x y : Session σ ω ε} (h : Naming fresh calls c x) (ht : Turn c x y) :
    Naming fresh calls c y where
  unnamed hy := by
    rcases ht.unbegun hy with hsame | ⟨host, hc, hname, hx⟩
    · have hx : x.state.begun = false := by
        cases hb : x.state.begun with
        | false => rfl
        | true => rwa [ht.begun hb] at hy
      rw [hsame]
      exact h.unnamed hx
    · rcases h.origin hx with hi | ⟨k, hk⟩
      · exact .inr ⟨host, hc, hname, hi⟩
      · rw [hc] at hk
        cases hk
  named hside hlive := by
    obtain ⟨hsame, hx⟩ := ht.live hlive
    have hside : x.side = .client := ht.terms.side ▸ hside
    rw [hsame]
    rcases hx with hx | ⟨hx, hguard⟩
    · exact h.named hside hx
    · rcases h.unnamed (by rw [hx]; rfl) with hnone | ⟨host, hc, hname, hi⟩
      · exact absurd hnone (hguard hside)
      · subst hc
        refine ⟨host, hname, calls, [], rfl, hi, fun hlate => ?_⟩
        rw [run_concat] at hlate
        have hleft : ((fresh.run calls).2.perform (.connect host)).2.state.begun = true :=
          connect_begun hi host
        rw [hlate] at hleft
        cases hleft
  origin hy := by
    rcases ht.initialized hy with hx | hk
    · exact h.origin hx
    · exact .inr hk

theorem Named.turns {fresh : Session σ ω ε} {calls : List (Call ω)} {c : Call ω}
    {x : Session σ ω ε} (h : Named fresh calls (fresh.run calls).2)
    (hx : Turns c (fresh.run calls).2 x) : Naming fresh calls c x := by
  induction hx with
  | refl =>
    refine ⟨fun hs => .inl (h.unnamed hs), fun hside hlive => ?_, .inl⟩
    obtain ⟨host, hname, hleft⟩ := h.named hside hlive
    exact ⟨host, hname, hleft.append [c]⟩
  | tail _ hlast ih => exact ih.turn hlast

theorem Named.perform {fresh : Session σ ω ε} {calls : List (Call ω)} (c : Call ω)
    (h : Named fresh calls (fresh.run calls).2) :
    Named fresh (calls ++ [c]) (fresh.run (calls ++ [c])).2 := by
  rw [run_concat]
  obtain ⟨t, ht, hout⟩ := (fresh.run calls).2.perform_turns c
  have hnaming := h.turns ht
  refine ⟨fun hs => ?_, ?_⟩
  · have hstate : t.state.begun = false := by rwa [hout.frame] at hs
    rcases hnaming.unnamed hstate with hnone | ⟨host, hc, -, hi⟩
    · rw [hout.frame]
      exact hnone
    · subst hc
      have hleft : ((fresh.run calls).2.perform (.connect host)).2.state.begun = true :=
        connect_begun hi host
      rw [hs] at hleft
      cases hleft
  · rw [hout.frame]
    exact hnaming.named

theorem Named.run (engine : σ) (side : Side) (verifyPeer : Bool) (policy : CipherPolicy)
    (calls : List (Call ω)) : Named (ofEngine engine side verifyPeer policy : Session σ ω ε) calls
      ((ofEngine engine side verifyPeer policy : Session σ ω ε).run calls).2 := by
  induction calls using List.reverseRecOn with
  | nil => exact ⟨fun _ => rfl, fun _ hlive => by cases hlive⟩
  | append_singleton calls c ih => exact ih.perform c

/-! ## Entering -/

/-- What holds when a turn connects a session that was made as `fresh` and saw these calls. -/
structure Entry (fresh : Session σ ω ε) (calls : List (Call ω)) (x y : Session σ ω ε) : Prop where
  origin : x.state = .handshakeDone
  connected : y.state = .connected
  counted : y.entries = x.entries ++ [.handshakeDone]
  /-- It is the end of a handshake, in `finishHandshake`. -/
  finished : y = x.finishHandshake.2
  answered : answeredComplete x.journal = true
  flushed : y.pendingWrite.data = []
  version : y.version = Engine.version y.engine ∧ y.version.isSome = true
  suite : ∀ suite, Engine.cipherSuite y.engine = some suite → fresh.policy.allows suite = true
  identity : fresh.side = .client → fresh.verifyPeer = true → Engine.verifiesHostname σ = false →
    ∃ identity host, Engine.peerIdentity y.engine = some identity ∧
      identity.covers host = true ∧ LeftBy fresh calls host ∧
      ∀ other, LeftBy fresh calls other → other = host

theorem run_terms (s : Session σ ω ε) (calls : List (Call ω)) : SameTerms s (s.run calls).2 := by
  induction calls generalizing s with
  | nil => exact ⟨rfl, rfl, rfl⟩
  | cons c calls ih =>
    obtain ⟨t, ht, hout⟩ := s.perform_turns c
    have hcall : SameTerms t (s.perform c).2 := by
      rw [hout.frame]
      exact ⟨rfl, rfl, rfl⟩
    exact ht.terms.trans (hcall.trans (ih _))

/-- A session that connected from `handshakeDone` only. -/
def EnteredDone (s : Session σ ω ε) : Prop := ∀ before ∈ s.entries, before = .handshakeDone

theorem EnteredDone.turns {c : Call ω} {s t : Session σ ω ε} (h : EnteredDone s)
    (ht : Turns c s t) : EnteredDone t := by
  induction ht with
  | refl => exact h
  | tail _ hlast ih =>
    rcases hlast.entries with ⟨hsame, -⟩ | ⟨hdone, -, v, -, rfl⟩
    · intro before hb
      rw [hsame] at hb
      exact ih before hb
    · intro before hb
      rw [entries_connectedAs _ v (by rw [hdone]; simp), hdone] at hb
      rcases List.mem_append.1 hb with hb | hb
      · exact ih before hb
      · exact List.mem_singleton.1 hb

theorem run_entries (s : Session σ ω ε) (calls : List (Call ω)) (h : EnteredDone s) :
    EnteredDone (s.run calls).2 := by
  induction calls generalizing s with
  | nil => exact h
  | cons c calls ih =>
    obtain ⟨t, ht, hout⟩ := s.perform_turns c
    have hend := h.turns ht
    refine ih (s.perform c).2 ?_
    rw [hout.frame]
    exact hend

/-- A finished handshake that passes the check connects, any other one fails. -/
theorem step_done {x : Session σ ω ε} (h : x.state = .handshakeDone) :
    (x.Cleared ∧ ∃ v, Engine.version x.engine = some v ∧
      x.step = (.yield (.ok v), x.connectedAs v)) ∨
    (¬ x.Cleared ∧ x.step.1 = .yield (.error ()) ∧ x.step.2.state = .error) := by
  have hstep : x.step = x.finishHandshake := by simp only [step, h]
  rw [hstep]
  rcases x.finishHandshake_cases with ⟨hno, f, -, hf⟩ | ⟨hc, v, hv, he⟩
  · rw [hf]
    exact .inr ⟨hno, rfl, fail_error f (by rw [h]; simp)⟩
  · exact .inl ⟨hc, v, hv, he⟩

/-- A session that knows what the engine answered and whose host it has enters when its finished
handshake passes the check. -/
theorem Entry.of_cleared {fresh x : Session σ ω ε} {calls : List (Call ω)} {c : Call ω}
    {v : TlsVersion} (hgated : Gated x) (hnaming : Naming fresh calls c x)
    (hterms : SameTerms fresh x) (hdone : x.state = .handshakeDone) (hc : x.Cleared)
    (hv : Engine.version x.engine = some v) :
    Entry fresh (calls ++ [c]) x (x.connectedAs v) := by
  obtain ⟨hcomplete, hempty⟩ := hgated.flushed hdone
  have hanswer := hgated.answered (by rw [hdone]; rfl)
  have hfinish : x.finishHandshake.2 = x.connectedAs v := by
    rcases x.finishHandshake_cases with ⟨hno, -⟩ | ⟨-, w, hw, he⟩
    · exact absurd hc hno
    · rw [hv] at hw
      rw [he, Option.some.inj hw]
  have hcount := entries_connectedAs x v (by rw [hdone]; simp)
  obtain ⟨remarks, -, hframe⟩ := x.connectedAs_frame v
  refine
    { origin := hdone
      connected := by rw [hframe]
      counted := by rw [hcount, hdone]
      finished := hfinish.symm
      answered := by rw [← hanswer, hcomplete]
      flushed := by rw [hframe]; exact hempty
      version := by rw [hframe]; exact ⟨hv.symm, rfl⟩
      suite := fun suite hsuite => ?_
      identity := fun hside hverify hleaves => ?_ }
  · rw [hframe] at hsuite
    have hallowed := hc.suite suite hsuite
    rwa [hterms.policy] at hallowed
  · have hclient : x.side = .client := hterms.side.trans hside
    obtain ⟨host, hname, hleft⟩ := hnaming.named hclient (by rw [hdone]; rfl)
    obtain ⟨identity, hpeer, hcovers⟩ :=
      hc.identity hclient (hterms.verifyPeer.trans hverify) hleaves
    refine ⟨identity, host, ?_, ?_, hleft, fun other hother => hleft.unique hother⟩
    · rw [hframe]
      exact hpeer
    · rwa [hname] at hcovers

/-- A turn of any call, after any calls, enters nothing or is an `Entry`. -/
def Guarded (fresh : Session σ ω ε) : Prop :=
  ∀ (calls : List (Call ω)) (c : Call ω) (x y : Session σ ω ε), Turns c (fresh.run calls).2 x →
    Turn c x y → (y.entries = x.entries ∧ (y.state = .connected → x.state = .connected)) ∨
      Entry fresh (calls ++ [c]) x y

theorem guarded_ofEngine (engine : σ) (side : Side) (verifyPeer : Bool) (policy : CipherPolicy) :
    Guarded (ofEngine engine side verifyPeer policy : Session σ ω ε) := by
  intro calls c x y hx hy
  rcases hy.entries with hnone | ⟨hdone, hc, v, hv, rfl⟩
  · exact .inl hnone
  · have hgated : Gated x := (Gated.of_unbegun rfl).run calls |>.turns hx
    have hnaming := (Named.run engine side verifyPeer policy calls).turns hx
    have hterms := (run_terms (ofEngine engine side verifyPeer policy) calls).trans hx.terms
    exact .inr (.of_cleared hgated hnaming hterms hdone hc hv)

/-! ## Every entry of a run -/

/-- A session that is connected has entered. -/
def HasEntered (s : Session σ ω ε) : Prop := s.state = .connected → s.entries ≠ []

/-- The entry of this number, counted from zero, was made on the way of one of the calls, by a turn
that is an `Entry`. -/
def EnteredBy (fresh : Session σ ω ε) (calls : List (Call ω)) (k : Nat) : Prop :=
  ∃ before c after x y z, calls = before ++ c :: after ∧
    Turns c (fresh.run before).2 x ∧ Turn c x y ∧ Turns c y z ∧
    HandsOut z ((fresh.run before).2.perform c) ∧
    x.entries.length = k ∧ Entry fresh (before ++ [c]) x y

theorem EnteredBy.append {fresh : Session σ ω ε} {calls : List (Call ω)} {k : Nat}
    (h : EnteredBy fresh calls k) (later : List (Call ω)) : EnteredBy fresh (calls ++ later) k := by
  obtain ⟨before, c, after, x, y, z, hcalls, hrest⟩ := h
  exact ⟨before, c, after ++ later, x, y, z, by simp [hcalls], hrest⟩

namespace Guarded

variable {fresh t : Session σ ω ε} {calls : List (Call ω)} {c : Call ω}

theorem hasEntered_turns (h : Guarded fresh) (hs : HasEntered (fresh.run calls).2)
    (ht : Turns c (fresh.run calls).2 t) : HasEntered t := by
  induction ht with
  | refl => exact hs
  | tail hx hy ih =>
    intro hconnected
    rcases h calls c _ _ hx hy with ⟨hsame, hbefore⟩ | hentry
    · rw [hsame]
      exact ih (hbefore hconnected)
    · rw [hentry.counted]
      simp

theorem hasEntered_run (h : Guarded fresh) (hs : HasEntered fresh) (calls : List (Call ω)) :
    HasEntered (fresh.run calls).2 := by
  induction calls using List.reverseRecOn with
  | nil => exact hs
  | append_singleton calls c ih =>
    obtain ⟨t, ht, hout⟩ := (fresh.run calls).2.perform_turns c
    have hend := h.hasEntered_turns ih ht
    rw [run_concat, hout.frame]
    exact hend

/-- An entry that a chain of turns adds is one of its turns. -/
theorem turns_entered (h : Guarded fresh) (ht : Turns c (fresh.run calls).2 t) {k : Nat}
    (hlow : (fresh.run calls).2.entries.length ≤ k) (hhigh : k < t.entries.length) :
    ∃ x y, Turns c (fresh.run calls).2 x ∧ Turn c x y ∧ Turns c y t ∧ x.entries.length = k ∧
      Entry fresh (calls ++ [c]) x y := by
  -- The entry was there before the last turn of the chain, or that turn made it.
  induction ht with
  | refl => omega
  | @tail x y hx hy ih =>
    by_cases hk : k < x.entries.length
    · obtain ⟨a, b, ha, hb, hto, hcount, hentry⟩ := ih hk
      exact ⟨a, b, ha, hb, hto.tail hy, hcount, hentry⟩
    · rcases h calls c x y hx hy with ⟨hsame, -⟩ | hentry
      · rw [hsame] at hhigh
        exact absurd hhigh hk
      · refine ⟨x, y, hx, hy, .refl, ?_, hentry⟩
        rw [hentry.counted, List.length_append, List.length_singleton] at hhigh
        omega

theorem run_entered (h : Guarded fresh) (hnone : fresh.entries = []) (calls : List (Call ω)) :
    ∀ k < (fresh.run calls).2.entries.length, EnteredBy fresh calls k := by
  induction calls using List.reverseRecOn with
  | nil =>
    intro k hk
    have hk : k < fresh.entries.length := hk
    rw [hnone] at hk
    exact absurd hk (by simp)
  | append_singleton calls c ih =>
    intro k hk
    obtain ⟨t, ht, hout⟩ := (fresh.run calls).2.perform_turns c
    rw [run_concat, hout.frame] at hk
    have hk : k < t.entries.length := hk
    by_cases hearlier : k < (fresh.run calls).2.entries.length
    · exact (ih k hearlier).append [c]
    · obtain ⟨x, y, hx, hy, hto, hcount, hentry⟩ := h.turns_entered ht (by omega) hk
      exact ⟨calls, c, [], x, y, t, rfl, hx, hy, hto, hout, hcount, hentry⟩

end Guarded

/-- Whatever calls were made, and at every moment of the next one: a session that is connected or
was has a version; it connected from `handshakeDone` only; a finished handshake connects if it
passes the check and fails if it does not; and every turn that connects is such an entry. By
`perform_turns` these are the moments of every call, so the session that the calls leave behind has
a version if it is connected or was, has entered if it is connected, and each time it entered was an
`Entry` on the way of one of the calls. -/
theorem connects_through_gate (engine : σ) (side : Side) (verifyPeer : Bool) (policy : CipherPolicy)
    (calls : List (Call ω)) :
    let fresh : Session σ ω ε := ofEngine engine side verifyPeer policy
    let s := (fresh.run calls).2
    (∀ (c : Call ω) (x : Session σ ω ε), Turns c s x →
      (x.state = .connected ∨ x.state = .closing ∨ x.state = .closed → x.version.isSome = true) ∧
      EnteredDone x ∧
      (x.state = .handshakeDone →
        (x.Cleared ∧ x.step.2.state = .connected) ∨ (¬ x.Cleared ∧ x.step.2.state = .error)) ∧
      ∀ y, Turn c x y →
        (y.entries = x.entries ∧ (y.state = .connected → x.state = .connected)) ∨
        Entry fresh (calls ++ [c]) x y) ∧
    (∀ c, ∃ x, Turns c s x ∧ HandsOut x (s.perform c)) ∧
    (s.state = .connected ∨ s.state = .closing ∨ s.state = .closed → s.version.isSome = true) ∧
    (s.state = .connected → s.entries ≠ []) ∧
    ∀ k < s.entries.length, EnteredBy fresh calls k := by
  intro fresh s
  have hgated : Gated s := (Gated.of_unbegun rfl).run calls
  have hdone : EnteredDone s := run_entries fresh calls fun _ hb => by cases hb
  have hguarded : Guarded fresh := guarded_ofEngine engine side verifyPeer policy
  refine ⟨fun c x hx => ⟨(hgated.turns hx).version, hdone.turns hx, fun hstate => ?_,
    fun y => hguarded calls c x y hx⟩, s.perform_turns, hgated.version,
    hguarded.hasEntered_run (fun hstate => by cases hstate) calls, hguarded.run_entered rfl calls⟩
  rcases step_done hstate with ⟨hc, v, -, hs⟩ | ⟨hno, -, hs⟩
  · refine .inl ⟨hc, ?_⟩
    rw [hs, connectedAs, state_setState]
  · exact .inr ⟨hno, hs⟩

/-- A script whose handshake completes at once, for a server named `localhost`. -/
def promptScript : EngineScript where
  fragment := 16
  version := some .tls13
  cipher := some "TLS_AES_128_GCM_SHA256"
  identity := some ⟨["localhost"], [], none⟩
  certificates := []
  starts := []
  handshakes := []
  encryptions := []
  decryptions := []
  closes := []

/-- A client that verifies its peer, bound to a socket and given its host. -/
def promptClient : Session (ScriptedEngine false) ScriptedSocket String :=
  { ((ofEngine ⟨promptScript⟩ .client true .default).run [.init (.ofScript [] [] [])]).2 with
    hostname := some "localhost" }

/-- The step with which the prompt client connects is an entry. -/
theorem promptClient_enters : Entry
    (ofEngine ⟨promptScript⟩ .client true .default :
      Session (ScriptedEngine false) ScriptedSocket String)
    [.init (.ofScript [] [] []), .connect "localhost"] promptClient.step.2
    promptClient.step.2.step.2 := by
  have hx : Turns (.connect "localhost") ((ofEngine ⟨promptScript⟩ .client true .default :
      Session (ScriptedEngine false) ScriptedSocket String).run [.init (.ofScript [] [] [])]).2
      promptClient.step.2 :=
    .head (.nameHost "localhost" rfl rfl rfl) (.single (.step (.inr ⟨rfl, by simp⟩)))
  obtain ⟨hmoments, -⟩ := connects_through_gate (ε := String)
    (⟨promptScript⟩ : ScriptedEngine false) .client true .default
    [.init (ScriptedSocket.ofScript [] [] [])]
  obtain ⟨-, -, -, hturns⟩ := hmoments _ _ hx
  rcases hturns promptClient.step.2.step.2 (.step (.inl rfl)) with ⟨-, hc⟩ | hentry
  · exact absurd (hc (by decide)) (by decide)
  · exact hentry

end Session
end TlsTransport
