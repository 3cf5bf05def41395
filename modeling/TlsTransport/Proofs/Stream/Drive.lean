import TlsTransport.Proofs.Session.Entries
import TlsTransport.Proofs.Stream.Feed
import TlsTransport.Proofs.Tagged.Cutting

/-! # Driving a session until its input is used up

The owner of a session calls its handshake until it does not have to wait, and then reads until no
more comes. Both loops end: a call that has to wait, or that hands out bytes, has used up input,
unless the socket was dry.

* `Spends`: no turn adds to what a session can still read or hand out.
* `Session.openUp`, `Session.readOut`: the two loops.
* `Session.drive`: both, from a session that is bound to its socket.
-/

namespace TlsTransport

/-- A session of the tagged-record protocol over a stream that is given in pieces. -/
abbrev FedSession := Session Tagged.Engine Feed Tagged.Fault

namespace Session

/-- What is left for calls to use up. A byte that was not read counts twice, since it is first read
and then handed out. -/
def load (s : FedSession) : Nat := 2 * s.supply + s.rawRead.size + s.plaintext.size

/-- The socket of a session that is bound. -/
def feed (s : FedSession) : Feed := s.socket.getD ⟨[], false, []⟩

/-- Whether the socket has nothing more to say. -/
def isDry (s : FedSession) : Bool := s.feed.isDry

variable {s : FedSession} {k : Feed}

theorem feed_of (hk : s.socket = some k) : s.feed = k := by rw [feed, hk, Option.getD_some]

theorem bound_of (h : s.socket.isSome = true) : s.socket = some s.feed := by
  obtain ⟨k, hk⟩ := Option.isSome_iff_exists.1 h
  rw [feed_of hk, hk]

end Session

open Session

/-- Nothing was added to what can be used up, and the socket goes on where it was. -/
structure Spends (s t : FedSession) : Prop where
  load : t.load ≤ s.load
  bound : t.socket.isSome = s.socket.isSome
  ended : t.feed.ended = s.feed.ended
  spent : s.feed.pieces = [] → t.feed.pieces = []

namespace Spends

variable {s t u : FedSession}

theorem refl (s : FedSession) : Spends s s := ⟨Nat.le_refl _, rfl, rfl, id⟩

theorem trans (h : Spends s t) (k : Spends t u) : Spends s u :=
  ⟨Nat.le_trans k.load h.load, k.bound.trans h.bound, k.ended.trans h.ended, k.spent ∘ h.spent⟩

theorem dry (h : Spends s t) (hdry : s.isDry = true) : t.isDry = true := by
  obtain ⟨hspent, hopen⟩ := Feed.isDry_iff.1 hdry
  exact Feed.isDry_iff.2 ⟨h.spent hspent, h.ended.trans hopen⟩

/-- What was used up, or a dry socket, at the end of a chain. -/
theorem waits (h : Spends s t) (k : u.load < t.load ∨ u.isDry = true) :
    u.load < s.load ∨ u.isDry = true :=
  k.imp_left (Nat.lt_of_lt_of_le · h.load)

theorem since (h : t.load < s.load ∨ t.isDry = true) (k : Spends t u) :
    u.load < s.load ∨ u.isDry = true :=
  h.imp (Nat.lt_of_le_of_lt k.load) k.dry

theorem of_eq (hk : t.socket = s.socket) (hr : t.rawRead = s.rawRead)
    (hp : t.plaintext = s.plaintext) : Spends s t := by
  have hfeed : t.feed = s.feed := by rw [feed, feed, hk]
  refine ⟨Nat.le_of_eq ?_, by rw [hk], by rw [hfeed], by rw [hfeed]; exact id⟩
  rw [Session.load, Session.load, supply, supply, hk, hr, hp]

theorem setState (s : FedSession) (next : SessionState) : Spends s (s.setState next) := by
  rw [setState_eq]
  exact of_eq rfl rfl rfl

theorem fail (s : FedSession) (f : Failure Tagged.Fault) : Spends s (s.fail f) := by
  rw [fail_eq]
  exact of_eq rfl rfl rfl

theorem reopen (s : FedSession) : Spends s s.reopen := by
  rw [reopen_eq]
  exact of_eq rfl rfl rfl

theorem connectedAs (s : FedSession) (v : TlsVersion) : Spends s (s.connectedAs v) := by
  obtain ⟨remarks, -, h⟩ := s.connectedAs_frame v
  rw [h]
  exact of_eq rfl rfl rfl

end Spends

/-! ## Moving bytes -/

namespace Session

variable {s : FedSession} {k : Feed}

theorem flushPending_fed (hk : s.socket = some k) : ∃ b j, s.flushPending = (.ok true, { s with
    socket := some { k with taken := k.taken ++ s.pendingWrite.data }
    pendingWrite := b
    journal := j }) ∧ b.data = [] := by
  obtain ⟨ha, hd, hsocket⟩ := Feed.drain_spec s.pendingWrite k
  refine ⟨(drain s.pendingWrite k).buffer,
    ((drain s.pendingWrite k).calls.map Event.socket).reverse ++ s.journal, ?_, hd⟩
  simp only [flushPending, hk, ha, hsocket]
  rfl

theorem maxRecordLength_pos : 0 < maxRecordLength := by decide

theorem fillRaw_fed (hk : s.socket = some k) {max : Nat} (hmax : 0 < max) :
    ∃ (f : Filling Feed) (j : List (Event Tagged.Fault)), s.fillRaw max = (f.answer, { s with
      socket := some f.socket
      rawRead := f.buffer
      journal := j }) ∧ Feed.Filled s.rawRead k f ∧ Feed.Ending s.rawRead k f := by
  obtain ⟨hfilled, hending⟩ := Feed.fill_spec s.rawRead k hmax
  refine ⟨fill s.rawRead k max,
    ((fill s.rawRead k max).calls.map Event.socket).reverse ++ s.journal, ?_, hfilled, hending⟩
  simp only [fillRaw, hk]
  rfl

end Session

namespace Spends

theorem flushPending (s : FedSession) : Spends s s.flushPending.2 := by
  cases hk : s.socket with
  | none =>
    have hf : s.flushPending.2 = s := by simp only [Session.flushPending, hk]
    rw [hf]
    exact refl s
  | some k =>
    obtain ⟨b, j, hf, -⟩ := flushPending_fed hk
    have hfeed := feed_of hk
    rw [hf]
    refine ⟨Nat.le_of_eq ?_, by rw [hk]; rfl, by rw [hfeed]; rfl, by rw [hfeed]; exact id⟩
    simp only [Session.load, supply, hk]
    rfl

theorem flushBestEffort (s : FedSession) : Spends s s.flushBestEffort := by
  unfold Session.flushBestEffort
  split
  · exact flushPending s
  · exact refl s

/-- Reading once uses something up, unless it met the end of the stream or a dry socket. -/
theorem fillRaw (s : FedSession) {max : Nat} (hmax : 0 < max) : Spends s (s.fillRaw max).2 ∧
    ((s.fillRaw max).1 ≠ .ok [] → (s.fillRaw max).2.load < s.load ∨
      (s.fillRaw max).2.isDry = true) := by
  cases hk : s.socket with
  | none =>
    have hf : (s.fillRaw max).2 = s := by simp only [Session.fillRaw, hk]
    rw [hf]
    exact ⟨refl s, fun _ => .inr (by simp only [isDry, feed, hk]; rfl)⟩
  | some k =>
    obtain ⟨f, j, hf, hfilled, hending⟩ := fillRaw_fed hk hmax
    have hload : s.load = 2 * k.supply + s.rawRead.size + s.plaintext.size := by
      simp only [Session.load, supply, hk]
      rfl
    have hafter : (s.fillRaw max).2.load =
        2 * f.socket.supply + f.buffer.size + s.plaintext.size := by
      rw [hf]
      rfl
    have hfeed : (s.fillRaw max).2.feed = f.socket := by
      rw [hf]
      rfl
    have hanswer : (s.fillRaw max).1 = f.answer := by rw [hf]
    refine ⟨⟨?_, ?_, ?_, ?_⟩, fun hne => ?_⟩
    · rw [hload, hafter]
      exact Nat.add_le_add_right hfilled.weight _
    · rw [hf, hk]
      rfl
    · rw [hfeed, feed_of hk, hfilled.ended]
    · rw [hfeed, feed_of hk]
      exact hfilled.spent
    · rw [hload, hafter, isDry, hfeed]
      cases hending with
      | arrived _ _ _ hlt => exact .inl (Nat.add_lt_add_right hlt _)
      | atEnd ha => exact absurd (hanswer.trans ha) hne
      | refused _ _ _ _ hless => exact hless.imp_left (Nat.add_lt_add_right · _)

/-! ## What the engine uses up -/

theorem handshakeOnce (s : FedSession) : Spends s s.handshakeOnce.2 := by
  have hturn := Tagged.Engine.shake_of s.engine s.rawRead s.pendingWrite
  have hlen := Tagged.Engine.shake_length s.engine s.rawRead.data
  have hinput : s.handshakeOnce.2.rawRead.data =
      (Tagged.Engine.shake s.engine s.rawRead.data).rest := hturn.input
  refine ⟨?_, rfl, rfl, id⟩
  have hsize : s.handshakeOnce.2.rawRead.size ≤ s.rawRead.size := by
    rw [Buffer.size, Buffer.size, hinput]
    exact hlen
  exact Nat.add_le_add_right (Nat.add_le_add_left hsize _) _

theorem decryptOnce (s : FedSession) : Spends s s.decryptOnce.2 := by
  have hturn := Tagged.Engine.reveal_of s.engine s.rawRead s.pendingWrite s.plaintext
  have hlen := Tagged.Engine.reveal_length s.engine s.rawRead.data
  have hinput : s.decryptOnce.2.rawRead.data =
      (Tagged.Engine.reveal s.engine s.rawRead.data).rest := hturn.input
  have hplaintext : s.decryptOnce.2.plaintext.data =
      s.plaintext.data ++ (Tagged.Engine.reveal s.engine s.rawRead.data).plaintext :=
    hturn.plaintext
  refine ⟨?_, rfl, rfl, id⟩
  have hsupply : s.decryptOnce.2.supply = s.supply := rfl
  rw [Session.load, Session.load, Buffer.size, Buffer.size, hinput, hplaintext, hsupply,
    List.length_append, Buffer.size, Buffer.size]
  omega

theorem processHandshake (s : FedSession) : Spends s s.processHandshake.2 := by
  have honce := handshakeOnce s
  rcases s.processHandshake_cases with ⟨e, -, he⟩ | ⟨progress, t, -, ht, hu⟩
  · rw [he]
    exact honce.trans ((fail _ _).trans (flushBestEffort _))
  · rw [hu]
    have hst : Spends s.handshakeOnce.2 t := by
      rw [ht]
      exact of_eq rfl rfl rfl
    exact honce.trans (hst.trans (setState _ _))

/-! ## The handshake -/

theorem step (s : FedSession) : Spends s s.step.2 := by
  have hfill := (fillRaw s maxRecordLength_pos).1
  have hstart : Spends s s.startEngine.2 := of_eq rfl rfl rfl
  generalize hr : s.step = r
  have hcase := s.step_case
  rw [hr] at hcase
  cases hcase with
  | startFailed => exact hstart.trans (fail _ _)
  | started =>
    have hready : Spends s { s.startEngine.2 with handshakeComplete := false } := of_eq rfl rfl rfl
    exact hready.trans (processHandshake _)
  | sent => exact (flushPending s).trans (setState _ _)
  | sendBlocked => exact flushPending s
  | sendFailed => exact (flushPending s).trans (fail _ _)
  | ended => exact hfill.trans (fail _ _)
  | arrived => exact hfill.trans (processHandshake _)
  | waits => exact hfill
  | receiveFailed => exact hfill.trans (fail _ _)
  | finish =>
    rcases s.finishHandshake_cases with ⟨-, f, -, hf⟩ | ⟨-, v, -, hv⟩
    · rw [hf]
      exact fail s f
    · rw [hv]
      exact connectedAs s v
  | agreed => exact refl s
  | refused => exact fail s _

/-- A step that has to wait has read last. -/
theorem step_waits {s t : FedSession} (h : s.step = (.yield .wouldBlock, t)) :
    t.state = .handshakeRead ∧ (t.load < s.load ∨ t.isDry = true) := by
  generalize hr : s.step = r at h
  have hcase := s.step_case
  rw [hr] at hcase
  cases hcase with
  | started | arrived => exact absurd h processHandshake_not_blocked
  | sendBlocked _ ha =>
    cases hk : s.socket with
    | none => simp [Session.flushPending, hk] at ha
    | some k =>
      obtain ⟨b, j, hf, -⟩ := flushPending_fed hk
      rw [hf] at ha
      cases ha
  | waits e hs ha =>
    injection h with _ ht
    rw [← ht]
    exact ⟨(s.state_fillRaw _).trans hs, (fillRaw s maxRecordLength_pos).2 (by rw [ha]; simp)⟩
  | finish => exact absurd h finishHandshake_not_blocked
  | _ => simp [failStep] at h

theorem runHandshake_waits {s t : FedSession} (h : s.runHandshake = (.wouldBlock, t)) :
    t.state = .handshakeRead ∧ (t.load < s.load ∨ t.isDry = true) := by
  fun_induction Session.runHandshake s with
  | case1 s s' hs ih =>
    have hstep := step s
    rw [hs] at hstep
    exact ⟨(ih h).1, hstep.waits (ih h).2⟩
  | case2 s status s' hs =>
    injection h with hstatus ht
    subst hstatus ht
    exact step_waits hs

theorem runHandshake (s : FedSession) : Spends s s.runHandshake.2 := by
  fun_induction Session.runHandshake s with
  | case1 s s' hs ih =>
    have hstep := step s
    rw [hs] at hstep
    exact hstep.trans ih
  | case2 s status s' hs =>
    have hstep := step s
    rwa [hs] at hstep

/-! ## Every turn -/

variable {c : Call Feed} {s t : FedSession}

/-- A call with which nothing comes in from outside. -/
def Inside : Call Feed → Prop
  | .init _ | .outside _ => False
  | _ => True

theorem turn (hc : Inside c) (h : Turn c s t) : Spends s t := by
  cases h with
  | bind | outside => exact hc.elim
  | step => exact step s
  | decrypt => exact decryptOnce s
  | reopen =>
    have hcount : Spends s.decryptOnce.2
        { s.decryptOnce.2 with renegotiations := s.renegotiations + 1 } := of_eq rfl rfl rfl
    exact (decryptOnce s).trans (hcount.trans (reopen _))
  | overrun =>
    have hcount : Spends s.decryptOnce.2
        { s.decryptOnce.2 with renegotiations := s.renegotiations + 1 } := of_eq rfl rfl rfl
    exact (decryptOnce s).trans (hcount.trans (fail _ _))
  | resume => exact processHandshake s
  | fill => exact (fillRaw s (Nat.lt_of_lt_of_le maxRecordLength_pos (Nat.le_max_right _ _))).1
  | withdraw => exact setState s _
  | flush => exact flushPending s
  | fail f => exact fail s f
  | _ => exact of_eq rfl rfl rfl

theorem turns (hc : Inside c) (h : Turns c s t) : Spends s t := by
  induction h with
  | refl => exact refl s
  | tail _ hlast ih => exact ih.trans (turn hc hlast)

theorem turn_eof (h : Turn c s t) (hs : s.eof = true) : t.eof = true := by
  cases h with
  | bind k =>
    rw [setState_eq]
    exact hs
  | step => rw [(Steady.step s).eof, hs]
  | reopen =>
    rw [reopen_eq]
    exact hs
  | overrun =>
    rw [fail_eq]
    exact hs
  | resume => rw [(Steady.processHandshake s).eof, hs]
  | fill => rw [(Steady.fillRaw s _).eof, hs]
  | withdraw => rw [(Steady.setState s _).eof, hs]
  | flush => rw [(Steady.flushPending s).eof, hs]
  | fail f => rw [(Steady.fail s f).eof, hs]
  | sawEnd => rfl
  | _ => exact hs

theorem turns_eof (h : Turns c s t) (hs : s.eof = true) : t.eof = true := by
  induction h with
  | refl => exact hs
  | tail _ hlast ih => exact turn_eof hlast ih

end Spends

/-! ## Reads -/

namespace Session

variable {s t : FedSession}

/-- A read that ends inside of a new handshake has read there last. -/
theorem renegotiate_waits (h : s.renegotiate = (.error (some .wouldBlock), t)) :
    t.load < s.load ∨ t.isDry = true := by
  have hopen : Spends s s.reopen.processHandshake.2 :=
    (Spends.reopen s).trans (Spends.processHandshake _)
  unfold renegotiate at h
  rcases s.reopen.processHandshake_cases with ⟨e, -, he⟩ | ⟨progress, u, -, -, hu⟩
  · simp [he] at h
  · rw [hu] at h hopen
    rcases hr : (u.setState u.nextHandshakeState).runHandshake with ⟨status, w⟩
    simp only [hr] at h
    cases status with
    | ok v => cases h
    | error _ => cases h
    | wouldBlock =>
      have hwaits := hopen.waits (Spends.runHandshake_waits hr).2
      simp only at h
      split at h
      · injection h with _ ht
        rwa [← ht]
      · cases h

theorem decryptAvailable_waits {admitted : Nat}
    (h : decryptAvailable admitted s = (some .wouldBlock, t)) :
    t.load < s.load ∨ t.isDry = true := by
  have honce : ∀ {s u : FedSession} {answer}, s.decryptOnce = (answer, u) →
      Spends s { u with renegotiations := u.renegotiations + 1 } := by
    intro s u answer hu
    have hspends := Spends.decryptOnce s
    rw [hu] at hspends
    exact hspends.trans (.of_eq rfl rfl rfl)
  -- Only inside of a new handshake does decryption end with a wait.
  fun_induction decryptAvailable admitted s with
  | case1 | case2 | case3 | case4 => cases h
  | case5 s u _ admitted w a hd hr ih =>
    obtain ⟨hchain, -, -⟩ := renegotiate_turns 0 hr
    have hround := (Spends.reopen _).trans (Spends.turns (c := .read 0) trivial hchain)
    exact ((honce hd).trans hround).waits (ih h)
  | case6 s u _ admitted w ended hd hr =>
    injection h with hended ht
    subst hended ht
    exact (honce hd).waits (renegotiate_waits hr)

theorem answerRead_waits {max : Nat} (h : s.answerRead max = (.wouldBlock, t)) :
    s.eof = false := by
  unfold answerRead at h
  split at h
  · cases h
  split at h
  · cases h
  split at h
  · cases h
  · rename_i heof
    simpa using heof

theorem finishRead_waits {max : Nat} (h : s.finishRead max = (.wouldBlock, t)) :
    s.eof = false := by
  unfold finishRead at h
  split at h
  · exact answerRead_waits h
  · have heof := (Steady.flushPending s).eof
    rcases hf : s.flushPending with ⟨answer, u⟩
    rw [hf] at h heof
    cases answer with
    | error e => cases h
    | ok all => exact heof.symm.trans (answerRead_waits h)

/-- A read that has to wait after decryption did not meet the end of the stream. -/
theorem decryptAndFinish_waits {max : Nat} (hs : s.state = .connected)
    (h : s.decryptAndFinish max = (.wouldBlock, t)) :
    (t.load < s.load ∨ t.isDry = true) ∨ s.eof = false := by
  have hchain := decryptAvailable_turns max _ hs rfl
  unfold decryptAndFinish at h
  rcases hd : decryptAvailable (maxRenegotiations - s.renegotiations) s with ⟨ended, u⟩
  rw [hd] at h hchain
  cases ended with
  | some status =>
    injection h with hstatus ht
    subst hstatus ht
    exact .inl (decryptAvailable_waits hd)
  | none =>
    refine .inr ?_
    have hu := finishRead_waits h
    cases hb : s.eof with
    | false => rfl
    | true =>
      rw [Spends.turns_eof hchain hb] at hu
      cases hu

theorem handsOut_spends {r : Answer × FedSession} (h : HandsOut s r) :
    Spends s r.2 ∧ (r.1.handed ≠ [] → r.2.load < s.load) := by
  have hsize : s.plaintext.size = r.1.handed.length + r.2.plaintext.size := by
    rw [Buffer.size, Buffer.size, ← h.handed, List.length_append]
  have hkept : r.2.socket = s.socket ∧ r.2.rawRead = s.rawRead := by
    rw [h.frame]
    exact ⟨rfl, rfl⟩
  have hload : r.2.load + r.1.handed.length = s.load := by
    rw [load, load, supply, supply, hkept.1, hkept.2, hsize]
    omega
  have hfeed : r.2.feed = s.feed := by rw [feed, feed, hkept.1]
  refine ⟨⟨by omega, by rw [hkept.1], by rw [hfeed], by rw [hfeed]; exact id⟩, fun hne => ?_⟩
  have hpos := List.length_pos_iff.2 hne
  omega

theorem decryptAndFinish_spends (max : Nat) (hs : s.state = .connected) :
    Spends s (s.decryptAndFinish max).2 := by
  obtain ⟨t, ht, hout⟩ := decryptAndFinish_turns max hs
  exact (Spends.turns (c := .read max) trivial ht).trans (handsOut_spends hout).1

theorem receive_waits {max : Nat} (hs : s.state = .connected)
    (h : s.receive max = (.wouldBlock, t)) : t.load < s.load ∨ t.isDry = true := by
  have hsize : 0 < Nat.max max maxRecordLength :=
    Nat.lt_of_lt_of_le maxRecordLength_pos (Nat.le_max_right _ _)
  obtain ⟨hfill, hless⟩ := Spends.fillRaw s hsize
  have hstate : (s.fillRaw (Nat.max max maxRecordLength)).2.state = .connected :=
    (s.state_fillRaw _).trans hs
  unfold receive at h
  rcases hf : s.fillRaw (Nat.max max maxRecordLength) with ⟨answer, u⟩
  rw [hf] at h hfill hless hstate
  have hgo : answer ≠ .ok [] → u.decryptAndFinish max = (.wouldBlock, t) →
      t.load < s.load ∨ t.isDry = true := by
    intro hne hu
    have hspends := decryptAndFinish_spends max hstate
    rw [hu] at hspends
    exact Spends.since (hless hne) hspends
  rcases answer with e | _ | ⟨b, rest⟩
  · simp only at h
    split at h
    · exact hgo (by simp) h
    · cases h
  · have hseen : Spends u { u with eof := true } := .of_eq rfl rfl rfl
    -- The end was seen, and then a read does not wait for more data.
    rcases decryptAndFinish_waits (s := { u with eof := true }) hstate h with hw | heof
    · exact (hfill.trans hseen).waits hw
    · cases heof
  · exact hgo (by simp) h

/-- A read that has to wait has used something up, or the socket is dry. -/
theorem readData_waits {max : Nat} (h : s.readData max = (.wouldBlock, t)) :
    t.load < s.load ∨ t.isDry = true := by
  unfold readData at h
  split at h
  · cases h
  split at h
  · cases h
  split at h
  · rename_i hs
    exact receive_waits hs h
  split at h
  · have hspends := Spends.runHandshake s
    rcases hr : s.runHandshake with ⟨status, u⟩
    rw [hr] at h hspends
    cases status with
    | ok v => exact hspends.waits (receive_waits (runHandshake_ok hr) h)
    | wouldBlock =>
      injection h with _ ht
      subst ht
      exact (Spends.runHandshake_waits hr).2
    | error _ => cases h
  split at h
  · cases h
  split at h
  · cases h
  · cases h

theorem readData_hands {max : Nat} {first : UInt8} {rest : Bytes}
    (h : s.readData max = (.ok (first :: rest), t)) : t.load < s.load := by
  obtain ⟨u, hu, hout⟩ := readData_turns s max
  rw [h] at hout
  have hless := (handsOut_spends hout).2 (by simp [Answer.handed])
  exact Nat.lt_of_lt_of_le hless (Spends.turns (c := .read max) trivial hu).load

/-! ## The two loops -/

/-- The handshake call of either side. -/
def shakeHands (host : String) (s : FedSession) : Status TlsVersion String × FedSession :=
  match s.side with
  | .client => s.connect host
  | .server => s.accept

theorem handshakeStatus_waits (h : s.handshakeStatus = (.wouldBlock, t)) :
    t.load < s.load ∨ t.isDry = true := by
  have hrun : s.state = .initialized ∨ s.state.inHandshake = true →
      t.load < s.load ∨ t.isDry = true := by
    intro hs
    rcases hr : s.runHandshake with ⟨v | _ | _, u⟩
    · rw [handshakeStatus_of_ok hs hr] at h
      cases h
    · rw [handshakeStatus_of_wouldBlock hs hr] at h
      injection h with _ ht
      subst ht
      exact (Spends.runHandshake_waits hr).2
    · rw [handshakeStatus_of_error hs hr] at h
      cases h
  cases hs : s.state with
  | initialized => exact hrun (.inl hs)
  | handshakeWrite | handshakeRead | handshakeDone => exact hrun (.inr (by rw [hs]; rfl))
  | connected => cases hv : s.version <;> simp [handshakeStatus, hs, hv] at h
  | constructed | closing | closed | error => simp [handshakeStatus, hs, failWith] at h

theorem shakeHands_waits {host : String} (h : s.shakeHands host = (.wouldBlock, t)) :
    t.load < s.load ∨ t.isDry = true := by
  unfold shakeHands connect accept at h
  split at h
  · split at h
    · cases h
    · have hnamed : Spends s (if s.hostname = none ∧ s.state = .initialized then
          { s with hostname := some host } else s) := by
        split
        · exact .of_eq rfl rfl rfl
        · exact .refl s
      exact hnamed.waits (handshakeStatus_waits h)
  · split at h
    · cases h
    · exact handshakeStatus_waits h

/-- Repeats the handshake call while it has to wait for a socket that is not dry. -/
def openUp (host : String) (s : FedSession) : Status TlsVersion String × FedSession :=
  match _h : s.shakeHands host with
  | (.wouldBlock, t) => if t.isDry then (.wouldBlock, t) else openUp host t
  | (status, t) => (status, t)
termination_by s.load
decreasing_by exact (shakeHands_waits ‹_›).resolve_right ‹_›

/-- Reads until no more comes or something is wrong, or has to wait for a dry socket. The sizes are
those of the buffers that are offered. Answers all bytes that were handed out. -/
def readOut (sizes : Nat → Nat) (s : FedSession) : Bytes × FedSession :=
  match _h : s.readData (sizes 0) with
  | (.ok (first :: rest), t) =>
    let later := readOut (fun n => sizes (n + 1)) t
    (first :: rest ++ later.1, later.2)
  | (.wouldBlock, t) => if t.isDry then ([], t) else readOut (fun n => sizes (n + 1)) t
  | (.ok [], t) => ([], t)
  | (.error _, t) => ([], t)
termination_by s.load
decreasing_by
  · exact readData_hands ‹_›
  · exact (readData_waits ‹_›).resolve_right ‹_›

/-- Drives a session that is bound to its socket until all input is used or no more comes. -/
def drive (host : String) (sizes : Nat → Nat) (s : FedSession) : Bytes × FedSession :=
  match s.openUp host with
  | (.wouldBlock, t) => ([], t)
  | (_, t) => t.readOut sizes

end Session
end TlsTransport
