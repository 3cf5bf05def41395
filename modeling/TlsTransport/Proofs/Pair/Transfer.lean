import TlsTransport.Proofs.Pair.Handshake
import TlsTransport.Proofs.Session.Resumption

/-! # Calls on a session that is in touch

What one call does to a session at its end of the pipe, with the streams from it and to it: a
handshake call leaves the data on their way alone, a write puts data on their way, and a read takes
data off. None of them fails.

* `InTouch.connect`, `InTouch.accept`: handshake calls.
* `InTouch.writeData`: a write, whole or resumed.
* `InTouch.readData`: a read.
-/

namespace TlsTransport

open Tagged (Phase encodeAll carried Agrees)

namespace Stage

variable {s t : TaggedSession}

theorem of_connected (h : Stage s) (hs : s.state = .connected) :
    s.engine.phase = .done ∧ s.version.isSome = true ∧
      (s.inFlight = none → s.pendingWrite.data = []) := by
  cases h with
  | fresh h | writing h | reading h | settled h => rw [hs] at h; cases h
  | connected _ hp hv hw => exact ⟨hp, hv, hw⟩

theorem phase_done (h : Stage s) (hs : s.state = .connected) : s.engine.phase = .done :=
  (h.of_connected hs).1

theorem flushed (h : Stage s) (hs : s.state = .connected) (hf : s.inFlight = none) :
    s.pendingWrite.data = [] :=
  (h.of_connected hs).2.2 hf

/-- No write is under way before the session is connected. -/
theorem idle (h : Stage s) (hs : s.state ≠ .connected) : s.inFlight = none := by
  cases h with
  | fresh _ hf | writing _ _ _ hf | reading _ _ _ hf | settled _ _ _ _ hf => exact hf
  | connected h => exact absurd h hs

/-- Only these fields matter. -/
theorem congr (h : Stage s) (hs : t.state = s.state) (he : t.engine = s.engine)
    (hc : t.handshakeComplete = s.handshakeComplete) (hf : t.inFlight = s.inFlight)
    (hw : t.pendingWrite = s.pendingWrite) (hv : t.version = s.version) : Stage t := by
  cases h with
  | fresh h hf' => exact .fresh (hs.trans h) (hf.trans hf')
  | writing h he' hc' hf' =>
    exact .writing (hs.trans h) (by rwa [he]) (by rwa [hc, he]) (hf.trans hf')
  | reading h he' hc' hf' => exact .reading (hs.trans h) (by rwa [he]) (hc.trans hc') (hf.trans hf')
  | settled h he' hp hw' hf' =>
    exact .settled (hs.trans h) (by rwa [he]) (by rwa [he]) (by rwa [hw]) (hf.trans hf')
  | connected h hp hv' hw' =>
    exact .connected (hs.trans h) (by rwa [he]) (by rwa [hv]) (by rwa [hf, hw])

/-- A connected session stays as it is when its engine's phase and its version do. -/
theorem keep (h : Stage s) (hs : s.state = .connected) (ht : t.state = .connected)
    (hp : t.engine.phase = s.engine.phase) (hv : t.version = s.version)
    (hw : t.inFlight = none → t.pendingWrite.data = []) : Stage t := by
  obtain ⟨hdone, hsome, -⟩ := h.of_connected hs
  exact .connected ht (hp.trans hdone) (by rwa [hv]) hw

end Stage

namespace InTouch

open Session

variable {who : Side} {peer : Peer} {outs ins : List Tagged.Record}
  {s t : TaggedSession}

/-! ## Handshake calls -/

/-- What a handshake call does. -/
structure Shook (who : Side) (peer : Peer) (outs ins : List Tagged.Record)
    (s : TaggedSession) (r : Status TlsVersion String × TaggedSession) : Prop where
  answer : ∀ text, r.1 ≠ .error text
  touch : ∃ outs' ins', InTouch who peer outs' ins' r.2 ∧
    carried outs' = carried outs ∧ carried ins' = carried ins
  stage : Stage r.2
  plaintext : r.2.plaintext = s.plaintext
  flight : r.2.inFlight = s.inFlight
  connected : (∃ v, r.1 = .ok v) ∨ s.state = .connected → r.2.state = .connected

theorem handshakeStatus (h : InTouch who peer outs ins s) (hst : Stage s) :
    Shook who peer outs ins s s.handshakeStatus := by
  by_cases hs : s.state = .connected
  · obtain ⟨-, hsome, -⟩ := hst.of_connected hs
    obtain ⟨v, hv⟩ := Option.isSome_iff_exists.1 hsome
    have hcall : s.handshakeStatus = (.ok v, s) := by simp only [Session.handshakeStatus, hs, hv]
    rw [hcall]
    exact ⟨by simp, ⟨outs, ins, h, rfl, rfl⟩, hst, rfl, rfl, fun _ => hs⟩
  · obtain ⟨hend, hgo⟩ := h.runHandshake hst hs
    have hplain := (Steady.runHandshake s).plaintext
    have hbusy : s.state = .initialized ∨ s.state.inHandshake = true := by
      cases hst with
      | fresh h => exact .inl h
      | writing h | reading h | settled h => exact .inr (by rw [h]; rfl)
      | connected h => exact absurd h hs
    rcases hr : s.runHandshake with ⟨status, t⟩
    rw [hr] at hend hgo hplain
    have hflight : t.inFlight = s.inFlight := hgo.flight.trans (hst.idle hs).symm
    rcases hend with rfl | ⟨v, rfl, ht⟩
    · rw [handshakeStatus_of_wouldBlock hbusy hr]
      exact ⟨by simp, hgo.touch, hgo.stage, hplain, hflight, by simp [hs]⟩
    · rw [handshakeStatus_of_ok hbusy hr]
      exact ⟨by simp, hgo.touch, hgo.stage, hplain, hflight, fun _ => ht⟩

theorem connect (h : InTouch .client peer outs ins s) (hst : Stage s)
    (host : String) : Shook .client peer outs ins s (s.connect host) := by
  have hside : ¬ s.side ≠ .client := by rw [h.peaceful.side]; simp
  rw [Session.connect, if_neg hside]
  simp only
  split
  · have hnamed : InTouch .client peer outs ins { s with hostname := some host } :=
      h.congr ⟨rfl, rfl, rfl, rfl, rfl, rfl, rfl, rfl, rfl⟩ rfl rfl rfl rfl
    have hshook := hnamed.handshakeStatus (hst.congr rfl rfl rfl rfl rfl rfl)
    exact ⟨hshook.answer, hshook.touch, hshook.stage, hshook.plaintext, hshook.flight,
      hshook.connected⟩
  · exact h.handshakeStatus hst

theorem accept (h : InTouch .server peer outs ins s) (hst : Stage s) :
    Shook .server peer outs ins s s.accept := by
  have hside : ¬ s.side ≠ .server := by rw [h.peaceful.side]; simp
  rw [Session.accept, if_neg hside]
  exact h.handshakeStatus hst

/-! ## Writing -/

/-- What writing the rest of a payload does: it puts `new` on its way. -/
structure Wrote (who : Side) (peer : Peer) (outs ins : List Tagged.Record) (flight : InFlight)
    (rest : Bytes) (s : TaggedSession) (r : Status Nat Unit × TaggedSession) (new : Bytes) :
    Prop where
  touch : ∃ outs', InTouch who peer outs' ins r.2 ∧ carried outs' = carried outs ++ new
  part : new <+: rest
  state : r.2.state = s.state
  phase : r.2.engine.phase = s.engine.phase
  version : r.2.version = s.version
  plaintext : r.2.plaintext = s.plaintext
  ended : (r.1 = .ok flight.length ∧ new = rest ∧ r.2.pendingWrite.data = [] ∧
      r.2.inFlight = s.inFlight) ∨
    (r.1 = .wouldBlock ∧ r.2.inFlight = some { flight with locked := flight.locked + new.length })

/-- One more piece before the others, with nothing else changed by it. -/
theorem Wrote.cons {flight : InFlight} {chunk rest new : Bytes}
    {r : Status Nat Unit × TaggedSession}
    (h : Wrote who peer (outs ++ [⟨Tagged.data, chunk⟩]) ins
      { flight with locked := flight.locked + chunk.length } rest s r new)
    (hstate : s.state = t.state) (hphase : s.engine.phase = t.engine.phase)
    (hversion : s.version = t.version) (hplain : s.plaintext = t.plaintext)
    (hflight : s.inFlight = t.inFlight) :
    Wrote who peer outs ins flight (chunk ++ rest) t r (chunk ++ new) where
  touch := by
    obtain ⟨outs', htouch, houts⟩ := h.touch
    refine ⟨outs', htouch, ?_⟩
    rw [houts, Tagged.carried_append, Tagged.carried_cons_data rfl, Tagged.carried_nil,
      List.append_nil, List.append_assoc]
  part := (List.prefix_append_right_inj chunk).2 h.part
  state := h.state.trans hstate
  phase := h.phase.trans hphase
  version := h.version.trans hversion
  plaintext := h.plaintext.trans hplain
  ended := by
    rcases h.ended with ⟨hok, hnew, hempty, hsame⟩ | ⟨hblock, hlocked⟩
    · exact .inl ⟨hok, by rw [hnew], hempty, hsame.trans hflight⟩
    · refine .inr ⟨hblock, hlocked.trans ?_⟩
      have hcount : flight.locked + chunk.length + new.length =
          flight.locked + (chunk ++ new).length := by
        rw [List.length_append]
        omega
      exact congrArg (fun n => some { flight with locked := n }) hcount

theorem length_piece_le (h : InTouch who peer outs ins s) {fragment : Nat}
    (hfragment : fragment = s.engine.fragment) (rest : Bytes) :
    (rest.take (max 1 fragment)).length ≤ s.engine.fragment := by
  have hone := h.peaceful.fragment.1
  have hcut : (rest.take (max 1 fragment)).length ≤ max 1 fragment := List.length_take_le _ _
  omega

/-- Encrypting a piece puts one record on its way. -/
theorem encryptOnce (h : InTouch who peer outs ins s) (hp : s.engine.phase = .done)
    {chunk : Bytes} (hlen : chunk.length ≤ s.engine.fragment) :
    (s.encryptOnce chunk).1 = .ok () ∧
    InTouch who peer (outs ++ [⟨Tagged.data, chunk⟩]) ins (s.encryptOnce chunk).2 ∧
    ∃ n b j, (s.encryptOnce chunk).2 = { s with
      engine := { s.engine with writes := n }, pendingWrite := b, journal := j } := by
  have hcall : Engine.encrypt s.engine chunk s.pendingWrite = ⟨.ok (),
      { s.engine with writes := s.engine.writes + 1 },
      Tagged.Engine.emit s.pendingWrite Tagged.data chunk⟩ :=
    Tagged.Engine.encrypt_agrees hlen h.peaceful.quiet s.pendingWrite
  have hpair : ∃ j, s.encryptOnce chunk = (.ok (), { s with
      engine := { s.engine with writes := s.engine.writes + 1 }
      pendingWrite := Tagged.Engine.emit s.pendingWrite Tagged.data chunk
      journal := j }) := by
    rw [Session.encryptOnce, hcall]
    exact ⟨_, rfl⟩
  obtain ⟨j, hpair⟩ := hpair
  rw [hpair]
  have hpeaceful := h.peaceful.congr (t := { s with
      engine := { s.engine with writes := s.engine.writes + 1 }
      pendingWrite := Tagged.Engine.emit s.pendingWrite Tagged.data chunk
      journal := j }) ⟨rfl, rfl, rfl, rfl, rfl, rfl, rfl, rfl, rfl⟩
  refine ⟨rfl, ⟨hpeaceful, ?_, ?_, ?_, h.fits.2⟩, _, _, _, rfl⟩
  · rw [Tagged.encodeAll_append]
    exact h.linked.emit rfl (by simp [Tagged.Engine.emit]) rfl
  · exact h.agrees.send hp (by simp)
  · intro r hr
    rcases List.mem_append.1 hr with hr | hr
    · exact h.fits.1 r hr
    · rw [List.mem_singleton.1 hr]
      have hmost := h.peaceful.fragment.2
      have hsize : chunk.length < 65536 := by omega
      exact hsize

theorem sendRest (fragment : Nat) (flight : InFlight) (rest : Bytes)
    (h : InTouch who peer outs ins s) (hp : s.engine.phase = .done)
    (hfragment : fragment = s.engine.fragment) :
    ∃ new, Wrote who peer outs ins flight rest s (s.sendRest fragment flight rest) new := by
  -- Each piece puts a record on its way, so the streams vary with the session.
  revert outs
  induction flight, rest, s using sendRest.induct (σ := Tagged.Engine) (ω := Pipe.End)
    (ε := Tagged.Fault) fragment with
  | case1 flight rest s t e h₁ =>
    intro outs h
    obtain ⟨all, k, b, j, hr, -⟩ := h.flush
    rw [h₁] at hr
    cases hr
  | case2 flight rest s t h₁ =>
    intro outs h
    obtain ⟨all, k, b, j, hr, htouch, -⟩ := h.flush
    rw [sendRest_of_blocked h₁]
    obtain ⟨-, rfl⟩ := Prod.mk.inj (h₁.symm.trans hr)
    refine ⟨[], ⟨outs, ?_, by rw [List.append_nil]⟩, List.nil_prefix, rfl, rfl, rfl, rfl,
      .inr ⟨rfl, rfl⟩⟩
    exact htouch.congr ⟨rfl, rfl, rfl, rfl, rfl, rfl, rfl, rfl, rfl⟩ rfl rfl rfl rfl
  | case3 flight rest s t hr h₁ =>
    intro outs h
    have hrest : rest = [] := by simpa using hr
    obtain ⟨all, k, b, j, hr, htouch, hempty⟩ := h.flush
    rw [sendRest_of_done h₁ hrest]
    obtain ⟨hall, rfl⟩ := Prod.mk.inj (h₁.symm.trans hr)
    injection hall with hall
    exact ⟨[], ⟨outs, htouch, by rw [List.append_nil]⟩, List.nil_prefix, rfl, rfl, rfl, rfl,
      .inl ⟨rfl, hrest.symm, hempty hall.symm, rfl⟩⟩
  | case4 flight rest s t hr chunk u e h₁ =>
    rename_i h₂
    intro outs h
    obtain ⟨all, k, b, j, hr, htouch, -⟩ := h.flush
    obtain ⟨-, rfl⟩ := Prod.mk.inj (h₁.symm.trans hr)
    have hok := (htouch.encryptOnce hp (h.length_piece_le hfragment rest)).1
    rw [h₂] at hok
    cases hok
  | case5 flight rest s t hr chunk u a h₁ h₂ =>
    rename_i ih
    intro outs h
    have hrest : rest ≠ [] := by simpa using hr
    obtain ⟨all, k, b, j, hr, htouch, -⟩ := h.flush
    rw [sendRest_of_encrypted h₁ hrest h₂]
    obtain ⟨-, rfl⟩ := Prod.mk.inj (h₁.symm.trans hr)
    have hlen : chunk.length ≤ s.engine.fragment := h.length_piece_le hfragment rest
    obtain ⟨-, hnext, n, b', j', hframe⟩ := htouch.encryptOnce hp hlen
    rw [h₂] at hnext hframe
    simp only at hnext hframe
    subst hframe
    obtain ⟨new, hwrote⟩ := ih hp hfragment hnext
    have hmore := hwrote.cons (t := s) rfl rfl rfl rfl rfl
    rw [List.take_append_drop] at hmore
    exact ⟨_, hmore⟩

/-- How far a session is with the payload that it was offered and has not finished, if any: `sent`
of it is on its way. -/
inductive Offering (s : TaggedSession) : Option Bytes → Bytes → Prop where
  | nothing (h : s.inFlight = none) : Offering s none []
  | unfinished {payload sent : Bytes} (h : s.Awaits payload sent.length)
      (hpart : sent <+: payload) : Offering s (some payload) sent

theorem Offering.congr {current : Option Bytes} {sent : Bytes} (h : Offering s current sent)
    (hf : t.inFlight = s.inFlight) : Offering t current sent := by
  cases h with
  | nothing h => exact .nothing (hf.trans h)
  | unfinished h hpart => exact .unfinished (hf.trans h) hpart

theorem Offering.part {current : Option Bytes} {sent : Bytes} (h : Offering s current sent) :
    sent <+: current.getD [] := by
  cases h with
  | nothing => exact List.nil_prefix
  | unfinished h hpart => exact hpart

/-- What a write does after `sent` of its payload is on its way: it puts `new` on its way. -/
structure Writes (who : Side) (peer : Peer) (outs ins : List Tagged.Record)
    (payload sent : Bytes) (s : TaggedSession) (r : Status Nat Unit × TaggedSession) (new : Bytes) :
    Prop where
  touch : ∃ outs', InTouch who peer outs' ins r.2 ∧
    carried outs' = carried outs ++ new
  stage : Stage r.2
  state : r.2.state = .connected
  plaintext : r.2.plaintext = s.plaintext
  ended : (r.1 = .ok payload.length ∧ sent ++ new = payload ∧ Offering r.2 none []) ∨
    (r.1 = .wouldBlock ∧ Offering r.2 (some payload) (sent ++ new))

theorem writeData (h : InTouch who peer outs ins s) (hst : Stage s)
    (hs : s.state = .connected) {current : Option Bytes} {payload sent : Bytes}
    (ho : Offering s current sent) (hrepeat : current = none ∨ current = some payload) :
    ∃ new, Writes who peer outs ins payload sent s (s.writeData payload) new := by
  have hcall : s.writeData payload = s.sendPayload payload := by
    simp only [Session.writeData, if_pos hs]
  rw [hcall]
  -- An empty payload has no piece: the write ends at once and nothing is in flight.
  by_cases hempty : s.inFlight = none ∧ payload = []
  · obtain ⟨hnone, rfl⟩ := hempty
    have hdone : s.sendPayload [] = (.ok 0, s) := by simp [sendPayload, hnone]
    cases ho with
    | nothing =>
      rw [hdone]
      exact ⟨[], ⟨outs, h, by rw [List.append_nil]⟩, hst, hs, rfl, .inl ⟨rfl, rfl, .nothing hnone⟩⟩
    | unfinished hawaits =>
      rw [Awaits, hnone] at hawaits
      cases hawaits
  · have hready : (s.Awaits payload sent.length ∨
        s.inFlight = none ∧ sent.length = 0 ∧ payload ≠ []) ∧ sent <+: payload := by
      cases ho with
      | nothing hnone =>
        exact ⟨.inr ⟨hnone, rfl, fun hp => hempty ⟨hnone, hp⟩⟩, List.nil_prefix⟩
      | unfinished hawaits hpart =>
        obtain hno | hsame := hrepeat
        · cases hno
        · injection hsame with hsame
          subst hsame
          exact ⟨.inl hawaits, hpart⟩
    obtain ⟨hready, rest, rfl⟩ := hready
    rw [sendPayload_eq hready, List.drop_left]
    have hcleared : InTouch who peer outs ins { s with inFlight := none } :=
      h.congr ⟨rfl, rfl, rfl, rfl, rfl, rfl, rfl, rfl, rfl⟩ rfl rfl rfl rfl
    obtain ⟨new, hwrote⟩ := hcleared.sendRest (Engine.maxFragment s.engine)
      ⟨(sent ++ rest).length, sent.length, Digest.sip (sent ++ rest)⟩ rest (hst.phase_done hs) rfl
    refine ⟨new, hwrote.touch, ?_, hwrote.state.trans hs, hwrote.plaintext, ?_⟩
    · refine hst.keep hs (hwrote.state.trans hs) hwrote.phase hwrote.version fun hnone => ?_
      rcases hwrote.ended with ⟨-, -, hflushed, -⟩ | ⟨-, hflight⟩
      · exact hflushed
      · rw [hflight] at hnone
        cases hnone
    · rcases hwrote.ended with ⟨hok, rfl, -, hflight⟩ | ⟨hblock, hflight⟩
      · exact .inl ⟨hok, rfl, .nothing hflight⟩
      · obtain ⟨later, hlater⟩ := hwrote.part
        refine .inr ⟨hblock, .unfinished ?_ ⟨later, by rw [List.append_assoc, hlater]⟩⟩
        have hcount : (sent ++ new).length = sent.length + new.length := List.length_append
        rw [Awaits, hflight, hcount]

/-! ## Reading -/

/-- The data that a read answers. -/
def Read.bytes : Status Bytes Unit → Bytes
  | .ok bytes => bytes
  | _ => []

/-- A connected session that has `left` to hand out, of what is decrypted and what is on its way. -/
structure Holds (who : Side) (peer : Peer) (outs : List Tagged.Record)
    (flight : Option InFlight) (left : Bytes) (s : TaggedSession) : Prop where
  touch : ∃ ins, InTouch who peer outs ins s ∧ s.plaintext.data ++ carried ins = left
  stage : Stage s
  state : s.state = .connected
  flight : s.inFlight = flight

/-- What a read does: it hands out the first of what was left. -/
structure Reads (who : Side) (peer : Peer) (outs : List Tagged.Record)
    (flight : Option InFlight) (left : Bytes) (r : Status Bytes Unit × TaggedSession) : Prop where
  answer : r.1 ≠ .error ()
  holds : ∃ later, Holds who peer outs flight later r.2 ∧
    left = Read.bytes r.1 ++ later

namespace Holds

variable {flight : Option InFlight} {left : Bytes}

theorem takePlaintext (h : Holds who peer outs flight left s) (max : Nat) :
    Reads who peer outs flight left (s.takePlaintext max) := by
  obtain ⟨ins, htouch, hleft⟩ := h.touch
  refine ⟨by simp [Session.takePlaintext], s.plaintext.data.drop max ++ carried ins, ?_, ?_⟩
  · refine ⟨⟨ins, ?_, rfl⟩, ?_, h.state, h.flight⟩
    · exact htouch.congr ⟨rfl, rfl, rfl, rfl, rfl, rfl, rfl, rfl, rfl⟩ rfl rfl rfl rfl
    · exact h.stage.keep h.state h.state rfl rfl (h.stage.flushed h.state)
  · have hbytes : Read.bytes (s.takePlaintext max).1 = s.plaintext.data.take max := rfl
    rw [hbytes, ← List.append_assoc, List.take_append_drop, hleft]

theorem answerRead (h : Holds who peer outs flight left s) (max : Nat) :
    Reads who peer outs flight left (s.answerRead max) := by
  obtain ⟨ins, htouch, -⟩ := h.touch
  have hopen : ¬ s.peerClosed = true := by rw [htouch.peaceful.peerClosed]; simp
  have hmore : ¬ s.eof = true := by rw [htouch.peaceful.eof]; simp
  unfold Session.answerRead
  rw [if_neg hopen, if_neg hmore]
  split
  · exact h.takePlaintext max
  · exact ⟨by simp, left, h, rfl⟩

theorem finishRead (h : Holds who peer outs flight left s) (max : Nat) :
    Reads who peer outs flight left (s.finishRead max) := by
  unfold Session.finishRead
  split
  · exact h.answerRead max
  · rename_i hpending
    have hpending : s.pendingWrite.data ≠ [] := by simpa [Buffer.isEmpty] using hpending
    obtain ⟨ins, htouch, hleft⟩ := h.touch
    obtain ⟨all, k, b, j, hr, hflush, -⟩ := htouch.flush
    rw [hr]
    refine answerRead ⟨⟨ins, hflush, hleft⟩, ?_, h.state, h.flight⟩ max
    exact h.stage.keep h.state h.state rfl rfl fun hnone =>
      absurd (h.stage.flushed h.state hnone) hpending

theorem decryptAndFinish (h : Holds who peer outs flight left s) (max : Nat) :
    Reads who peer outs flight left (s.decryptAndFinish max) := by
  obtain ⟨ins, htouch, hleft⟩ := h.touch
  obtain ⟨pipe, hsocket, hopen, hout, hin⟩ := htouch.linked.link
  have hdone := h.stage.phase_done h.state
  rw [List.append_assoc] at hin
  obtain ⟨hanswer, hengine, houtput, taken, rest, rfl, hinput, hplain⟩ :=
    Tagged.Engine.decrypt_agrees s.engine s.rawRead s.pendingWrite s.plaintext hin htouch.fits.2
      (htouch.agrees.arrivals hdone)
  generalize ht : Tagged.Engine.decrypt s.engine s.rawRead s.pendingWrite s.plaintext = turn at *
  obtain ⟨answer, e, input, output, plaintext⟩ := turn
  simp only at hanswer hengine houtput hinput hplain
  subst hanswer hengine houtput
  have honce : ∃ j, s.decryptOnce = (.ok .needsInput,
      { s with rawRead := input, plaintext := plaintext, journal := j }) := by
    have hcall : Engine.decrypt s.engine s.rawRead s.pendingWrite s.plaintext =
      ⟨.ok .needsInput, s.engine, input, s.pendingWrite, plaintext⟩ := ht
    rw [decryptOnce, hcall]
    exact ⟨_, rfl⟩
  obtain ⟨j, honce⟩ := honce
  rw [Session.decryptAndFinish, decryptAvailable_of_needsInput honce]
  suffices hdecrypted : Holds who peer outs flight left
      { s with rawRead := input, plaintext := plaintext, journal := j } from
    hdecrypted.finishRead max
  refine ⟨⟨rest, ?_, ?_⟩, ?_, h.state, h.flight⟩
  · refine ⟨htouch.peaceful.congr ⟨rfl, rfl, rfl, rfl, rfl, rfl, rfl, rfl, rfl⟩,
      ⟨pipe, hsocket, hopen, hout, ?_⟩, htouch.agrees.take hdone, htouch.fits.1,
      fun r hr => htouch.fits.2 r (List.mem_append_right _ hr)⟩
    rw [List.append_assoc]
    exact hinput
  · rw [← hleft, Tagged.carried_append, ← List.append_assoc, ← hplain]
  · exact h.stage.keep h.state h.state rfl rfl (h.stage.flushed h.state)

theorem receive (h : Holds who peer outs flight left s) (max : Nat) :
    Reads who peer outs flight left (s.receive max) := by
  obtain ⟨ins, htouch, hleft⟩ := h.touch
  have hmax : 0 < Nat.max max maxRecordLength :=
    Nat.lt_of_lt_of_le (by decide) (Nat.le_max_right max maxRecordLength)
  obtain ⟨answer, k, b, j, hr, hfill, hanswer⟩ := htouch.fill hmax
  have hfilled : Holds who peer outs flight left
      { s with socket := k, rawRead := b, journal := j } := by
    refine ⟨⟨ins, hfill, hleft⟩, ?_, h.state, h.flight⟩
    exact h.stage.keep h.state h.state rfl rfl (h.stage.flushed h.state)
  unfold Session.receive
  rw [hr]
  rcases hanswer with rfl | ⟨bytes, hne, rfl⟩
  · exact hfilled.decryptAndFinish max
  · cases bytes with
    | nil => exact absurd rfl hne
    | cons b bytes => exact hfilled.decryptAndFinish max

theorem readData (h : Holds who peer outs flight left s) (max : Nat) :
    Reads who peer outs flight left (s.readData max) := by
  unfold Session.readData
  split
  · exact ⟨by simp, left, h, rfl⟩
  split
  · exact h.takePlaintext max
  · rw [if_pos h.state]
    exact h.receive max

end Holds

end InTouch
end TlsTransport
