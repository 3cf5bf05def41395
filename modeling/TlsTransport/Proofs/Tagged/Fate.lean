import TlsTransport.Proofs.Tagged.Cutting
import TlsTransport.Session.Basic

/-! # What becomes of a stream

How a session of the tagged-record protocol ends is decided by the bytes that it is given. A `Flow`
is what a session has come to, with all that is left of its input in one piece; `Flow.fate` is where
this input leads.

* `Flow.shake`, `Flow.goOn`: through a handshake, and on from there through data and new handshakes.
* `Flow.fate`: from any state to the end.
* `Flow.shake_waiting`, `Flow.goOn_waiting`: what was used of the first part of the input can be left
  out; the others say the same where the engine stops within the first part.
-/

namespace TlsTransport.Tagged

/-- What a session has come to: all that was sent and received, and all input that is left. -/
structure Flow where
  policy : CipherPolicy
  /-- Whether the stream ends after the input. -/
  ended : Bool
  engine : Engine
  state : SessionState
  version : Option TlsVersion
  renegotiations : Nat
  failure : Option (Failure Fault)
  sent : Bytes
  received : Bytes
  input : Bytes

namespace Flow

/-- Fails. -/
def fail (f : Flow) (why : Failure Fault) : Flow := { f with state := .error, failure := some why }

/-- Waits for more than the input: in vain, if the stream ends. -/
def await (f : Flow) : Flow := if f.ended then f.fail .eof else f

/-- After this much of a handshake. -/
def shaken (f : Flow) (t : Engine.Shaking) : Flow :=
  { f with engine := t.engine, input := t.rest, sent := f.sent ++ t.sent }

/-- After this much decryption. -/
def revealed (f : Flow) (t : Engine.Revealing) : Flow :=
  { f with engine := t.engine, input := t.rest, received := f.received ++ t.plaintext }

/-- The negotiated suite, if the policy blocks it. -/
def blockedSuite? (f : Flow) : Option String :=
  (TlsTransport.Engine.cipherSuite f.engine).filter fun suite => !f.policy.allows suite

/-- Checks what was agreed on and connects. -/
def conclude (f : Flow) : Flow :=
  match f.blockedSuite? with
  | some suite => f.fail (.cipher suite)
  | none =>
    match TlsTransport.Engine.version f.engine with
    | none => f.fail (.misuse .noVersion)
    | some v => { f with state := .connected, version := some v }

/-- Through a handshake. -/
def shake (f : Flow) : Flow :=
  let t := f.engine.shake f.input
  match t.answer with
  | .error e => (f.shaken t).fail (.native e)
  | .ok .complete => (f.shaken t).conclude
  | .ok .needsInput => { f.shaken t with state := .handshakeRead }.await

theorem await_of_ended {f : Flow} (h : f.ended = true) : f.await = f.fail .eof := by
  rw [await, if_pos h]

theorem await_of_open {f : Flow} (h : f.ended = false) : f.await = f := by
  rw [await, h, if_neg (by simp)]

theorem renegotiations_await (f : Flow) : f.await.renegotiations = f.renegotiations := by
  unfold await
  split <;> rfl

theorem renegotiations_conclude (f : Flow) : f.conclude.renegotiations = f.renegotiations := by
  unfold conclude
  split
  · rfl
  · split <;> rfl

theorem renegotiations_shake (f : Flow) : f.shake.renegotiations = f.renegotiations := by
  unfold shake
  simp only
  split
  · rfl
  · exact renegotiations_conclude _
  · exact renegotiations_await _

/-- From a connected session through data and new handshakes. -/
def goOn (f : Flow) : Flow :=
  if f.state = .connected then
    let t := f.engine.reveal f.input
    match t.answer with
    | .error e => (f.revealed t).fail (.native e)
    | .ok .needsInput => (f.revealed t).await
    | .ok .closeNotify =>
      { f.revealed t with state := .closed, sent := f.sent ++ Record.encode ⟨close, []⟩ }
    | .ok .renegotiate =>
      let g := { f.revealed t with renegotiations := f.renegotiations + 1 }
      if f.renegotiations < maxRenegotiations then g.shake.goOn else g.fail .renegotiations
  else f
termination_by maxRenegotiations - f.renegotiations
decreasing_by
  rw [renegotiations_shake]
  simp only
  omega

/-- Where the input leads. -/
def fate (f : Flow) : Flow :=
  match f.state with
  | .initialized => { f with engine := { f.engine with started := true } }.shake.goOn
  | .handshakeWrite | .handshakeRead | .handshakeDone => f.shake.goOn
  | _ => f.goOn

/-! ## Through a handshake -/

theorem conclude_blocked {f : Flow} {suite : String} (h : f.blockedSuite? = some suite) :
    f.conclude = f.fail (.cipher suite) := by
  unfold conclude
  rw [h]

theorem conclude_unversioned {f : Flow} (h : f.blockedSuite? = none)
    (hv : TlsTransport.Engine.version f.engine = none) :
    f.conclude = f.fail (.misuse .noVersion) := by
  unfold conclude
  rw [h]
  simp only [hv]

theorem conclude_agreed {f : Flow} {v : TlsVersion} (h : f.blockedSuite? = none)
    (hv : TlsTransport.Engine.version f.engine = some v) :
    f.conclude = { f with state := .connected, version := some v } := by
  unfold conclude
  rw [h]
  simp only [hv]

/-- A handshake leads to the same wherever it stands. -/
theorem shake_state (f : Flow) (state : SessionState) :
    { f with state := state }.shake = f.shake := by
  unfold shake
  rfl

section Shake

variable {f : Flow} {arrived unread : Bytes}

/-- When the engine fails within what arrived, the rest is not needed. -/
theorem shake_failed {e : Fault} (h : (f.engine.shake arrived).answer = .error e)
    (hi : f.input = arrived ++ unread) :
    f.shake = (f.shaken ((f.engine.shake arrived).before unread)).fail (.native e) := by
  have hall := Engine.shake_settled (by rw [h]; simp) unread
  unfold shake
  rw [hi, hall]
  simp only [Engine.Shaking.before, h]

/-- What was used of a handshake can be left out. -/
theorem shake_waiting (h : (f.engine.shake arrived).answer = .ok .needsInput)
    (hi : f.input = arrived ++ unread) :
    f.shake = (f.shaken ((f.engine.shake arrived).before unread)).shake := by
  have hall := Engine.shake_resume h unread
  unfold shake
  rw [hi, hall]
  simp only [shaken, Engine.Shaking.before, Engine.Shaking.after, List.append_assoc]

/-- A finished handshake has nothing left to do. -/
theorem shake_complete (h : (f.engine.shake arrived).answer = .ok .complete)
    (hi : f.input = arrived ++ unread) :
    f.shake = (f.shaken ((f.engine.shake arrived).before unread)).shake := by
  have hall := Engine.shake_settled (by rw [h]; simp) unread
  have hover := Engine.shake_over h ((f.engine.shake arrived).rest ++ unread)
  unfold shake
  rw [hi, hall]
  simp only [shaken, Engine.Shaking.before, h, hover, List.append_nil]

/-- A handshake that is over is checked. -/
theorem shake_concluded (h : f.engine.shake f.input = ⟨.ok .complete, f.engine, f.input, []⟩) :
    f.shake = f.conclude := by
  unfold shake
  rw [h]
  simp only [shaken, List.append_nil]

/-- A handshake that has used all it can waits. -/
theorem shake_idle (h : f.engine.shake f.input = ⟨.ok .needsInput, f.engine, f.input, []⟩) :
    f.shake = { f with state := .handshakeRead }.await := by
  unfold shake
  rw [h]
  simp only [shaken, List.append_nil]

end Shake

/-! ## On from there -/

section GoOn

variable {f : Flow} {arrived unread : Bytes}

theorem goOn_stays (h : f.state ≠ .connected) : f.goOn = f := by
  rw [goOn, if_neg h]

/-- When the engine fails within what arrived, the rest is not needed. -/
theorem goOn_failed {e : Fault} (hs : f.state = .connected)
    (h : (f.engine.reveal arrived).answer = .error e) (hi : f.input = arrived ++ unread) :
    f.goOn = (f.revealed ((f.engine.reveal arrived).before unread)).fail (.native e) := by
  have hall := Engine.reveal_settled (by rw [h]; simp) unread
  rw [goOn, if_pos hs, hi, hall]
  simp only [Engine.Revealing.before, h]

theorem goOn_closed (hs : f.state = .connected)
    (h : (f.engine.reveal arrived).answer = .ok .closeNotify) (hi : f.input = arrived ++ unread) :
    f.goOn = { f.revealed ((f.engine.reveal arrived).before unread) with
      state := .closed, sent := f.sent ++ Record.encode ⟨close, []⟩ } := by
  have hall := Engine.reveal_settled (by rw [h]; simp) unread
  rw [goOn, if_pos hs, hi, hall]
  simp only [Engine.Revealing.before, h]

theorem goOn_reopened (hs : f.state = .connected)
    (h : (f.engine.reveal arrived).answer = .ok .renegotiate) (hi : f.input = arrived ++ unread)
    (hr : f.renegotiations < maxRenegotiations) :
    f.goOn = { f.revealed ((f.engine.reveal arrived).before unread) with
      renegotiations := f.renegotiations + 1 }.shake.goOn := by
  have hall := Engine.reveal_settled (by rw [h]; simp) unread
  rw [goOn, if_pos hs, hi, hall]
  simp only [Engine.Revealing.before, h, if_pos hr]

theorem goOn_overrun (hs : f.state = .connected)
    (h : (f.engine.reveal arrived).answer = .ok .renegotiate) (hi : f.input = arrived ++ unread)
    (hr : ¬ f.renegotiations < maxRenegotiations) :
    f.goOn = { f.revealed ((f.engine.reveal arrived).before unread) with
      renegotiations := f.renegotiations + 1 }.fail .renegotiations := by
  have hall := Engine.reveal_settled (by rw [h]; simp) unread
  rw [goOn, if_pos hs, hi, hall]
  simp only [Engine.Revealing.before, h, if_neg hr]

/-- What was decrypted can be left out. -/
theorem goOn_waiting (hs : f.state = .connected)
    (h : (f.engine.reveal arrived).answer = .ok .needsInput) (hi : f.input = arrived ++ unread) :
    f.goOn = (f.revealed ((f.engine.reveal arrived).before unread)).goOn := by
  obtain ⟨hengine, hall⟩ := Engine.reveal_resume h unread
  have hs' : (f.revealed ((f.engine.reveal arrived).before unread)).state = .connected := hs
  rw [goOn, if_pos hs, hi, hall, goOn, if_pos hs']
  simp only [revealed, Engine.Revealing.before, Engine.Revealing.after, List.append_assoc, hengine]

/-- A session that has decrypted all it can waits. -/
theorem goOn_idle (hs : f.state = .connected)
    (h : f.engine.reveal f.input = ⟨.ok .needsInput, f.engine, f.input, []⟩) :
    f.goOn = f.await := by
  rw [goOn, if_pos hs, h]
  simp only [revealed, List.append_nil]

end GoOn

/-! ## From any state -/

theorem fate_of_inHandshake {f : Flow} (h : f.state.inHandshake = true) :
    f.fate = f.shake.goOn := by
  unfold fate
  cases hs : f.state with
  | handshakeWrite | handshakeRead | handshakeDone => rfl
  | _ => simp [hs, SessionState.inHandshake] at h

theorem fate_of_connected {f : Flow} (h : f.state = .connected) : f.fate = f.goOn := by
  unfold fate
  simp only [h]

/-- What is over has met its fate. -/
theorem fate_of_over {f : Flow} (h : f.state = .closed ∨ f.state = .error) : f.fate = f := by
  have hgo : f.goOn = f := goOn_stays (by rcases h with h | h <;> rw [h] <;> simp)
  unfold fate
  rcases h with h | h <;> simp only [h] <;> exact hgo

end Flow
end TlsTransport.Tagged
