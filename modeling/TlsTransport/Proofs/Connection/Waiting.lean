import TlsTransport.Proofs.Connection.Interruption
import TlsTransport.Proofs.Session.Cause
import TlsTransport.Proofs.Session.Direction
import TlsTransport.Script.Engine
import TlsTransport.Script.Socket

/-! # What a connection waits for

A connection waits for a direction exactly if its last request was not finished, and for the right
one, whatever was waited for before. A request that failed says what it ran into itself.

* `Handled`, `Connection.handleAll`: requests with what came of them, made in order over any
  transport.
* `Handled.Plain`, `Handled.Encrypted`: what a request over a bare socket comes to, and one over a
  session.
* `Connection.handleAll_truthful`: every request of every sequence comes to that.
-/

namespace TlsTransport

variable {σ ω κ ε α τ : Type}

/-! ## Requests over any transport -/

/-- Whether the request has to be repeated. -/
def NetReply.unfinished : NetReply → Bool
  | read (.ok none) | wrote (.ok none) | closed (.ok false) => true
  | _ => false

/-- The direction in which a request moves bytes. -/
def NetRequest.direction : NetRequest → Direction
  | read _ => .read
  | write _ | close => .write

/-- The call of a session that a request makes. -/
def NetRequest.operation : NetRequest → Call ω
  | read max => .read max
  | write bytes => .write bytes
  | close => .close

/-- A request with the connection before it, the reply, and the connection after it. -/
structure Handled (τ : Type) where
  before : Connection τ
  request : NetRequest
  reply : NetReply
  after : Connection τ

/-- What a request tells of the status of its operation, and what is waited for then. -/
inductive Handled.Tells [Transport τ] (x : Handled τ) : Status α Unit → Prop where
  | ok {a : α} (hreply : x.reply.unfinished = false) (hfailure : x.reply.failure = none)
      (hwants : x.after.wants = none) : x.Tells (.ok a)
  | wouldBlock (hreply : x.reply.unfinished = true) (hfailure : x.reply.failure = none)
      (hwants : x.after.wants = some (Transport.direction x.after.transport)) : x.Tells .wouldBlock
  | error (hreply : x.reply.unfinished = false)
      (hfailure : x.reply.failure = some (.tls (Transport.lastError x.after.transport)))
      (hwants : x.after.wants = none) : x.Tells (.error ())

namespace Connection

section Handling

variable [Transport τ]

/-- Makes a request. -/
def handle (c : Connection τ) : NetRequest → Handled τ
  | .read max => let r := c.read max; ⟨c, .read max, .read r.1, r.2⟩
  | .write bytes => let r := c.write bytes; ⟨c, .write bytes, .wrote r.1, r.2⟩
  | .close => let r := c.close; ⟨c, .close, .closed r.1, r.2⟩

/-- Makes requests in order. -/
def handleAll (c : Connection τ) : List NetRequest → List (Handled τ)
  | [] => []
  | request :: requests => c.handle request :: (c.handle request).after.handleAll requests

-- The invariant is of the transport alone: what the connection remembers is replaced each time.
theorem forall_handled {P : Handled τ → Prop} {I : τ → Prop}
    (hstep : ∀ (c : Connection τ) request, I c.transport →
      P (c.handle request) ∧ I (c.handle request).after.transport)
    {c : Connection τ} (h : I c.transport) (requests : List NetRequest) :
    ∀ x ∈ c.handleAll requests, P x := by
  induction requests generalizing c with
  | nil => exact fun _ hx => absurd hx List.not_mem_nil
  | cons request requests ih =>
    obtain ⟨hone, hafter⟩ := hstep c request h
    exact List.forall_mem_cons.2 ⟨hone, ih hafter⟩

/-- A reply that keeps what was answered tells of it. -/
theorem settle_tells (c : Connection τ) (request : NetRequest)
    (reply : Except NetError (Option α) → NetReply)
    (hok : ∀ a, (reply (.ok a)).unfinished = a.isNone ∧ (reply (.ok a)).failure = none)
    (herror : ∀ e, (reply (.error e)).unfinished = false ∧ (reply (.error e)).failure = some e)
    (r : Status α Unit × τ) :
    (c.settle r).2.transport = r.2 ∧
      (⟨c, request, reply (c.settle r).1, (c.settle r).2⟩ : Handled τ).Tells r.1 := by
  rcases r with ⟨v | _ | _, t⟩
  · exact ⟨rfl, .ok (hok (some v)).1 (hok (some v)).2 rfl⟩
  · exact ⟨rfl, .wouldBlock (hok none).1 (hok none).2 rfl⟩
  · exact ⟨rfl, .error (herror _).1 (herror _).2 rfl⟩

theorem handle_read (c : Connection τ) (max : Nat) :
    (c.handle (.read max)).after.transport = (Transport.receive c.transport max).2 ∧
      (c.handle (.read max)).Tells (Transport.receive c.transport max).1 :=
  c.settle_tells (.read max) .read (by rintro (_ | _) <;> exact ⟨rfl, rfl⟩) (fun _ => ⟨rfl, rfl⟩) _

theorem handle_write (c : Connection τ) (bytes : Bytes) :
    (c.handle (.write bytes)).after.transport = (Transport.send c.transport bytes).2 ∧
      (c.handle (.write bytes)).Tells (Transport.send c.transport bytes).1 :=
  c.settle_tells (.write bytes) .wrote (by rintro (_ | _) <;> exact ⟨rfl, rfl⟩)
    (fun _ => ⟨rfl, rfl⟩) _

theorem handle_close (c : Connection τ) :
    (c.handle .close).after.transport = (Transport.shutdown c.transport).2 ∧
      (c.handle .close).Tells (Transport.shutdown c.transport).1 :=
  c.settle_tells .close (fun a => .closed (a.map Option.isSome))
    (by rintro (_ | _) <;> exact ⟨rfl, rfl⟩) (fun _ => ⟨rfl, rfl⟩) _

end Handling
end Connection

/-! ## Bare sockets -/

namespace Handled

/-- A request over a bare socket makes one call. It is unfinished exactly if that would block, and
the direction to wait for is its own; it fails exactly with the error of the call. -/
structure Plain [Socket ω] (x : Handled (Plain ω)) : Prop where
  unfinished : x.reply.unfinished = (x.request.call x.before.transport.stream).1.blocks
  wants : x.after.wants = if x.reply.unfinished then some x.request.direction else none
  failure : x.reply.failure = ((x.request.call x.before.transport.stream).1.refusal.filter
    fun e => !e.isBlock).map fun e => .tls e.message

end Handled

namespace SocketCall

/-- What the reply to a socket call says of its answer. -/
theorem reply_of (call : SocketCall) : (NetReply.of call).unfinished = call.blocks ∧
    (NetReply.of call).failure =
      (call.refusal.filter fun e => !e.isBlock).map fun e => .tls e.message := by
  have herror : ∀ {α : Type} (e : IoError), (told (.error e) : Except NetError (Option α)) =
      if e.isBlock then .ok none else .error (.tls e.message) := fun _ => rfl
  rcases call with ⟨max, e | v⟩ | ⟨offered, e | n⟩ | e | u
  case read.ok | write.ok | flush.ok => exact ⟨rfl, rfl⟩
  all_goals
    cases hb : e.isBlock <;>
      simp [NetReply.of, herror, hb, blocks, refusal, refusalIn, NetReply.unfinished,
        NetReply.failure, Except.map, Option.filter]

/-- The direction in which a call moves bytes. -/
def direction : SocketCall → Direction
  | read .. => .read
  | write .. | flush _ => .write

theorem waits_eq (call : SocketCall) :
    call.waits = if call.blocks then some call.direction else none := by
  rcases call with ⟨max, e | v⟩ | ⟨offered, e | n⟩ | e | u <;> rfl

end SocketCall

theorem NetRequest.call_waits [Socket ω] (request : NetRequest) (k : ω) :
    (request.call k).1.waits =
      if (request.call k).1.blocks then some request.direction else none := by
  have hdirection : (request.call k).1.direction = request.direction := by cases request <;> rfl
  rw [SocketCall.waits_eq, hdirection]

namespace Connection

theorem handle_eq_ask [Socket ω] (c : Connection (Plain ω)) (request : NetRequest) :
    c.handle request = ⟨c, request, (c.ask request).1, (c.ask request).2⟩ := by
  cases request <;> rfl

theorem handle_plain [Socket ω] (c : Connection (Plain ω)) (request : NetRequest) :
    (c.handle request).Plain := by
  have hasked := c.ask_answered request
  obtain ⟨hunfinished, hfailure⟩ := (request.call c.transport.stream).1.reply_of
  have hwaits := request.call_waits c.transport.stream
  rw [handle_eq_ask]
  refine ⟨?_, ?_, ?_⟩
  · rw [hasked.reply, hunfinished]
  · rw [hasked.wants, hasked.reply, hunfinished, hwaits]
  · rw [hasked.reply, hfailure]

end Connection

/-! ## Sessions -/

open Session

section Recording

variable [Engine σ ε] [Socket ω] {good : α → Session σ ω ε → Prop}
  {waits : Session σ ω ε → Prop} {s : Session σ ω ε} {r : Status α Unit × Session σ ω ε}

/-- A call that fails records one failure, unless the session had failed before. -/
theorem Answers.recorded (h : Answers s good waits r) (hs : s.state ≠ .error)
    (hr : r.1 = .error ()) : ∃ f, r.2.lastFailure = some f ∧ r.2.failures = s.failures ++ [f] := by
  cases h with
  | ended h =>
    cases h with
    | ok | wouldBlock => cases hr
    | error hfalls => exact hfalls.fallen.recorded
  | lost herr => exact absurd herr hs
  | declined f => exact ⟨f, lastFailure_fail s f, failures_fail s f⟩

theorem Answers.unrecorded (h : Answers s good waits r) (hr : r.1 ≠ .error ()) :
    r.2.failures = s.failures := by
  cases h with
  | ended h =>
    cases h with
    | ok h | wouldBlock h => exact h.clean.failures
    | error => exact absurd rfl hr
  | lost | declined => exact absurd rfl hr

end Recording

namespace Session

theorem direction_eq (s : Session σ ω ε) :
    s.direction = if s.pendingWrite.data = [] then .read else .write := by
  by_cases h : s.pendingWrite.data = []
  · rw [if_pos h, direction_read h]
  · rw [if_neg h, direction_write h]

theorem lastErrorText_eq [Engine σ ε] {s : Session σ ω ε} {f : Failure ε}
    (h : s.lastFailure = some f) : s.lastErrorText = f.message (Engine.describe σ) := by
  rw [lastErrorText, h]

variable [Engine σ ε] [Socket ω] {s : Session σ ω ε}

/-! ### A session that failed before -/

theorem writeData_of_error (h : s.state = .error) (payload : Bytes) :
    s.writeData payload = (.error (), s) := by
  simp [writeData, h, SessionState.inHandshake]

theorem readData_of_error (h : s.state = .error) {max : Nat}
    (hr : (s.readData max).1 = .error ()) : (s.readData max).2 = s := by
  unfold readData at hr ⊢
  by_cases hmax : max = 0
  · rw [if_pos hmax]
  rw [if_neg hmax] at hr ⊢
  by_cases hp : (!s.plaintext.isEmpty) = true
  · rw [if_pos hp] at hr
    cases hr
  · simp [hp, h, SessionState.inHandshake]

theorem close_of_error (h : s.state = .error) : s.close = (.error (), s) := by
  simp [close, h]

end Session

namespace Handled

/-- A request over a session. If it is unfinished, the session waits to write exactly if ciphertext
is still unsent. If it fails, it says what the session ran into now, which is then recorded once; a
session that failed before stays as it was, and says what was recorded last. -/
structure Encrypted [Engine σ ε] [Socket ω] (x : Handled (Session σ ω ε)) : Prop where
  wants : x.after.wants = if x.reply.unfinished then
    some (if x.after.transport.pendingWrite.data = [] then .read else .write) else none
  failed : ∀ e, x.reply.failure = some e → ∃ f, e = .tls (f.message (Engine.describe σ)) ∧
    (x.before.transport.state ≠ .error ∧
        x.after.transport.failures = x.before.transport.failures ++ [f] ∧
        RanInto x.request.operation x.before.transport x.after.transport f ∨
      x.before.transport.state = .error ∧ x.after.transport = x.before.transport ∧
        x.before.transport.failures.getLast? = some f)
  clean : x.reply.failure = none →
    x.after.transport.failures = x.before.transport.failures

variable [Engine σ ε] [Socket ω] {good : α → Session σ ω ε → Prop}
  {waits : Session σ ω ε → Prop}

theorem Encrypted.of_tells {x : Handled (Session σ ω ε)} {r : Status α Unit × Session σ ω ε}
    (hk : Kept x.before.transport) (hafter : x.after.transport = r.2) (htells : x.Tells r.1)
    (hanswers : Answers x.before.transport good waits r)
    (hlost : x.before.transport.state = .error → r.1 = .error () → r.2 = x.before.transport)
    (hran : x.before.transport.state ≠ .error → r.1 = .error () →
      ∃ f, RanInto x.request.operation x.before.transport r.2 f) : x.Encrypted := by
  have hquiet : r.1 ≠ .error () → x.after.transport.failures = x.before.transport.failures := by
    rw [hafter]
    exact hanswers.unrecorded
  rcases r with ⟨status, t⟩
  cases htells with
  | ok hreply hfailure hwants =>
    refine ⟨by rw [hwants, hreply]; rfl, fun e he => ?_, fun _ => hquiet (by simp)⟩
    rw [hfailure] at he
    cases he
  | wouldBlock hreply hfailure hwants =>
    refine ⟨?_, fun e he => ?_, fun _ => hquiet (by simp)⟩
    · rw [hwants, hreply, if_pos rfl]
      exact congrArg some (direction_eq x.after.transport)
    · rw [hfailure] at he
      cases he
  | error hreply hfailure hwants =>
    refine ⟨by rw [hwants, hreply]; rfl, fun e he => ?_, fun hnone => ?_⟩
    · obtain rfl := Option.some.inj (hfailure.symm.trans he)
      by_cases herr : x.before.transport.state = .error
      · obtain ⟨f, hlast⟩ := Option.isSome_iff_exists.1 (hk.lost herr).2
        have hsame := hafter.trans (hlost herr rfl)
        refine ⟨f, ?_, .inr ⟨herr, hsame, hk.recorded ▸ hlast⟩⟩
        rw [hsame]
        exact congrArg NetError.tls (lastErrorText_eq hlast)
      · obtain ⟨f, hran⟩ := hran herr rfl
        obtain ⟨f', hlast, hall⟩ := hanswers.recorded herr rfl
        obtain ⟨u, -, -, hfailed⟩ := id hran
        obtain rfl := Option.some.inj (hfailed.lastFailure.symm.trans hlast)
        rw [hafter]
        exact ⟨f, congrArg NetError.tls (lastErrorText_eq hlast), .inl ⟨herr, hall, hran⟩⟩
    · rw [hfailure] at hnone
      cases hnone

end Handled

namespace Connection

variable [Engine σ ε] [Socket ω]

theorem handle_encrypted (c : Connection (Session σ ω ε)) (request : NetRequest)
    (h : Kept c.transport ∧ Gated c.transport) : (c.handle request).Encrypted ∧
      Kept (c.handle request).after.transport ∧ Gated (c.handle request).after.transport := by
  obtain ⟨hk, hg⟩ := h
  cases request with
  | read max =>
    obtain ⟨hafter, htells⟩ := c.handle_read max
    have htrue : (c.handle (.read max)).Encrypted := .of_tells hk hafter htells
      (readData_ends hk.atRest max) (fun herr => readData_of_error herr) (readData_ranInto max)
    rw [hafter]
    exact ⟨htrue, hk.perform hg (.read max), hg.perform (.read max)⟩
  | write bytes =>
    obtain ⟨hafter, htells⟩ := c.handle_write bytes
    have htrue : (c.handle (.write bytes)).Encrypted := .of_tells hk hafter htells
      (writeData_ends c.transport bytes)
      (fun herr _ => congrArg Prod.snd (writeData_of_error herr bytes)) (writeData_ranInto bytes)
    rw [hafter]
    exact ⟨htrue, hk.perform hg (.write bytes), hg.perform (.write bytes)⟩
  | close =>
    obtain ⟨hafter, htells⟩ := c.handle_close
    have htrue : (c.handle .close).Encrypted := .of_tells hk hafter htells
      (close_ends c.transport) (fun herr _ => congrArg Prod.snd (close_of_error herr)) close_ranInto
    rw [hafter]
    exact ⟨htrue, hk.perform hg .close, hg.perform .close⟩

/-- Whatever requests were made before over a bare socket, or over a session after whatever calls,
each one leaves the connection waiting exactly if it is unfinished, and in its own direction, and
fails with what it ran into. -/
theorem handleAll_truthful [Socket κ] :
    (∀ (k : κ) requests, ∀ x ∈ (ofTransport (Plain.ofSocket k)).handleAll requests, x.Plain) ∧
    ∀ (engine : σ) side verifyPeer policy (calls : List (Call ω)) requests,
      let s : Session σ ω ε := ((ofEngine engine side verifyPeer policy).run calls).2
      ∀ x ∈ (ofTransport s).handleAll requests, x.Encrypted := by
  refine ⟨fun k requests => ?_, fun engine side verifyPeer policy calls requests => ?_⟩
  · exact forall_handled (I := fun _ => True) (fun c request _ => ⟨c.handle_plain request, trivial⟩)
      trivial requests
  · intro s
    have hfresh : Kept (ofEngine engine side verifyPeer policy : Session σ ω ε) :=
      .fresh engine side verifyPeer policy
    have hgate : Gated (ofEngine engine side verifyPeer policy : Session σ ω ε) := .of_unbegun rfl
    exact forall_handled (I := fun t => Kept t ∧ Gated t) handle_encrypted
      ⟨hfresh.run hgate calls, hgate.run calls⟩ requests

/-- A client that is connected, over a socket that takes nothing at first. -/
def stalledClient : Session (ScriptedEngine false) ScriptedSocket String :=
  ((ofEngine ⟨promptScript⟩ .client true .default).run
    [.init (.ofScript [] [.error (.bare .wouldBlock)] []), .connect "localhost"]).2

/-- A bare socket that blocks a write and then fails a read, and the stalled client, which is given
another payload than the one it could not send. -/
theorem stalled_requests_tell :
    let k : ScriptedSocket :=
      .ofScript [.error (.bare .connectionReset)] [.error (.bare .wouldBlock)] []
    let c := ofTransport (Plain.ofSocket k)
    let x := c.handle (.write [1, 2])
    let y := x.after.handle (.read 4)
    let d := ofTransport stalledClient
    let v := d.handle (.write [1, 2, 3])
    let w := v.after.handle (.write [9])
    (y ∈ c.handleAll [.write [1, 2], .read 4] ∧ x.after.wants = some .write ∧
      y.after.wants = none ∧ y.reply.failure = some (.tls "connection reset")) ∧
    (w ∈ d.handleAll [.write [1, 2, 3], .write [9]] ∧ v.after.wants = some .write ∧
      w.after.wants = none ∧
      RanInto (.write [9]) v.after.transport w.after.transport .otherPayload ∧
      w.reply.failure =
        some (.tls "a different buffer was passed while a write was in progress")) := by
  intro k c x y d v w
  obtain ⟨hplain, hencrypted⟩ := handleAll_truthful (σ := ScriptedEngine false)
    (ω := ScriptedSocket) (κ := ScriptedSocket) (ε := String)
  have hx : x ∈ c.handleAll [.write [1, 2], .read 4] := by simp [handleAll, x]
  have hy : y ∈ c.handleAll [.write [1, 2], .read 4] := by simp [handleAll, x, y]
  have hv : v ∈ d.handleAll [.write [1, 2, 3], .write [9]] := by simp [handleAll, v]
  have hw : w ∈ d.handleAll [.write [1, 2, 3], .write [9]] := by simp [handleAll, v, w]
  have hstalled := hencrypted ⟨promptScript⟩ .client true .default
    [.init (.ofScript [] [.error (.bare .wouldBlock)] []), .connect "localhost"]
  have hfailure : w.reply.failure =
      some (.tls "a different buffer was passed while a write was in progress") := by
    decide +kernel
  obtain ⟨f, -, ⟨-, hall, hran⟩ | ⟨herr, -⟩⟩ := (hstalled _ w hw).failed _ hfailure
  · have hbefore : w.before.transport.failures = [] := by decide +kernel
    have hafter : w.after.transport.failures = [.otherPayload] := by decide +kernel
    obtain rfl : Failure.otherPayload = f := by
      have hsame := hafter.symm.trans hall
      simpa [hbefore] using hsame
    exact ⟨⟨hy, (hplain k _ x hx).wants.trans (by decide +kernel),
      (hplain k _ y hy).wants.trans (by decide +kernel),
      (hplain k _ y hy).failure.trans (by decide +kernel)⟩,
      hw, (hstalled _ v hv).wants.trans (by decide +kernel),
      (hstalled _ w hw).wants.trans (by decide +kernel), hran, hfailure⟩
  · exact absurd herr (by decide +kernel)

end Connection
end TlsTransport
