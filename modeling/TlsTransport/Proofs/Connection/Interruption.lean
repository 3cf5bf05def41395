import TlsTransport.Connection
import TlsTransport.Proofs.Socket.Interruption

/-! # Interrupted calls of a bare socket

A bare socket does not repeat a call that was interrupted: its connection reports a failure, and
whoever made the request may make it again. That is all an interruption does. Between two failures
of this kind requests are answered as if nothing had been interrupted.

* `NetRequest.call`, `NetReply.of`: a request makes one socket call, whose answer decides the reply.
* `Connection.serve`: requests made in order; `Served.Interrupted`: one that failed because its
  call was interrupted.
* `Plain.Alike`: two bare sockets that differ in interruptions only.
* `Connection.serve_impeded`: an interruption costs the request that it hits, and nothing else.
-/

namespace TlsTransport

variable {ω ω' α : Type}

/-! ## Requests -/

/-- What is asked of a connection. -/
inductive NetRequest where
  | read (max : Nat)
  | write (bytes : Bytes)
  | close
  deriving DecidableEq

inductive NetReply where
  | read (result : Except NetError (Option Bytes))
  | wrote (result : Except NetError (Option Nat))
  | closed (result : Except NetError Bool)

/-- With what a request failed. -/
def NetReply.failure : NetReply → Option NetError
  | read (.error e) | wrote (.error e) | closed (.error e) => some e
  | _ => none

/-- What a request is told of the answer of its socket call. -/
def told (answer : Except IoError α) : Except NetError (Option α) :=
  match answer with
  | .ok v => .ok (some v)
  | .error e => if e.isBlock then .ok none else .error (.tls e.message)

/-- What to wait for after this answer of a call that goes in a direction. -/
def waitsAfter (answer : Except IoError α) (direction : Direction) : Option Direction :=
  match answer with
  | .ok _ => none
  | .error e => if e.isBlock then some direction else none

def NetReply.of : SocketCall → NetReply
  | .read _ answer => .read (told answer)
  | .write _ answer => .wrote (told answer)
  | .flush answer => .closed ((told answer).map Option.isSome)

def SocketCall.waits : SocketCall → Option Direction
  | read _ answer => waitsAfter answer .read
  | write _ answer => waitsAfter answer .write
  | flush answer => waitsAfter answer .write

/-- A request with the socket call it made, its reply, and the direction to wait for. -/
structure Served where
  request : NetRequest
  call : Option SocketCall
  reply : NetReply
  wants : Option Direction

/-- The socket call of the request was interrupted, and so the request failed with the text of an
interruption. -/
structure Served.Interrupted (entry : Served) : Prop where
  call : ∃ call, entry.call = some call ∧ call.interrupted = true
  failure : ∃ e : IoError, e.isInterruption = true ∧ entry.reply.failure = some (.tls e.message)
  wants : entry.wants = none

theorem NetReply.failure_of_interrupted {call : SocketCall} (h : call.interrupted = true) :
    ∃ e : IoError, e.isInterruption = true ∧
      (NetReply.of call).failure = some (.tls e.message) := by
  have htold : ∀ {α : Type} {answer : Except IoError α}, WriteAnswer.interrupts answer = true →
      ∃ e : IoError, e.isInterruption = true ∧ told answer = .error (.tls e.message) := by
    intro α answer hanswer
    obtain ⟨e, rfl, he⟩ := interrupts_iff.1 hanswer
    refine ⟨e, he, if_neg ?_⟩
    simp [IoError.isBlock_of_isInterruption he]
  cases call with
  | read | write | flush =>
    obtain ⟨e, he, hfailed⟩ := htold h
    refine ⟨e, he, ?_⟩
    rw [NetReply.of, hfailed]
    rfl

theorem SocketCall.waits_of_interrupted {call : SocketCall} (h : call.interrupted = true) :
    call.waits = none := by
  have hnothing : ∀ {α : Type} {answer : Except IoError α} {direction : Direction},
      WriteAnswer.interrupts answer = true → waitsAfter answer direction = none := by
    intro α answer direction hanswer
    obtain ⟨e, rfl, he⟩ := interrupts_iff.1 hanswer
    refine if_neg ?_
    simp [IoError.isBlock_of_isInterruption he]
  cases call <;> exact hnothing h

variable [Socket ω] [Socket ω']

/-- The socket call of a request. -/
def NetRequest.call (k : ω) : NetRequest → SocketCall × ω
  | read max => let r := Socket.read k max; (.read max r.1, r.2)
  | write bytes => let r := Socket.write k bytes; (.write bytes r.1, r.2)
  | close => let r := Socket.flush k; (.flush r.1, r.2)

/-- The call of a request over the second of two sockets was interrupted, and the first one need not
move, or it is the same. -/
theorem DelaysAll.call {R : ω → ω' → Prop} (hR : DelaysAll R) {k : ω} {k' : ω'} (hk : R k k')
    (request : NetRequest) : (request.call k').1.interrupted = true ∧ R k (request.call k').2 ∨
      (request.call k').1 = (request.call k).1 ∧ R (request.call k).2 (request.call k').2 := by
  cases request with
  | read max =>
    rcases hR.read hk max with ⟨he, hint, hnext⟩ | ⟨hsame, hnext⟩
    · exact .inl ⟨interrupts_iff.2 ⟨_, he, hint⟩, hnext⟩
    · exact .inr ⟨congrArg (SocketCall.read max) hsame, hnext⟩
  | write bytes =>
    rcases hR.write hk bytes with ⟨he, hint, hnext⟩ | ⟨hsame, hnext⟩
    · exact .inl ⟨interrupts_iff.2 ⟨_, he, hint⟩, hnext⟩
    · exact .inr ⟨congrArg (SocketCall.write bytes) hsame, hnext⟩
  | close =>
    rcases hR.flush hk with ⟨he, hint, hnext⟩ | ⟨hsame, hnext⟩
    · exact .inl ⟨interrupts_iff.2 ⟨_, he, hint⟩, hnext⟩
    · exact .inr ⟨congrArg SocketCall.flush hsame, hnext⟩

/-! ## Bare sockets -/

namespace Plain

omit [Socket ω]

def accepted (p : Plain ω) : Bytes := p.journal.reverse.flatMap SocketCall.accepted

/-- Two bare sockets that differ in interruptions only: in those that the second one reported, and
in those that its socket will report. -/
structure Alike (R : ω → ω' → Prop) (p : Plain ω) (p' : Plain ω') : Prop where
  stream : R p.stream p'.stream
  journal : Interspersed (·.interrupted = true) p.journal p'.journal

omit [Socket ω'] in
theorem Alike.accepted {R : ω → ω' → Prop} {p : Plain ω} {p' : Plain ω'} (h : Alike R p p') :
    p'.accepted = p.accepted :=
  h.journal.reverse.flatMap_eq fun _ => SocketCall.accepted_of_interrupted

end Plain

namespace Connection

def ask (c : Connection (Plain ω)) : NetRequest → NetReply × Connection (Plain ω)
  | .read max => let r := c.read max; (.read r.1, r.2)
  | .write bytes => let r := c.write bytes; (.wrote r.1, r.2)
  | .close => let r := c.close; (.closed r.1, r.2)

/-- Makes requests in order, and records how each was served. -/
def serve (c : Connection (Plain ω)) : List NetRequest → List Served × Connection (Plain ω)
  | [] => ([], c)
  | request :: requests =>
    let r := c.ask request
    let rest := r.2.serve requests
    (⟨request, r.2.transport.journal.head?, r.1, r.2.wants⟩ :: rest.1, rest.2)

theorem serve_requests (c : Connection (Plain ω)) (requests : List NetRequest) :
    (c.serve requests).1.map Served.request = requests := by
  induction requests generalizing c with
  | nil => rfl
  | cons request requests ih => exact congrArg (List.cons request) (ih _)

/-! ## One request -/

/-- A request was answered after this call, which left the socket in this state. -/
structure AnsweredBy (c : Connection (Plain ω)) (call : SocketCall) (k : ω)
    (r : NetReply × Connection (Plain ω)) : Prop where
  reply : r.1 = .of call
  wants : r.2.wants = call.waits
  stream : r.2.transport.stream = k
  journal : r.2.transport.journal = call :: c.transport.journal

theorem settle_answered (c : Connection (Plain ω)) (answer : Except IoError α) (k : ω)
    (call : SocketCall) (direction : Direction) :
    let r := c.settle ((c.transport.after k call).settle answer direction)
    r.1 = told answer ∧ r.2.wants = waitsAfter answer direction ∧ r.2.transport.stream = k ∧
      r.2.transport.journal = call :: c.transport.journal := by
  cases answer with
  | ok v => exact ⟨rfl, rfl, rfl, rfl⟩
  | error e =>
    unfold Plain.settle told waitsAfter
    by_cases hblock : e.isBlock = true
    · simp only [if_pos hblock]
      exact ⟨rfl, rfl, rfl, rfl⟩
    · simp only [if_neg hblock]
      exact ⟨rfl, rfl, rfl, rfl⟩

theorem ask_answered (c : Connection (Plain ω)) (request : NetRequest) :
    let made := request.call c.transport.stream
    c.AnsweredBy made.1 made.2 (c.ask request) := by
  cases request with
  | read max =>
    obtain ⟨hreply, hwants, hstream, hjournal⟩ :=
      c.settle_answered (Socket.read c.transport.stream max).1 _ (.read max _) .read
    exact ⟨congrArg NetReply.read hreply, hwants, hstream, hjournal⟩
  | write bytes =>
    obtain ⟨hreply, hwants, hstream, hjournal⟩ :=
      c.settle_answered (Socket.write c.transport.stream bytes).1 _ (.write bytes _) .write
    exact ⟨congrArg NetReply.wrote hreply, hwants, hstream, hjournal⟩
  | close =>
    obtain ⟨hreply, hwants, hstream, hjournal⟩ :=
      c.settle_answered (Socket.flush c.transport.stream).1 _ (.flush _) .write
    have hclosed := congrArg (Except.map Option.isSome) hreply
    exact ⟨congrArg NetReply.closed hclosed, hwants, hstream, hjournal⟩

/-- How a request is served that makes this call. -/
def entry (request : NetRequest) (call : SocketCall) : Served :=
  ⟨request, some call, .of call, call.waits⟩

theorem serve_cons (c : Connection (Plain ω)) (request : NetRequest) (requests : List NetRequest) :
    (c.serve (request :: requests)).1 =
      entry request (request.call c.transport.stream).1 ::
        ((c.ask request).2.serve requests).1 := by
  have hanswered := c.ask_answered request
  simp only [serve, entry, hanswered.reply, hanswered.wants, hanswered.journal, List.head?_cons]

theorem entry_interrupted {call : SocketCall} (h : call.interrupted = true) (request : NetRequest) :
    (entry request call).Interrupted :=
  ⟨⟨call, rfl, h⟩, NetReply.failure_of_interrupted h, call.waits_of_interrupted h⟩

theorem serve_entries (c : Connection (Plain ω)) (requests : List NetRequest) :
    ∀ served ∈ (c.serve requests).1, ∃ request call, served = entry request call := by
  induction requests generalizing c with
  | nil => exact fun _ h => absurd h List.not_mem_nil
  | cons request requests ih =>
    rw [serve_cons]
    intro served hserved
    rcases List.mem_cons.1 hserved with rfl | hrest
    · exact ⟨request, _, rfl⟩
    · exact ih _ served hrest

/-! ## Two sockets -/

variable {R : ω → ω' → Prop} {c : Connection (Plain ω)} {c' : Connection (Plain ω')}

/-- Over the second socket some requests fail because they are interrupted, and the others are
served as over the first. -/
theorem serve_interspersed (hR : DelaysAll R) (h : Plain.Alike R c.transport c'.transport)
    (requests : List NetRequest) : ∃ done : List NetRequest, done.Sublist requests ∧
      Interspersed Served.Interrupted (c.serve done).1 (c'.serve requests).1 ∧
      Plain.Alike R (c.serve done).2.transport (c'.serve requests).2.transport := by
  -- The first connection waits whenever a request over the second one is interrupted.
  induction requests generalizing c c' with
  | nil => exact ⟨[], .slnil, .nil, h⟩
  | cons request requests ih =>
    have hone := c.ask_answered request
    have hone' := c'.ask_answered request
    rw [serve_cons]
    rcases hR.call h.stream request with ⟨hint, hnext⟩ | ⟨hsame, hnext⟩
    · have hafter : Plain.Alike R c.transport (c'.ask request).2.transport :=
        ⟨by rw [hone'.stream]; exact hnext, by rw [hone'.journal]; exact .more hint h.journal⟩
      obtain ⟨done, hsub, htrace, hend⟩ := ih hafter
      exact ⟨done, hsub.cons _, .more (entry_interrupted hint request) htrace, hend⟩
    · have hafter : Plain.Alike R (c.ask request).2.transport (c'.ask request).2.transport := by
        refine ⟨by rw [hone.stream, hone'.stream]; exact hnext, ?_⟩
        rw [hone.journal, hone'.journal, hsame]
        exact .keep _ h.journal
      obtain ⟨done, hsub, htrace, hend⟩ := ih hafter
      refine ⟨request :: done, hsub.cons_cons _, ?_, hend⟩
      rw [serve_cons, hsame]
      exact .keep _ htrace

/-- What interruptions do to requests that are made over the second of two connections. -/
structure Impeded (c : Connection (Plain ω)) (c' : Connection (Plain ω'))
    (requests : List NetRequest) : Prop where
  /-- Every interrupted call fails the request that made it. -/
  failed : ∀ served ∈ (c'.serve requests).1, ∀ call, served.call = some call →
    call.interrupted = true → served.Interrupted
  /-- The other requests are answered as they are over the first connection without those. -/
  others : ∃ done : List NetRequest, done.Sublist requests ∧
    Interspersed Served.Interrupted (c.serve done).1 (c'.serve requests).1 ∧
    (c'.serve requests).2.transport.accepted = (c.serve done).2.transport.accepted
  unimpeded : (∀ served ∈ (c'.serve requests).1, ∀ call, served.call = some call →
      call.interrupted = false) →
    (c'.serve requests).1 = (c.serve requests).1 ∧
    (c'.serve requests).2.transport.accepted = (c.serve requests).2.transport.accepted

/-- A bare socket that is interrupted now and then answers as it does without that, but for one
failed request for each interruption. -/
theorem serve_impeded (hR : DelaysAll R) {k : ω} {k' : ω'} (hk : R k k')
    (requests : List NetRequest) :
    Impeded (ofTransport (Plain.ofSocket k)) (ofTransport (Plain.ofSocket k')) requests := by
  have hstart : Plain.Alike R (ofTransport (Plain.ofSocket k)).transport
      (ofTransport (Plain.ofSocket k')).transport := ⟨hk, .nil⟩
  obtain ⟨done, hsub, htrace, hend⟩ := serve_interspersed hR hstart requests
  refine ⟨fun served hserved call hcall hint => ?_, ⟨done, hsub, htrace, hend.accepted⟩,
    fun hnone => ?_⟩
  · obtain ⟨request, made, rfl⟩ := serve_entries _ requests served hserved
    injection hcall with hcall
    rw [hcall]
    exact entry_interrupted hint request
  · have hsame := htrace.eq_of_forall_not fun served hserved hint => by
      obtain ⟨call, hcall, hcut⟩ := hint.call
      rw [hnone served hserved call hcall] at hcut
      cases hcut
    have hdone : done = requests := by
      rw [← serve_requests (ofTransport (Plain.ofSocket k)) done, ← hsame, serve_requests]
    rw [hdone] at hsame hend
    exact ⟨hsame, hend.accepted⟩

/-- A socket that has one byte to give, and takes two. -/
def steady : ScriptedSocket := .ofScript [.ok [1]] [.ok 2] []

/-- The same socket, interrupted before each of these answers and at a flush. -/
def shaken : ScriptedSocket :=
  .ofScript [.error (.bare .interrupted), .ok [1]] [.error (.system 4), .ok 2]
    [.error (.bare .interrupted)]

theorem shaken_interrupted : ScriptedSocket.Interrupted steady shaken :=
  ⟨.more rfl (.keep _ .nil), .more rfl (.keep _ .nil), .more rfl .nil, rfl, rfl⟩

theorem shaken_impeded :
    ScriptedSocket.Interrupted steady shaken ∧
    Impeded (ofTransport (Plain.ofSocket steady)) (ofTransport (Plain.ofSocket shaken))
      [.read 4, .read 4, .write [7, 8, 9], .close] :=
  ⟨shaken_interrupted, serve_impeded ScriptedSocket.delays shaken_interrupted _⟩

/-- The interruption of a read is reported as a failure of the stream. -/
theorem shaken_fails :
    ScriptedSocket.Interrupted steady shaken ∧
    ((ofTransport (Plain.ofSocket steady)).serve [.read 4]).1.map Served.reply =
      [.read (.ok (some [1]))] ∧
    ((ofTransport (Plain.ofSocket shaken)).serve [.read 4]).1.map Served.reply =
      [.read (.error (.tls "operation interrupted"))] :=
  ⟨shaken_interrupted, rfl, rfl⟩

end Connection
end TlsTransport
