import TlsTransport.Proofs.Session.Turns

/-! # Reading a journal

A session keeps every call it makes in its journal. This module reads off it what crossed the border
to the socket and to the engine, in the order in which it did.

* `gather`: what the entries of a journal contribute, oldest first; `latest`: what the newest entry
  says that says something.
* `Session.accepted`, `delivered`: the bytes that the socket took and gave.
* `Session.consumed`, `emitted`, `revealed`: the bytes that the engine took, put out and decrypted.
* `Session.encryptions`: the pieces that the engine was given to encrypt.
* `Silent`: between two moments nothing was moved.
-/

namespace TlsTransport

variable {σ ω ε α : Type}

/-- What the entries of a journal contribute, oldest first. -/
def gather (f : Event ε → List α) (journal : List (Event ε)) : List α := journal.reverse.flatMap f

@[simp] theorem gather_nil (f : Event ε → List α) : gather f [] = [] := by simp [gather]

theorem gather_append (f : Event ε → List α) (newer older : List (Event ε)) :
    gather f (newer ++ older) = gather f older ++ gather f newer := by
  simp [gather]

@[simp] theorem gather_cons (f : Event ε → List α) (e : Event ε) (older : List (Event ε)) :
    gather f (e :: older) = gather f older ++ f e := by
  simp [gather]

/-- What the newest entry says of which something is said, or else the default. -/
def latest (f : Event ε → Option α) (default : α) : List (Event ε) → α
  | [] => default
  | e :: older => (f e).getD (latest f default older)

theorem latest_of_none {f : Event ε → Option α} {newer : List (Event ε)}
    (h : ∀ e ∈ newer, f e = none) (default : α) (older : List (Event ε)) :
    latest f default (newer ++ older) = latest f default older := by
  induction newer with
  | nil => rfl
  | cons e newer ih =>
    have hrest := ih fun e' he' => h e' (List.mem_cons_of_mem e he')
    rw [List.cons_append, latest, h e List.mem_cons_self]
    exact hrest

/-! ## Entries -/

/-- What an entry contributes if it is a socket call. -/
def Event.ofSocket (f : SocketCall → List α) : Event ε → List α
  | .socket call => f call
  | _ => []

/-- What an entry contributes if it is an engine call. -/
def Event.ofEngine (f : EngineCall ε → List α) : Event ε → List α
  | .engine call => f call
  | _ => []

/-- The bytes that a socket took. -/
def SocketCall.accepted : SocketCall → Bytes
  | write offered (.ok n) => offered.take n
  | _ => []

/-- The bytes that a socket gave. -/
def SocketCall.delivered : SocketCall → Bytes
  | read _ (.ok bytes) => bytes
  | _ => []

/-- The piece that an engine was given to encrypt, and whether it did. -/
def EngineCall.encryption : EngineCall ε → List (Bytes × Bool)
  | encrypt chunk _ (.ok _) => [(chunk, true)]
  | encrypt chunk _ (.error _) => [(chunk, false)]
  | _ => []

theorem gather_socket (f : SocketCall → List α) (calls : List SocketCall) :
    gather (Event.ofSocket (ε := ε) f) (calls.map Event.socket).reverse = calls.flatMap f := by
  simp [gather, List.flatMap_map, Event.ofSocket]

theorem gather_engine_of_socket (f : EngineCall ε → List α) (calls : List SocketCall) :
    gather (Event.ofEngine f) (calls.map Event.socket).reverse = [] := by
  simp [gather, List.flatMap_map, Event.ofEngine]

theorem gather_socket_of_notices (f : SocketCall → List α) (notices : List (Notice ε)) :
    gather (Event.ofSocket f) (notices.map Event.notice) = [] := by
  simp [gather, ← List.map_reverse, List.flatMap_map, Event.ofSocket]

theorem gather_engine_of_notices (f : EngineCall ε → List α) (notices : List (Notice ε)) :
    gather (Event.ofEngine f) (notices.map Event.notice) = [] := by
  simp [gather, ← List.map_reverse, List.flatMap_map, Event.ofEngine]

namespace Session

/-! ## What a session did -/

/-- All that the socket took. -/
def accepted (s : Session σ ω ε) : Bytes := gather (Event.ofSocket SocketCall.accepted) s.journal

/-- All that the socket gave. -/
def delivered (s : Session σ ω ε) : Bytes := gather (Event.ofSocket SocketCall.delivered) s.journal

/-- All that the engine took from what arrived. -/
def consumed (s : Session σ ω ε) : Bytes := gather (Event.ofEngine (·.traffic.consumed)) s.journal

/-- All that the engine put out. -/
def emitted (s : Session σ ω ε) : Bytes := gather (Event.ofEngine (·.traffic.emitted)) s.journal

/-- All that the engine decrypted. -/
def revealed (s : Session σ ω ε) : Bytes := gather (Event.ofEngine (·.traffic.revealed)) s.journal

/-- The pieces that the engine was given to encrypt, and whether it did. -/
def encryptions (s : Session σ ω ε) : List (Bytes × Bool) :=
  gather (Event.ofEngine EngineCall.encryption) s.journal

/-! ## Moments between which nothing was moved -/

/-- The buffers are the same, and nothing was done but reported. -/
structure Silent (s t : Session σ ω ε) : Prop where
  pendingWrite : t.pendingWrite = s.pendingWrite
  rawRead : t.rawRead = s.rawRead
  plaintext : t.plaintext = s.plaintext
  journal : ∃ notices : List (Notice ε), t.journal = notices.map Event.notice ++ s.journal

namespace Silent

variable {s t u : Session σ ω ε}

theorem trans (h : Silent s t) (k : Silent t u) : Silent s u := by
  obtain ⟨first, hfirst⟩ := h.journal
  obtain ⟨second, hsecond⟩ := k.journal
  refine ⟨k.pendingWrite.trans h.pendingWrite, k.rawRead.trans h.rawRead,
    k.plaintext.trans h.plaintext, second ++ first, ?_⟩
  rw [hsecond, hfirst, List.map_append, List.append_assoc]

theorem note (s : Session σ ω ε) (n : Notice ε) : Silent s (s.note n) :=
  ⟨rfl, rfl, rfl, [n], rfl⟩

theorem setState (s : Session σ ω ε) (next : SessionState) : Silent s (s.setState next) := by
  rw [setState_eq]
  refine ⟨rfl, rfl, rfl, if s.state = next then [] else [.stateChanged s.state next], ?_⟩
  by_cases h : s.state = next <;> simp [h]

theorem fail (s : Session σ ω ε) (f : Failure ε) : Silent s (s.fail f) := by
  rw [fail_eq]
  refine ⟨rfl, rfl, rfl, if s.state = .closed ∨ s.state = .error then [.failed s.state f]
    else [.stateChanged s.state .error, .failed s.state f], ?_⟩
  by_cases h : s.state = .closed ∨ s.state = .error <;> simp [h]

theorem connectedAs [Engine σ ε] (s : Session σ ω ε) (v : TlsVersion) :
    Silent s (s.connectedAs v) := by
  obtain ⟨remarks, -, h⟩ := s.connectedAs_frame v
  rw [h]
  refine ⟨rfl, rfl, rfl, (if s.state = .connected then [] else
    [.stateChanged s.state .connected]) ++ remarks, ?_⟩
  by_cases hs : s.state = .connected <;> simp [hs]

theorem reopen (s : Session σ ω ε) : Silent s s.reopen := by
  rw [reopen_eq]
  refine ⟨rfl, rfl, rfl, (if s.state = .handshakeRead then []
    else [.stateChanged s.state .handshakeRead]) ++ [.renegotiationRequested s.renegotiations], ?_⟩
  by_cases h : s.state = .handshakeRead <;> simp [h]

theorem gather_socket (h : Silent s t) (f : SocketCall → List α) :
    gather (Event.ofSocket f) t.journal = gather (Event.ofSocket f) s.journal := by
  obtain ⟨notices, hj⟩ := h.journal
  rw [hj, gather_append, gather_socket_of_notices, List.append_nil]

theorem gather_engine (h : Silent s t) (f : EngineCall ε → List α) :
    gather (Event.ofEngine f) t.journal = gather (Event.ofEngine f) s.journal := by
  obtain ⟨notices, hj⟩ := h.journal
  rw [hj, gather_append, gather_engine_of_notices, List.append_nil]

end Silent
end Session
end TlsTransport
