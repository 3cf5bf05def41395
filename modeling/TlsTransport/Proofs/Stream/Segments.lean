import TlsTransport.Proofs.Stream.Course

/-! # The cut of a stream does not matter

A session that is driven until its input is used up comes to what its input leads to, and the input
is all bytes of the stream, however they were cut. So two cuts of one stream have the same outcome.

* `openUp_guided`, `readOut_met`, `drive_met`: a driven session meets its fate.
* `Outcome`: what can be seen of a driven session.
* `drive_segments`: two cuts of one stream.
-/

namespace TlsTransport

open Tagged (Flow)

namespace Session

variable {s t : FedSession} {handed : Bytes}

/-! ## Opening -/

/-- How a handshake call ends. -/
inductive Reached (t : FedSession) : Status TlsVersion String → Prop where
  | connected (v : TlsVersion) (hs : t.state = .connected) : Reached t (.ok v)
  | waits (hs : t.state = .handshakeRead) : Reached t .wouldBlock
  | failed (text : String) (hs : t.state = .error) : Reached t (.error text)

theorem handshakeStatus_guided (h : Orderly s) (hm : s.MayStep) :
    Guided s s.handshakeStatus.2 ∧ Reached s.handshakeStatus.2 s.handshakeStatus.1 := by
  have hs : s.state = .initialized ∨ s.state.inHandshake = true := hm.elim .inr fun hi => .inl hi.1
  obtain ⟨hguided, -⟩ := runHandshake_guided h hs
  rcases hr : s.runHandshake with ⟨v | _ | _, t⟩
  · rw [hr] at hguided
    rw [handshakeStatus_of_ok hs hr]
    exact ⟨hguided, .connected v (runHandshake_ok hr)⟩
  · rw [hr] at hguided
    rw [handshakeStatus_of_wouldBlock hs hr]
    exact ⟨hguided, .waits (Spends.runHandshake_waits hr).1⟩
  · rw [hr] at hguided
    rw [handshakeStatus_of_error hs hr]
    exact ⟨hguided, .failed _ (runHandshake_error hr hm)⟩

/-- A handshake call leads to where the input leads, whatever host it names. -/
theorem shakeHands_guided (host : String) (h : Orderly s)
    (hs : s.state = .initialized ∨ s.state.inHandshake = true) :
    Guided s (s.shakeHands host).2 ∧ Reached (s.shakeHands host).2 (s.shakeHands host).1 := by
  cases hside : s.side with
  | client =>
    generalize hu : (if s.hostname = none ∧ s.state = .initialized then
      { s with hostname := some host } else s) = u
    have hcall : s.shakeHands host = u.handshakeStatus := by
      rw [shakeHands, hside]
      exact (if_neg (not_not_intro hside)).trans (congrArg handshakeStatus hu)
    have hnamed : Guided s u ∧ u.MayStep := by
      rw [← hu]
      split
      · rename_i hnone
        refine ⟨⟨⟨⟨h.bound, h.trusting, h.eof, h.peerClosed⟩, h.written, fun hin => ?_⟩,
          fun _ => rfl⟩, .inr ⟨hnone.2, by simp⟩⟩
        have hstate : s.state.inHandshake = true := hin
        rw [hnone.2] at hstate
        cases hstate
      · rename_i hnone
        refine ⟨.refl h, ?_⟩
        rcases hs with hs | hs
        · exact .inr ⟨hs, fun _ hn => hnone ⟨hn, hs⟩⟩
        · exact .inl hs
    obtain ⟨hguided, hreached⟩ := handshakeStatus_guided hnamed.1.orderly hnamed.2
    rw [hcall]
    exact ⟨hnamed.1.trans hguided, hreached⟩
  | server =>
    have hcall : s.shakeHands host = s.handshakeStatus := by
      rw [shakeHands, hside]
      exact if_neg (not_not_intro hside)
    have hm : s.MayStep := by
      rcases hs with hs | hs
      · exact .inr ⟨hs, fun hc => by rw [hside] at hc; cases hc⟩
      · exact .inl hs
    rw [hcall]
    exact handshakeStatus_guided h hm

theorem openUp_guided (host : String) (h : Orderly s)
    (hs : s.state = .initialized ∨ s.state.inHandshake = true) :
    Guided s (s.openUp host).2 ∧ Reached (s.openUp host).2 (s.openUp host).1 ∧
      ((s.openUp host).1 = .wouldBlock → (s.openUp host).2.isDry = true) := by
  fun_induction openUp host s with
  | case1 s t hcall hdry =>
    have hguided := shakeHands_guided host h hs
    rw [hcall] at hguided
    exact ⟨hguided.1, hguided.2, fun _ => hdry⟩
  | case2 s t hcall hdry ih =>
    obtain ⟨hguided, hreached⟩ := shakeHands_guided host h hs
    rw [hcall] at hguided hreached
    obtain ⟨hlater, hend, hwaits⟩ := ih hguided.orderly
      (by cases hreached with | waits hread => exact .inr (by rw [hread]; rfl))
    exact ⟨hguided.trans hlater, hend, hwaits⟩
  | case3 s status t hno hcall =>
    have hguided := shakeHands_guided host h hs
    rw [hcall] at hguided
    exact ⟨hguided.1, hguided.2, fun hwaits => absurd hwaits hno⟩

/-! ## Reading on -/

/-- A session is over, or its stream is used up. -/
def Stopped (s : FedSession) : Prop := s.state = .closed ∨ s.state = .error ∨ s.isDry = true

/-- What a session that has handed out these bytes has come to is this flow, nothing of it is still
to be written, and no more comes. -/
structure Met (goal : Flow) (handed : Bytes) (s : FedSession) : Prop where
  flow : s.flow handed = goal
  written : s.pendingWrite.data = []
  stopped : Stopped s

theorem Met.of_over (h : Orderly s) (hs : s.state = .closed ∨ s.state = .error) :
    Met (s.flow handed).fate handed s :=
  ⟨(Flow.fate_of_over hs).symm, h.written (by rcases hs with hs | hs <;> rw [hs] <;> simp),
    hs.imp_right .inl⟩

theorem Met.of_rested (h : Orderly s) (hp : Rested s) (hdry : s.isDry = true) :
    Met (s.flow handed).fate handed s := by
  refine ⟨(fate_of_rested h hp hdry).symm, h.written ?_, .inr (.inr hdry)⟩
  cases hp with
  | reading hs | shaking hs | closed hs => rw [hs]; simp

theorem readOut_met {sizes : Nat → Nat} (h : Orderly s) (hr : Readable s)
    (hpos : ∀ n, 0 < sizes n) (handed : Bytes) :
    Met (s.flow handed).fate (handed ++ (s.readOut sizes).1) (s.readOut sizes).2 := by
  -- Along the reads, with what was handed out before them as `handed`.
  fun_induction readOut sizes s generalizing handed with
  | case1 sizes s first rest t hread later ih =>
    have hserved : Served s (.ok (first :: rest), t) := hread ▸ readData_served h hr (hpos 0)
    have hreadable : Readable t := by cases hserved.answered with | handed _ _ hnext => exact hnext
    have hlater := ih hserved.orderly hreadable (fun n => hpos (n + 1)) (handed ++ first :: rest)
    rw [List.append_assoc] at hlater
    rw [← hserved.fate]
    exact hlater
  | case2 sizes s t hread hdry =>
    have hserved : Served s (.wouldBlock, t) := hread ▸ readData_served h hr (hpos 0)
    have hrested : Rested t := by cases hserved.answered with | waits hp => exact hp
    rw [← hserved.fate]
    exact .of_rested hserved.orderly hrested hdry
  | case3 sizes s t hread hdry ih =>
    have hserved : Served s (.wouldBlock, t) := hread ▸ readData_served h hr (hpos 0)
    have hrested : Rested t := by cases hserved.answered with | waits hp => exact hp
    have hlater := ih hserved.orderly hrested.readable (fun n => hpos (n + 1)) handed
    rw [← hserved.fate]
    simpa only [Answer.handed, List.append_nil] using hlater
  | case4 sizes s t hread =>
    have hserved : Served s (.ok [], t) := hread ▸ readData_served h hr (hpos 0)
    have hclosed : t.state = .closed := by cases hserved.answered with | ended hs => exact hs
    rw [← hserved.fate]
    exact .of_over hserved.orderly (.inl hclosed)
  | case5 sizes s u t hread =>
    have hserved : Served s (.error u, t) := hread ▸ readData_served h hr (hpos 0)
    have herror : t.state = .error := by cases hserved.answered with | failed hs => exact hs
    rw [← hserved.fate]
    exact .of_over hserved.orderly (.inr herror)

/-- A driven session meets the fate of its input. -/
theorem drive_met (host : String) {sizes : Nat → Nat} (h : Orderly s)
    (hs : s.state = .initialized ∨ s.state.inHandshake = true) (hpos : ∀ n, 0 < sizes n) :
    Met (s.flow []).fate (s.drive host sizes).1 (s.drive host sizes).2 := by
  obtain ⟨hguided, hreached, hwaits⟩ := openUp_guided host h hs
  unfold drive
  rcases hopen : s.openUp host with ⟨status, t⟩
  rw [hopen] at hguided hreached hwaits
  rw [← hguided.fate]
  cases hreached with
  | waits hread =>
    have hdry := hwaits rfl
    exact ⟨(fate_of_handshakeRead hguided.orderly hread hdry).symm,
      hguided.orderly.written (by rw [hread]; simp), .inr (.inr hdry)⟩
  | connected v hs => exact readOut_met hguided.orderly (.connected hs) hpos []
  | failed text hs => exact readOut_met hguided.orderly (.left (.inr hs)) hpos []

end Session

/-! ## Two cuts of one stream -/

/-- What can be seen of a driven session. -/
structure Outcome where
  state : SessionState
  version : Option TlsVersion
  renegotiations : Nat
  /-- The text of the last error. -/
  errorText : String
  /-- What the socket took. -/
  sent : Bytes
  /-- What was handed out, and the plaintext after it. -/
  received : Bytes
  /-- The input that was not consumed. -/
  rest : Bytes
  deriving DecidableEq

namespace Session

/-- The outcome for a session that has handed out these bytes. -/
def outcome (handed : Bytes) (s : FedSession) : Outcome where
  state := s.state
  version := s.version
  renegotiations := s.renegotiations
  errorText := s.lastErrorText
  sent := s.feed.taken
  received := handed ++ s.plaintext.data
  rest := s.rawRead.data ++ s.feed.content

/-- A session around an engine that trusts its peer, bound to a socket that gives a stream in these
pieces. -/
def onStream (e : Tagged.Engine) (side : Side) (policy : CipherPolicy) (pieces : List Piece)
    (ended : Bool) : FedSession :=
  ((ofEngine e side false policy).init ⟨pieces, ended, []⟩).2

theorem onStream_orderly (e : Tagged.Engine) (side : Side) (policy : CipherPolicy)
    (pieces : List Piece) (ended : Bool) : Orderly (onStream e side policy pieces ended) where
  bound := rfl
  trusting := rfl
  eof heof := by cases heof
  peerClosed hp := by cases hp
  written _ := rfl
  poised hin := by cases hin

/-- Once all is written, the outcome can be read off what a session has come to. -/
theorem outcome_of_met {goal : Flow} {handed bytes : Bytes} {s t : FedSession}
    (h : Met goal handed s) (k : Met goal bytes t) : s.outcome handed = t.outcome bytes := by
  have hflow := h.flow.trans k.flow.symm
  have hsent := congrArg Flow.sent hflow
  have hfailure : s.lastFailure = t.lastFailure := congrArg Flow.failure hflow
  simp only [flow, h.written, k.written, List.append_nil] at hsent
  have htext : s.lastErrorText = t.lastErrorText := by rw [lastErrorText, lastErrorText, hfailure]
  unfold outcome
  rw [htext, hsent, show s.state = t.state from congrArg Flow.state hflow,
    show s.version = t.version from congrArg Flow.version hflow,
    show s.renegotiations = t.renegotiations from congrArg Flow.renegotiations hflow,
    show handed ++ s.plaintext.data = bytes ++ t.plaintext.data from
      congrArg Flow.received hflow,
    show s.rawRead.data ++ s.feed.content = t.rawRead.data ++ t.feed.content from
      congrArg Flow.input hflow]

/-- Two sessions that are given the same stream in whatever pieces, with refusals in between, and
are driven with whatever hosts and buffers until they stop, come to the same. -/
theorem drive_segments (e : Tagged.Engine) (side : Side) (policy : CipherPolicy) (ended : Bool)
    {pieces pieces' : List Piece} (hbytes : pieces.flatMap Piece.bytes = pieces'.flatMap Piece.bytes)
    (host host' : String) {sizes sizes' : Nat → Nat} (hpos : ∀ n, 0 < sizes n)
    (hpos' : ∀ n, 0 < sizes' n) :
    let r := (onStream e side policy pieces ended).drive host sizes
    let r' := (onStream e side policy pieces' ended).drive host' sizes'
    Stopped r.2 ∧ Stopped r'.2 ∧ r.2.outcome r.1 = r'.2.outcome r'.1 := by
  have hsame : (onStream e side policy pieces ended).flow [] =
      (onStream e side policy pieces' ended).flow [] := by
    have hinput : (onStream e side policy pieces ended).feed.content =
        (onStream e side policy pieces' ended).feed.content := hbytes
    unfold flow
    rw [hinput]
    rfl
  have hfirst := drive_met host (onStream_orderly e side policy pieces ended) (.inl rfl) hpos
  have hsecond := drive_met host' (onStream_orderly e side policy pieces' ended) (.inl rfl) hpos'
  rw [hsame] at hfirst
  exact ⟨hfirst.stopped, hsecond.stopped, outcome_of_met hfirst hsecond⟩

/-- What a server sends: its part of a handshake and some data, twice, and then a closing notice and
a byte after it. -/
def visit : Bytes :=
  [⟨Tagged.helloDone, []⟩, ⟨Tagged.data, [104, 105]⟩, ⟨Tagged.helloRequest, []⟩,
    ⟨Tagged.helloDone, []⟩, ⟨Tagged.data, [33]⟩, ⟨Tagged.close, []⟩].flatMap
      Tagged.Record.encode ++ [9]

/-- The same a byte at a time, each after a refusal. -/
def sliced (bytes : Bytes) : List Piece :=
  bytes.flatMap fun b => [.refusal (.bare .wouldBlock) (.inl rfl), .arrival b []]

/-- In one piece and read in one, and sliced and read a byte at a time. -/
theorem visit_segments :
    let e := Tagged.Engine.ofSide .client
    let whole := (onStream e .client .default (Piece.ofBytes visit) true).drive "a" fun _ => 64
    let parts := (onStream e .client .default (sliced visit) true).drive "b" fun _ => 1
    (Stopped whole.2 ∧ Stopped parts.2 ∧ whole.2.outcome whole.1 = parts.2.outcome parts.1) ∧
      (parts.2.state = .closed ∧ parts.2.renegotiations = 1 ∧ parts.1 = [104, 105, 33]) :=
  ⟨drive_segments (Tagged.Engine.ofSide .client) .client .default true (by decide) "a" "b"
    (fun _ => by decide) (fun _ => by decide), by decide +kernel⟩

end Session
end TlsTransport
