import TlsTransport.Proofs.Pair.Transfer

/-! # Both ends of a pipe

What a call does to one session is what it does to both, as the other session sees the pipe that the
call left. So two sessions are in touch with each other as long as each call keeps one of them so.

* `Pair.callOn`: a call on either side; `Pair.seen`: a session as the next call on it finds it.
* `Joined`: both sessions are in touch; `Joined.call` and `Joined.rewire` keep them so.
-/

namespace TlsTransport

open Tagged (Phase encodeAll carried Agrees)

/-- Two sessions of the tagged-record protocol. -/
abbrev TaggedPair := Pair Tagged.Engine Tagged.Engine Tagged.Fault Tagged.Fault

namespace Pair

variable {α : Type}

/-- The session of a side. -/
def sessionOf (p : TaggedPair) : Side → TaggedSession
  | .client => p.client.transport
  | .server => p.server.transport

/-- A session over a pipe as it is now. -/
def withPipe (s : TaggedSession) (pipe : Pipe) : TaggedSession :=
  { s with socket := s.socket.map fun e => { e with pipe := pipe } }

/-- The session of a side, as the next call on it finds it. -/
def seen (p : TaggedPair) (who : Side) : TaggedSession := withPipe (p.sessionOf who) p.pipe

/-- A call on either side. -/
def callOn (p : TaggedPair) (who : Side) (call : TaggedSession → α × TaggedSession) :
    α × TaggedPair :=
  match who with
  | .client => p.onClient (onSession call)
  | .server => p.onServer (onSession call)

variable {p : TaggedPair} {who : Side} {f : TaggedSession → α × TaggedSession} {pipe : Pipe}

@[simp] theorem callOn_fst : (p.callOn who f).1 = (f (p.seen who)).1 := by
  cases who <;> rfl

theorem withPipe_withPipe (s : TaggedSession) (before pipe : Pipe) :
    withPipe (withPipe s before) pipe = withPipe s pipe := by
  simp only [withPipe, Option.map_map]
  rfl

theorem seen_rewire (p : TaggedPair) (pipe : Pipe) (side : Side) :
    ({ p with pipe := pipe } : TaggedPair).seen side = withPipe (p.seen side) pipe := by
  rw [seen, seen, withPipe_withPipe]
  cases side <;> rfl

theorem pipe_of_seen (h : (p.seen who).socket = some ⟨pipe, who⟩) : pipe = p.pipe := by
  rw [seen, withPipe, Option.map_eq_some_iff] at h
  obtain ⟨e, -, he⟩ := h
  injection he with he
  exact he.symm

theorem withPipe_self {s : TaggedSession} (h : s.socket = some ⟨pipe, who⟩) :
    withPipe s pipe = s := by
  rw [withPipe, h, Option.map_some, ← h]

theorem pipe_callOn (h : (f (p.seen who)).2.socket = some ⟨pipe, who⟩) :
    (p.callOn who f).2.pipe = pipe := by
  have hafter : ∀ {c : Connection TaggedSession} {before : Pipe},
      c.transport.socket = some ⟨pipe, who⟩ → pipeAfter c before = pipe := by
    intro c before hc
    rw [pipeAfter, hc]
  cases who with
  | client => exact hafter h
  | server => exact hafter h

theorem seen_callOn (h : (f (p.seen who)).2.socket = some ⟨pipe, who⟩) :
    (p.callOn who f).2.seen who = { (f (p.seen who)).2 with journal := [] } := by
  rw [seen, pipe_callOn h]
  have hkept : withPipe { (f (p.seen who)).2 with journal := [] } pipe =
    { (f (p.seen who)).2 with journal := [] } := withPipe_self h
  cases who with
  | client => exact hkept
  | server => exact hkept

theorem seen_other_callOn (h : (f (p.seen who)).2.socket = some ⟨pipe, who⟩) :
    (p.callOn who f).2.seen who.other = withPipe (p.seen who.other) pipe := by
  have htwice : withPipe (p.seen who.other) pipe = withPipe (p.sessionOf who.other) pipe :=
    withPipe_withPipe ..
  rw [htwice, seen, pipe_callOn h]
  cases who with
  | client => rfl
  | server => rfl

end Pair

/-! ## Both sessions -/

/-- Both sessions of a pair are in touch, with these records on their way from each. -/
structure Joined (p : TaggedPair) (flow : Side → List Tagged.Record) : Prop where
  touch : ∀ who, InTouch who (.of (p.seen who.other)) (flow who) (flow who.other) (p.seen who)
  stage : ∀ who, Stage (p.seen who)

@[simp] theorem Side.other_other (who : Side) : who.other.other = who := by
  cases who <;> rfl

theorem Side.eq_or_other (who side : Side) : side = who ∨ side = who.other := by
  cases who <;> cases side <;> simp [Side.other]

theorem Side.other_ne (who : Side) : who.other ≠ who := by
  cases who <;> simp [Side.other]

namespace InTouch

variable {who : Side} {outs ins : List Tagged.Record} {s t : TaggedSession}

/-- What one end knows of both streams, the other end knows. -/
theorem flip {pipe : Pipe} (h : InTouch who (.of t) outs ins s)
    (hs : s.socket = some ⟨pipe, who⟩) (hp : Peaceful who.other t)
    (ht : t.socket = some ⟨pipe, who.other⟩) : InTouch who.other (.of s) ins outs t := by
  obtain ⟨pipe', hs', hopen, hout, hin⟩ := h.linked.link
  rw [hs] at hs'
  injection hs' with hs'
  injection hs' with hs'
  subst hs'
  refine ⟨hp, ⟨pipe, ht, hopen, ?_, ?_⟩, h.agrees.flip, h.fits.2, h.fits.1⟩
  · rw [← hin, List.append_assoc]
    rfl
  · rw [← hout, List.append_assoc, Pipe.incoming, Side.other_other]
    rfl

end InTouch

namespace Joined

open Pair

variable {α : Type} {p : TaggedPair} {flow : Side → List Tagged.Record} {who : Side}

/-- The stream from a side: what the other end took off the wire, the wire, and what is pending. -/
theorem outgoing (h : Joined p flow) (who : Side) : (p.seen who.other).rawRead.data ++
    ((p.pipe.outgoing who).bytes ++ (p.seen who).pendingWrite.data) = encodeAll (flow who) := by
  obtain ⟨pipe, hsocket, -, hout, -⟩ := (h.touch who).linked.link
  obtain rfl : pipe = p.pipe := pipe_of_seen hsocket
  exact hout

/-- A call that keeps its session in touch keeps both so. -/
theorem call (h : Joined p flow) {call : TaggedSession → α × TaggedSession}
    {outs ins : List Tagged.Record}
    (ht : InTouch who (.of (p.seen who.other)) outs ins (call (p.seen who)).2)
    (hst : Stage (call (p.seen who)).2) :
    Joined (p.callOn who call).2 fun side => if side = who then outs else ins := by
  obtain ⟨pipe, hsocket, -⟩ := ht.linked.link
  obtain ⟨before, hother, -⟩ := (h.touch who.other).linked.link
  have hown : InTouch who (.of (p.seen who.other)) outs ins
      { (call (p.seen who)).2 with journal := [] } :=
    ht.congr ⟨rfl, rfl, rfl, rfl, rfl, rfl, rfl, rfl, rfl⟩ rfl rfl rfl rfl
  have hpeaceful : Peaceful who.other (withPipe (p.seen who.other) pipe) :=
    (h.touch who.other).peaceful.congr ⟨rfl, rfl, rfl, rfl, rfl, rfl, rfl, rfl, rfl⟩
  have hmoved : (withPipe (p.seen who.other) pipe).socket = some ⟨pipe, who.other⟩ := by
    rw [withPipe, hother]
    rfl
  -- The other session did not move, but it sees the pipe that the call left.
  have hback := hown.flip (t := withPipe (p.seen who.other) pipe) hsocket hpeaceful hmoved
  constructor
  · intro side
    rcases who.eq_or_other side with rfl | rfl
    · rw [seen_callOn hsocket, seen_other_callOn hsocket, if_pos rfl, if_neg side.other_ne]
      exact hown
    · rw [Side.other_other, seen_callOn hsocket, seen_other_callOn hsocket, if_pos rfl,
        if_neg who.other_ne]
      exact hback
  · intro side
    rcases who.eq_or_other side with rfl | rfl
    · rw [seen_callOn hsocket]
      exact hst.congr rfl rfl rfl rfl rfl rfl
    · rw [seen_other_callOn hsocket]
      exact (h.stage who.other).congr rfl rfl rfl rfl rfl rfl

/-- Both stay in touch while the limits of the wires change. -/
theorem rewire (h : Joined p flow) {pipe : Pipe} (hopen : p.pipe.Open → pipe.Open)
    (hbytes : ∀ side, (pipe.outgoing side).bytes = (p.pipe.outgoing side).bytes) :
    Joined { p with pipe := pipe } flow := by
  constructor
  · intro side
    rw [seen_rewire p pipe side, seen_rewire p pipe side.other]
    have ht := h.touch side
    refine ⟨ht.peaceful.congr ⟨rfl, rfl, rfl, rfl, rfl, rfl, rfl, rfl, rfl⟩, ?_, ht.agrees, ht.fits⟩
    obtain ⟨before, hsocket, hbefore, hout, hin⟩ := ht.linked.link
    obtain rfl : before = p.pipe := pipe_of_seen hsocket
    refine ⟨pipe, ?_, hopen hbefore, by rw [hbytes]; exact hout, ?_⟩
    · rw [withPipe, hsocket]
      rfl
    · rw [Pipe.incoming, hbytes]
      exact hin
  · intro side
    rw [seen_rewire p pipe side]
    exact (h.stage side).congr rfl rfl rfl rfl rfl rfl

end Joined
end TlsTransport
