import TlsTransport.Proofs.Pair.Joined

/-! # Delivery, exactly once

A client and a server over a pipe, each with an account of what its calls answered. Whatever the
schedule of their calls and however the wires are limited meanwhile, no call fails, and what one
side has read is the beginning of what the other side has offered.

* `Move`, `Exchange.play`: a schedule.
* `Exchange.Admissible`: data only flow after the handshake, and a write is repeated until it ends.
* `Exchange.Sound`: what every admissible move keeps.
* `Exchange.Delivered`: what is known of delivery at every moment of an admissible schedule.
-/

namespace TlsTransport

open Tagged (Phase encodeAll carried Agrees)

/-! ## Schedules -/

/-- What can happen to a client and a server over a pipe. -/
inductive Move where
  | call (who : Side) (c : Call Pipe.End)
  /-- From now on a side can write so many bytes. -/
  | budget (who : Side) (limit : Option Nat)
  /-- From now on one read of a side takes so many bytes. -/
  | chunk (who : Side) (limit : Option Nat)

/-- What the calls of one side came to so far. -/
structure Account where
  /-- A handshake call ended well. -/
  agreed : Bool
  /-- The payloads whose write ended well. -/
  written : List Bytes
  /-- The payload of a write that has to be repeated. -/
  current : Option Bytes
  /-- What reads answered. -/
  received : Bytes

namespace Account

/-- An account without any call. -/
def empty : Account := ⟨false, [], none, []⟩

/-- All bytes that writes were offered. -/
def offered (a : Account) : Bytes := a.written.flatten ++ a.current.getD []

/-- An account after one more call. -/
def after (a : Account) (c : Call Pipe.End) (answer : Answer) : Account :=
  match c, answer with
  | .write payload, .wrote (.ok _) => { a with written := a.written ++ [payload], current := none }
  | .write payload, _ => { a with current := some payload }
  | _, .agreed (.ok _) => { a with agreed := true }
  | _, .got (.ok bytes) => { a with received := a.received ++ bytes }
  | _, _ => a

theorem after_agreed {c : Call Pipe.End} (hc : ∀ payload, c ≠ .write payload)
    {status : Status TlsVersion String} (a : Account) :
    a.after c (.agreed status) = { a with agreed := a.agreed || status.isOk } := by
  cases c with
  | write payload => exact absurd rfl (hc payload)
  | _ => cases status <;> simp [after, Status.isOk]

end Account

/-- Whether an answer is that the call failed. -/
def Answer.failed : Answer → Bool
  | setUp (.error _) => true
  | agreed status => status.isError
  | wrote status => status.isError
  | got status => status.isError
  | closed status => status.isError
  | _ => false

/-- A client and a server over a pipe, and the account of each. -/
structure Exchange where
  pair : TaggedPair
  account : Side → Account

namespace Exchange

/-- Two sessions around these engines, bound to the ends of an empty pipe. -/
def start (engine : Side → Tagged.Engine) (policy : Side → CipherPolicy) : Exchange where
  pair := (Pair.ofSessions (.ofEngine (engine .client) .client false (policy .client))
    (.ofEngine (engine .server) .server false (policy .server))).bindEnds
  account _ := .empty

/-- Makes a move. -/
def move (w : Exchange) : Move → Answer × Exchange
  | .call who c =>
    let r := w.pair.callOn who (Session.perform · c)
    (r.1, { pair := r.2, account := fun side =>
      if side = who then (w.account who).after c r.1 else w.account side })
  | .budget who limit =>
    let pipe := w.pair.pipe
    (.nothing, { w with pair := { w.pair with
      pipe := pipe.setOutgoing who { pipe.outgoing who with budget := limit } } })
  | .chunk who limit =>
    let pipe := w.pair.pipe
    (.nothing, { w with pair := { w.pair with
      pipe := pipe.setIncoming who { pipe.incoming who with chunk := limit } } })

/-- Makes moves in order. -/
def play (w : Exchange) : List Move → List Answer × Exchange
  | [] => ([], w)
  | m :: moves =>
    let r := w.move m
    let rest := r.2.play moves
    (r.1 :: rest.1, rest.2)

/-- Whether a move may be made: each side shakes hands in its own way, writes and reads only once
its handshake call has ended well, and repeats a write until that ends well. -/
def Admits (w : Exchange) : Move → Prop
  | .call who c =>
    match c with
    | .connect _ => who = .client
    | .accept => who = .server
    | .write payload => (w.account who).agreed = true ∧
      ((w.account who).current = none ∨ (w.account who).current = some payload)
    | .read _ => (w.account who).agreed = true
    | _ => False
  | .budget .. | .chunk .. => True

instance decidableAdmits (w : Exchange) : (m : Move) → Decidable (w.Admits m)
  | .call who c =>
    match c with
    | .connect _ => inferInstanceAs (Decidable (who = .client))
    | .accept => inferInstanceAs (Decidable (who = .server))
    | .write payload => inferInstanceAs (Decidable ((w.account who).agreed = true ∧
      ((w.account who).current = none ∨ (w.account who).current = some payload)))
    | .read _ => inferInstanceAs (Decidable ((w.account who).agreed = true))
    | .init _ | .setServerName _ | .close | .outside _ => .isFalse id
  | .budget .. | .chunk .. => .isTrue trivial

/-- Whether all of a schedule may be made. -/
def Admissible (w : Exchange) : List Move → Prop
  | [] => True
  | m :: moves => w.Admits m ∧ (w.move m).2.Admissible moves

instance decidableAdmissible : (w : Exchange) → (moves : List Move) → Decidable (w.Admissible moves)
  | _, [] => .isTrue trivial
  | w, m :: moves =>
    match decidableAdmits w m, decidableAdmissible (w.move m).2 moves with
    | .isTrue h, .isTrue hs => .isTrue ⟨h, hs⟩
    | .isFalse h, _ => .isFalse fun hm => h hm.1
    | _, .isFalse hs => .isFalse fun hm => hs hm.2

/-! ## What every move keeps -/

/-- Both sides are in touch, and of what each was offered the other has received all but what is on
its way or decrypted. -/
structure Sound (w : Exchange) (flow : Side → List Tagged.Record) : Prop where
  joined : Joined w.pair flow
  agreed : ∀ who, (w.account who).agreed = true → (w.pair.seen who).state = .connected
  idle : ∀ who, (w.account who).agreed = false → (w.account who).written = []
  delivery : ∀ who, ∃ sent, InTouch.Offering (w.pair.seen who) (w.account who).current sent ∧
    (w.account who.other).received ++
      ((w.pair.seen who.other).plaintext.data ++ carried (flow who)) =
        (w.account who).written.flatten ++ sent

namespace Sound

open Pair

variable {w : Exchange} {flow : Side → List Tagged.Record} {who : Side} {c : Call Pipe.End}

theorem answer_call {answer : Answer} {t : TaggedSession}
    (hcall : (w.pair.seen who).perform c = (answer, t)) : (w.move (.call who c)).1 = answer := by
  simp only [Exchange.move, callOn_fst, hcall]

/-- A call that goes well on its side goes well for both. -/
theorem call (h : Sound w flow) {outs ins : List Tagged.Record} {answer : Answer}
    {t : TaggedSession} (hcall : (w.pair.seen who).perform c = (answer, t))
    (ht : InTouch who (.of (w.pair.seen who.other)) outs ins t) (hst : Stage t)
    (hagreed : ((w.account who).after c answer).agreed = true → t.state = .connected)
    (hidle : ((w.account who).after c answer).agreed = false →
      ((w.account who).after c answer).written = [])
    (hout : ∃ sent, InTouch.Offering t ((w.account who).after c answer).current sent ∧
      (w.account who.other).received ++ ((w.pair.seen who.other).plaintext.data ++ carried outs) =
        ((w.account who).after c answer).written.flatten ++ sent)
    (hin : ((w.account who).after c answer).received ++ (t.plaintext.data ++ carried ins) =
      (w.account who).received ++ ((w.pair.seen who).plaintext.data ++ carried (flow who.other))) :
    Sound (w.move (.call who c)).2 fun side => if side = who then outs else ins := by
  have ht' : ((w.pair.seen who).perform c).2 = t := by rw [hcall]
  have ha' : ((w.pair.seen who).perform c).1 = answer := by rw [hcall]
  subst ht' ha'
  obtain ⟨pipe, hsocket, -⟩ := ht.linked.link
  have hown := seen_callOn (p := w.pair) (f := (Session.perform · c)) hsocket
  have hother := seen_other_callOn (p := w.pair) (f := (Session.perform · c)) hsocket
  have hbook : ∀ side, (w.move (.call who c)).2.account side = if side = who then
      (w.account who).after c ((w.pair.seen who).perform c).1 else w.account side := by
    intro side
    simp only [move, callOn_fst]
  have hpair : (w.move (.call who c)).2.pair = (w.pair.callOn who (Session.perform · c)).2 := rfl
  -- In each direction one side has moved and the other has only seen the pipe change.
  refine ⟨h.joined.call ht hst, fun side => ?_, fun side => ?_, fun side => ?_⟩
  · rw [hbook, hpair]
    rcases who.eq_or_other side with rfl | rfl
    · rw [if_pos rfl, hown]
      exact hagreed
    · rw [if_neg who.other_ne, hother]
      exact h.agreed who.other
  · rw [hbook]
    rcases who.eq_or_other side with rfl | rfl
    · rw [if_pos rfl]
      exact hidle
    · rw [if_neg who.other_ne]
      exact h.idle who.other
  · rw [hbook, hbook, hpair]
    rcases who.eq_or_other side with rfl | rfl
    · rw [if_pos rfl, if_neg side.other_ne, hown, hother, if_pos rfl]
      obtain ⟨sent, hoffer, hsum⟩ := hout
      exact ⟨sent, hoffer.congr rfl, hsum⟩
    · rw [if_neg who.other_ne, Side.other_other, if_pos rfl, hown, hother, if_neg who.other_ne]
      obtain ⟨sent, hoffer, hsum⟩ := h.delivery who.other
      rw [Side.other_other] at hsum
      exact ⟨sent, hoffer.congr rfl, hin.trans hsum⟩

/-- What an admissible move has to keep. -/
def Goes (w : Exchange) (m : Move) : Prop :=
  (w.move m).1.failed = false ∧ ∃ flow, Sound (w.move m).2 flow

theorem handshake (h : Sound w flow) {status : Status TlsVersion String} {t : TaggedSession}
    (hcall : (w.pair.seen who).perform c = (.agreed status, t))
    (hafter : ∀ a : Account, a.after c (.agreed status) =
      { a with agreed := a.agreed || status.isOk })
    (hs : InTouch.Shook who (.of (w.pair.seen who.other)) (flow who) (flow who.other)
      (w.pair.seen who) (status, t)) : Goes w (.call who c) := by
  have hanswer := answer_call hcall
  obtain ⟨outs, ins, htouch, houts, hins⟩ := hs.touch
  obtain ⟨sent, hoffer, hsum⟩ := h.delivery who
  refine ⟨?_, _, h.call hcall htouch hs.stage ?_ ?_ ⟨sent, ?_, ?_⟩ ?_⟩
  · rw [hanswer]
    cases status with
    | error text => exact absurd rfl (hs.answer text)
    | ok | wouldBlock => rfl
  · rw [hafter]
    intro hagreed
    refine hs.connected ?_
    cases status with
    | ok v => exact .inl ⟨v, rfl⟩
    | wouldBlock | error => exact .inr (h.agreed who (by simpa [Status.isOk] using hagreed))
  · rw [hafter]
    intro hagreed
    exact h.idle who (Bool.or_eq_false_iff.1 hagreed).1
  · rw [hafter]
    exact hoffer.congr hs.flight
  · rw [hafter, houts]
    exact hsum
  · rw [hafter, hins, hs.plaintext]

theorem write (h : Sound w flow) {payload : Bytes} (hagreed : (w.account who).agreed = true)
    (hrepeat : (w.account who).current = none ∨ (w.account who).current = some payload) :
    Goes w (.call who (.write payload)) := by
  obtain ⟨sent, hoffer, hsum⟩ := h.delivery who
  obtain ⟨new, hw⟩ := (h.joined.touch who).writeData (h.joined.stage who) (h.agreed who hagreed)
    hoffer hrepeat
  generalize hr : (w.pair.seen who).writeData payload = r at hw
  obtain ⟨status, t⟩ := r
  have hcall : (w.pair.seen who).perform (.write payload) = (.wrote status, t) := by
    rw [Session.perform, hr]
  have hanswer := answer_call hcall
  obtain ⟨outs, htouch, houts⟩ := hw.touch
  have hnew : (w.account who.other).received ++
      ((w.pair.seen who.other).plaintext.data ++ carried outs) =
      (w.account who).written.flatten ++ (sent ++ new) := by
    rw [houts, ← List.append_assoc _ _ new, ← List.append_assoc _ _ new, hsum, List.append_assoc]
  rcases hw.ended with ⟨rfl, hwhole, hnone⟩ | ⟨rfl, hmore⟩
  · refine ⟨by rw [hanswer]; rfl, _, h.call hcall htouch hw.stage (fun _ => hw.state) ?_
      ⟨[], hnone, ?_⟩ ?_⟩
    · exact fun hno => absurd (hagreed.symm.trans hno) (by decide)
    · rw [hnew, hwhole]
      simp [Account.after]
    · rw [show t.plaintext = _ from hw.plaintext]
      rfl
  · refine ⟨by rw [hanswer]; rfl, _, h.call hcall htouch hw.stage (fun _ => hw.state) ?_
      ⟨sent ++ new, hmore, hnew⟩ ?_⟩
    · exact fun hno => absurd (hagreed.symm.trans hno) (by decide)
    · rw [show t.plaintext = _ from hw.plaintext]
      rfl

theorem read (h : Sound w flow) {max : Nat} (hagreed : (w.account who).agreed = true) :
    Goes w (.call who (.read max)) := by
  have hholds : InTouch.Holds who (.of (w.pair.seen who.other)) (flow who)
      (w.pair.seen who).inFlight
      ((w.pair.seen who).plaintext.data ++ carried (flow who.other)) (w.pair.seen who) :=
    ⟨⟨_, h.joined.touch who, rfl⟩, h.joined.stage who, h.agreed who hagreed, rfl⟩
  have hr := hholds.readData max
  generalize hread : (w.pair.seen who).readData max = r at hr
  obtain ⟨status, t⟩ := r
  have hcall : (w.pair.seen who).perform (.read max) = (.got status, t) := by
    rw [Session.perform, hread]
  have hanswer := answer_call hcall
  obtain ⟨later, ⟨⟨ins, htouch, hlater⟩, hst, hstate, hflight⟩, hleft⟩ := hr.holds
  simp only at htouch hlater hst hstate hflight hleft
  obtain ⟨sent, hoffer, hsum⟩ := h.delivery who
  have hafter : (w.account who).after (.read max) (.got status) = { w.account who with
      received := (w.account who).received ++ InTouch.Read.bytes status } := by
    cases status <;> simp [Account.after, InTouch.Read.bytes]
  refine ⟨?_, _, h.call hcall htouch hst (fun _ => hstate) ?_ ⟨sent, ?_, ?_⟩ ?_⟩
  · rw [hanswer]
    cases status with
    | error e => exact absurd rfl hr.answer
    | ok | wouldBlock => rfl
  · rw [hafter]
    exact fun hno => absurd (hagreed.symm.trans hno) (by decide)
  · rw [hafter]
    exact hoffer.congr hflight
  · rw [hafter]
    exact hsum
  · rw [hafter, hlater, hleft, List.append_assoc]

/-- The limits of the wires are nobody's business. -/
theorem rewire (h : Sound w flow) {pipe : Pipe} (hopen : w.pair.pipe.Open → pipe.Open)
    (hbytes : ∀ side, (pipe.outgoing side).bytes = (w.pair.pipe.outgoing side).bytes) :
    Sound { w with pair := { w.pair with pipe := pipe } } flow := by
  have hseen : ∀ side, ({ w.pair with pipe := pipe } : TaggedPair).seen side =
      withPipe (w.pair.seen side) pipe := fun side => w.pair.seen_rewire pipe side
  refine ⟨h.joined.rewire hopen hbytes, fun who hagreed => ?_, h.idle, fun who => ?_⟩
  · rw [hseen]
    exact h.agreed who hagreed
  · obtain ⟨sent, hoffer, hsum⟩ := h.delivery who
    rw [hseen, hseen]
    exact ⟨sent, hoffer.congr rfl, hsum⟩

/-- An admissible move does not fail, and leaves things sound. -/
theorem move (h : Sound w flow) {m : Move} (hm : w.Admits m) : Goes w m := by
  cases m with
  | call who c =>
    cases c with
    | connect host =>
      obtain rfl : who = .client := hm
      exact h.handshake rfl (Account.after_agreed (by simp)) <|
        (h.joined.touch .client).connect (h.joined.stage .client) host
    | accept =>
      obtain rfl : who = .server := hm
      exact h.handshake rfl (Account.after_agreed (by simp)) <|
        (h.joined.touch .server).accept (h.joined.stage .server)
    | write payload => exact h.write hm.1 hm.2
    | read max => exact h.read hm
    | init | setServerName | close | outside => exact hm.elim
  | budget who limit =>
    refine ⟨rfl, flow, h.rewire (fun ho => ho.setOutgoing (ho.outgoing who)) fun side => ?_⟩
    exact Pipe.bytes_setOutgoing (w := { w.pair.pipe.outgoing who with budget := limit }) rfl side
  | chunk who limit =>
    refine ⟨rfl, flow, h.rewire (fun ho => ho.setIncoming (ho.incoming who)) fun side => ?_⟩
    exact Pipe.bytes_setOutgoing (w := { w.pair.pipe.incoming who with chunk := limit }) rfl side

theorem play (h : Sound w flow) {moves : List Move} (hm : w.Admissible moves) :
    (∀ answer ∈ (w.play moves).1, answer.failed = false) ∧
      ∃ flow, Sound (w.play moves).2 flow := by
  induction moves generalizing w flow with
  | nil => exact ⟨by simp [Exchange.play], flow, h⟩
  | cons m moves ih =>
    obtain ⟨hfirst, flow', h'⟩ := h.move hm.1
    obtain ⟨hrest, hlast⟩ := ih h' hm.2
    refine ⟨fun answer ha => ?_, hlast⟩
    rcases List.mem_cons.1 ha with rfl | ha
    · exact hfirst
    · exact hrest answer ha

end Sound

/-! ## Delivery -/

/-- What one side offered is delivered: what the other side received is the beginning of it, and all
of it once no write has to be repeated and nothing is on its way. -/
structure Delivered (w : Exchange) (who : Side) : Prop where
  part : (w.account who.other).received <+: (w.account who).offered
  whole : (w.account who).current = none → (w.pair.pipe.outgoing who).bytes = [] →
    (w.pair.sessionOf who.other).rawRead.data = [] →
    (w.pair.sessionOf who.other).plaintext.data = [] →
    (w.account who.other).received = (w.account who).offered

theorem Sound.delivered {w : Exchange} {flow : Side → List Tagged.Record} (h : Sound w flow)
    (who : Side) : Delivered w who := by
  obtain ⟨sent, hoffer, hsum⟩ := h.delivery who
  constructor
  · have hsent : sent <+: (w.account who).current.getD [] := hoffer.part
    have hreceived : (w.account who.other).received <+: (w.account who).written.flatten ++ sent :=
      ⟨_, hsum⟩
    exact hreceived.trans ((List.prefix_append_right_inj _).2 hsent)
  · intro hcurrent hwire hraw hplain
    rw [hcurrent] at hoffer
    cases hoffer with
    | nothing hflight =>
      have hoffered : (w.account who).offered = (w.account who).written.flatten := by
        rw [Account.offered, hcurrent, Option.getD_none, List.append_nil]
      have hplain : (w.pair.seen who.other).plaintext.data = [] := hplain
      rw [hplain, List.nil_append, List.append_nil] at hsum
      rw [hoffered, ← hsum]
      -- A side that has not shaken hands may have records pending, but was never offered anything.
      cases hagreed : (w.account who).agreed with
      | true =>
        have hpending := (h.joined.stage who).flushed (h.agreed who hagreed) hflight
        have hout := h.joined.outgoing who
        have hraw : (w.pair.seen who.other).rawRead.data = [] := hraw
        rw [hraw, hwire, hpending] at hout
        have hflow : flow who = [] := Tagged.eq_nil_of_encodeAll hout.symm
        rw [hflow, Tagged.carried_nil, List.append_nil]
      | false =>
        rw [h.idle who hagreed, List.flatten_nil] at hsum
        obtain ⟨-, hcarried⟩ := List.append_eq_nil_iff.1 hsum
        rw [hcarried, List.append_nil]

/-- Engines of both sides before their first use. Their records fit, their suites are allowed, and
they never ask for a new handshake. -/
structure Suited (engine : Side → Tagged.Engine) (policy : Side → CipherPolicy) : Prop where
  side : ∀ who, (engine who).side = who
  idle : ∀ who, (engine who).phase = .idle
  fragment : ∀ who, 1 ≤ (engine who).fragment ∧ (engine who).fragment ≤ 65535
  quiet : ∀ who, (engine who).renegotiateEvery = none
  allowed : ∀ who, (policy who).allows (engine who).cipher = true

variable {engine : Side → Tagged.Engine} {policy : Side → CipherPolicy}

theorem sound_start (h : Suited engine policy) : Sound (start engine policy) fun _ => [] := by
  let fresh (who : Side) : TaggedSession := .ofEngine (engine who) who false (policy who)
  have hseen : ∀ who, (start engine policy).pair.seen who =
      { fresh who with state := .initialized, socket := some ⟨.empty, who⟩ } := by
    intro who
    cases who <;> rfl
  refine ⟨⟨fun who => ?_, fun who => ?_⟩, fun who hno => ?_, fun who _ => rfl, fun who => ?_⟩
  · rw [hseen, hseen]
    refine ⟨⟨rfl, h.side who, rfl, h.allowed who, h.quiet who, h.fragment who, rfl, rfl⟩,
      ⟨.empty, rfl, ⟨rfl, rfl⟩, ?_, ?_⟩, ?_, by simp⟩
    · cases who <;> rfl
    · cases who <;> rfl
    · have hagrees : Agrees who (engine who).phase (engine who.other).phase [] [] := by
        rw [h.idle who, h.idle who.other]
        cases who <;> exact .idle
      exact hagrees
  · rw [hseen]
    exact .fresh rfl rfl
  · cases hno
  · rw [hseen, hseen]
    exact ⟨[], .nothing rfl, rfl⟩

theorem Admissible.before {w : Exchange} {before moves : List Move} (hm : w.Admissible moves)
    (h : before <+: moves) : w.Admissible before := by
  induction before generalizing w moves with
  | nil => trivial
  | cons m before ih =>
    cases moves with
    | nil => exact absurd (List.prefix_nil.1 h) (by simp)
    | cons m' moves =>
      obtain ⟨rfl, hrest⟩ := List.cons_prefix_cons.1 h
      exact ⟨hm.1, ih hm.2 hrest⟩

/-- No call of an admissible schedule fails, and at every moment of it what each side offered is
delivered. -/
theorem delivers_once (h : Suited engine policy) {moves : List Move}
    (hm : (start engine policy).Admissible moves) :
    (∀ answer ∈ ((start engine policy).play moves).1, answer.failed = false) ∧
    ∀ before, before <+: moves → ∀ who, Delivered ((start engine policy).play before).2 who := by
  have hsound := sound_start h
  refine ⟨(hsound.play hm).1, fun before hbefore who => ?_⟩
  obtain ⟨-, flow, hflow⟩ := hsound.play (hm.before hbefore)
  exact hflow.delivered who

/-- Engines whose records hold two bytes at most. -/
def shortRecords (who : Side) : Tagged.Engine := { Tagged.Engine.ofSide who with fragment := 2 }

/-- A write of the client that its wire interrupts within a record, while the server writes too. -/
def crossing : List Move :=
  [.call .client (.connect "localhost"), .call .server .accept,
    .call .client (.connect "localhost"), .budget .client (some 8),
    .call .client (.write [1, 2, 3, 4, 5]), .call .server .accept, .call .server (.write [6, 7]),
    .chunk .server (some 5), .call .server (.read 9), .budget .client none,
    .call .client (.write [1, 2, 3, 4, 5]), .call .client (.read 9), .call .server (.read 1),
    .call .server (.read 9), .call .server (.read 9)]

theorem crossing_delivers :
    let w := start shortRecords fun _ => .default
    ((∀ answer ∈ (w.play crossing).1, answer.failed = false) ∧
      ∀ before, before <+: crossing → ∀ who, Delivered (w.play before).2 who) ∧
    ((w.play crossing).2.account .server).received = [1, 2, 3, 4, 5] ∧
    ((w.play crossing).2.account .client).received = [6, 7] := by
  refine ⟨delivers_once ⟨?_, ?_, ?_, ?_, ?_⟩ (by decide +kernel), by decide +kernel,
    by decide +kernel⟩ <;> intro who <;> cases who <;> decide

end Exchange
end TlsTransport
