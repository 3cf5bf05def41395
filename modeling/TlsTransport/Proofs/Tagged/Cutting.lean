import TlsTransport.Tagged.Engine

/-! # The engine of the tagged-record protocol on input that is cut

What the engine does depends on the bytes that arrived and not on the buffers in which they stand, so
each of its loops is also a function of bytes. When input arrives in two parts, the engine either
comes to its end within the first one and leaves the second alone, or it uses the first one up as far
as it goes and resumes: both times as if all had arrived at once.

* `Record.next?`: the record at the front of bytes.
* `Engine.shake`, `Engine.reveal`: the handshake and decryption of bytes; `shake_of` and `reveal_of`
  say that this is what the engine does with buffers.
* `Engine.shake_resume`, `shake_settled`, `reveal_resume`, `reveal_settled`: input in two parts.
-/

namespace TlsTransport.Tagged

/-! ## Records -/

namespace Record

/-- Takes the record at the front of bytes; `none` while it is incomplete. -/
def next? : Bytes → Except Unit (Option (Record × Bytes))
  | kind :: hi :: lo :: rest =>
    let length := 256 * hi.toNat + lo.toNat
    match rest.drop length with
    | [] => .ok none
    | tag :: later =>
      let r : Record := ⟨kind, rest.take length⟩
      if tag = r.tag then .ok (some (r, later)) else .error ()
  | _ => .ok none

/-- A header with its whole body and a tag, and what comes later. -/
theorem next?_framed (kind : UInt8) {hi lo : UInt8} {body : Bytes} (tag : UInt8) (later : Bytes)
    (h : body.length = 256 * hi.toNat + lo.toNat) :
    next? (kind :: hi :: lo :: (body ++ tag :: later)) =
      if tag = (⟨kind, body⟩ : Record).tag then .ok (some (⟨kind, body⟩, later))
      else .error () := by
  have hdrop : (body ++ tag :: later).drop (256 * hi.toNat + lo.toNat) = tag :: later := by
    rw [← h, List.drop_left]
  have htake : (body ++ tag :: later).take (256 * hi.toNat + lo.toNat) = body := by
    rw [← h, List.take_left]
  simp only [next?, hdrop, htake]

theorem framed_of_next? {bytes : Bytes} (h : next? bytes ≠ .ok none) :
    ∃ kind hi lo body tag later, bytes = kind :: hi :: lo :: (body ++ tag :: later) ∧
      body.length = 256 * hi.toNat + lo.toNat := by
  unfold next? at h
  split at h
  · rename_i kind hi lo rest
    simp only at h
    split at h
    · exact absurd rfl h
    · rename_i tag later hdrop
      refine ⟨kind, hi, lo, rest.take (256 * hi.toNat + lo.toNat), tag, later, ?_, ?_⟩
      · rw [← hdrop, List.take_append_drop]
      · have hlen := congrArg List.length hdrop
        rw [List.length_drop, List.length_cons] at hlen
        rw [List.length_take]
        omega
  · exact absurd rfl h

theorem next?_length {bytes later : Bytes} {r : Record} (h : next? bytes = .ok (some (r, later))) :
    later.length + r.payload.length < bytes.length := by
  obtain ⟨kind, hi, lo, body, tag, tail, rfl, hlen⟩ := framed_of_next? (by rw [h]; simp)
  rw [next?_framed kind tag tail hlen] at h
  split at h
  · cases h
    simp only [List.length_cons, List.length_append]
    omega
  · cases h

/-- A complete record is not changed by what comes after it. -/
theorem next?_append {bytes later : Bytes} {r : Record} (h : next? bytes = .ok (some (r, later)))
    (more : Bytes) : next? (bytes ++ more) = .ok (some (r, later ++ more)) := by
  obtain ⟨kind, hi, lo, body, tag, tail, rfl, hlen⟩ := framed_of_next? (by rw [h]; simp)
  rw [next?_framed kind tag tail hlen] at h
  simp only [List.cons_append, List.append_assoc]
  rw [next?_framed kind tag (tail ++ more) hlen]
  split at h
  · cases h
    rw [if_pos ‹_›]
  · cases h

/-- A wrong tag stays wrong. -/
theorem next?_append_error {bytes : Bytes} (h : next? bytes = .error ()) (more : Bytes) :
    next? (bytes ++ more) = .error () := by
  obtain ⟨kind, hi, lo, body, tag, tail, rfl, hlen⟩ := framed_of_next? (by rw [h]; simp)
  rw [next?_framed kind tag tail hlen] at h
  simp only [List.cons_append, List.append_assoc]
  rw [next?_framed kind tag (tail ++ more) hlen]
  split at h
  · cases h
  · rw [if_neg ‹_›]

theorem head?_append {bytes : Bytes} (h : next? bytes ≠ .ok none) (more : Bytes) :
    (bytes ++ more).head? = bytes.head? := by
  obtain ⟨kind, hi, lo, body, tag, later, rfl, -⟩ := framed_of_next? h
  rfl

/-- The record at the front of a buffer is the one at the front of its bytes. -/
theorem next?_data (b : Buffer) :
    next? b.data = (take? b).map (Option.map fun p => (p.1, p.2.data)) := by
  rcases hb : b.data with _ | ⟨kind, _ | ⟨hi, _ | ⟨lo, rest⟩⟩⟩
  · simp [next?, take?, hb, Except.map]
  · simp [next?, take?, hb, Except.map]
  · simp [next?, take?, hb, Except.map]
  · have hrest : (b.drop (256 * hi.toNat + lo.toNat + overhead)).data =
        (rest.drop (256 * hi.toNat + lo.toNat)).drop 1 := by
      rw [Buffer.data_drop, hb, List.drop_drop]
      rfl
    cases hd : rest.drop (256 * hi.toNat + lo.toNat) with
    | nil => simp [next?, take?, hb, hd, Except.map]
    | cons tag later =>
      rw [hd] at hrest
      simp only [next?, take?, hb, hd]
      split
      · simp only [Except.map, Option.map, hrest, List.drop_succ_cons, List.drop_zero]
      · rfl

end Record

namespace Engine

/-! ## The handshake -/

/-- What a handshake does with bytes: its answer, the engine after it, the bytes that are left and
those that it puts out. -/
structure Shaking where
  answer : Except Fault HandshakeProgress
  engine : Engine
  rest : Bytes
  sent : Bytes

/-- The same after some output. -/
def Shaking.after (t : Shaking) (sent : Bytes) : Shaking := { t with sent := sent ++ t.sent }

/-- The same before some input. -/
def Shaking.before (t : Shaking) (more : Bytes) : Shaking := { t with rest := t.rest ++ more }

theorem Shaking.after_after (t : Shaking) (first later : Bytes) :
    (t.after later).after first = t.after (first ++ later) := by
  simp only [Shaking.after, List.append_assoc]

/-- The bytes of the record with which a handshake record is answered. -/
def replyBytes : Option UInt8 → Bytes
  | none => []
  | some kind => Record.encode ⟨kind, []⟩

/-- `takeHandshake` on bytes. -/
def shakeOn (e : Engine) (input : Bytes) : Shaking :=
  if e.phase = .done then ⟨.ok .complete, e, input, []⟩
  else
    match _h : Record.next? input with
    | .error () => ⟨.error .badTag, e, input, []⟩
    | .ok none => ⟨.ok .needsInput, e, input, []⟩
    | .ok (some (r, later)) =>
      match advance? e.side e.phase r.kind with
      | none => ⟨.error (.unexpected r.kind), e, later, []⟩
      | some (phase, reply) => (shakeOn { e with phase := phase } later).after (replyBytes reply)
termination_by input.length
decreasing_by
  have hlen := Record.next?_length ‹_›
  omega

/-- `handshake` on bytes. -/
def shake (e : Engine) (input : Bytes) : Shaking :=
  if !e.started then ⟨.error .notStarted, e, input, []⟩
  else if e.side = .client ∧ e.phase = .idle then
    (shakeOn { e with phase := .awaitHelloDone } input).after
      (Record.encode ⟨hello, [0x68, 0x65, 0x6c, 0x6c, 0x6f]⟩)
  else shakeOn e input

section ShakeOn

variable {e : Engine} {input later : Bytes} {r : Record}

theorem shakeOn_done (h : e.phase = .done) : shakeOn e input = ⟨.ok .complete, e, input, []⟩ := by
  rw [shakeOn, if_pos h]

theorem shakeOn_spoiled (h : e.phase ≠ .done) (hn : Record.next? input = .error ()) :
    shakeOn e input = ⟨.error .badTag, e, input, []⟩ := by
  rw [shakeOn, if_neg h]
  split <;> rename_i hr <;> rw [hn] at hr <;> cases hr

theorem shakeOn_short (h : e.phase ≠ .done) (hn : Record.next? input = .ok none) :
    shakeOn e input = ⟨.ok .needsInput, e, input, []⟩ := by
  rw [shakeOn, if_neg h]
  split <;> rename_i hr <;> rw [hn] at hr <;> cases hr

theorem shakeOn_refused (h : e.phase ≠ .done) (hn : Record.next? input = .ok (some (r, later)))
    (ha : advance? e.side e.phase r.kind = none) :
    shakeOn e input = ⟨.error (.unexpected r.kind), e, later, []⟩ := by
  rw [shakeOn, if_neg h]
  split <;> rename_i hr <;> rw [hn] at hr <;> cases hr
  simp only [ha]

theorem shakeOn_advanced {phase : Phase} {reply : Option UInt8} (h : e.phase ≠ .done)
    (hn : Record.next? input = .ok (some (r, later)))
    (ha : advance? e.side e.phase r.kind = some (phase, reply)) :
    shakeOn e input = (shakeOn { e with phase := phase } later).after (replyBytes reply) := by
  rw [shakeOn, if_neg h]
  split <;> rename_i hr <;> rw [hn] at hr <;> cases hr
  simp only [ha]

end ShakeOn

/-- A handshake step with buffers is this one with their bytes. -/
structure Shaking.Of (t : Shaking) (output : Buffer) (turn : HandshakeTurn Engine Fault) :
    Prop where
  answer : turn.answer = t.answer
  engine : turn.engine = t.engine
  input : turn.input.data = t.rest
  output : turn.output.data = output.data ++ t.sent

theorem Shaking.Of.quiet {answer : Except Fault HandshakeProgress} {e : Engine} {b output : Buffer} :
    (⟨answer, e, b.data, []⟩ : Shaking).Of output ⟨answer, e, b, output⟩ :=
  ⟨rfl, rfl, rfl, (List.append_nil _).symm⟩

theorem Shaking.Of.after {t : Shaking} {output : Buffer} {turn : HandshakeTurn Engine Fault}
    {sent : Bytes} (h : t.Of (output.append sent) turn) : (t.after sent).Of output turn :=
  ⟨h.answer, h.engine, h.input, by rw [h.output, Buffer.data_append, List.append_assoc]; rfl⟩

theorem shakeOn_of (e : Engine) (b output : Buffer) :
    (shakeOn e b.data).Of output (takeHandshake e b output) := by
  have hnext : ∀ {b : Buffer} {r}, Record.take? b = r →
      Record.next? b.data = r.map (Option.map fun p => (p.1, p.2.data)) := by
    rintro b r rfl
    exact Record.next?_data b
  fun_induction takeHandshake e b output with
  | case1 e b output hdone =>
    rw [shakeOn_done hdone]
    exact .quiet
  | case2 e b output hopen ht =>
    rw [shakeOn_spoiled hopen (hnext ht)]
    exact .quiet
  | case3 e b output hopen ht =>
    rw [shakeOn_short hopen (hnext ht)]
    exact .quiet
  | case4 e b output hopen r rest ht ha =>
    rw [shakeOn_refused hopen (hnext ht) ha]
    exact .quiet
  | case5 e b output hopen r rest ht phase reply ha out ih =>
    rw [shakeOn_advanced hopen (hnext ht) ha]
    refine .after ?_
    have hout : out = output.append (replyBytes reply) := by
      cases reply with
      | none => simp [out, replyBytes, Buffer.append]
      | some kind => rfl
    rw [← hout]
    exact ih

/-- The engine's handshake is a function of the bytes that arrived. -/
theorem shake_of (e : Engine) (b output : Buffer) :
    (shake e b.data).Of output (handshake e b output) := by
  unfold shake handshake
  split
  · exact .quiet
  split
  · exact .after (shakeOn_of _ _ _)
  · exact shakeOn_of _ _ _

/-! ### Input in two parts -/

theorem advance?_phase {side : Side} {phase next : Phase} {kind : UInt8} {reply : Option UInt8}
    (h : advance? side phase kind = some (next, reply)) : next ≠ .idle := by
  unfold advance? at h
  split at h
  · split at h <;> cases h
    simp
  · split at h <;> cases h
    simp
  · split at h <;> cases h
    simp
  · cases h

/-- A handshake changes nothing of an engine but its phase, and does not go back to `idle`. -/
theorem shakeOn_engine (e : Engine) (input : Bytes) :
    ∃ phase, (shakeOn e input).engine = { e with phase := phase } ∧
      (phase = .idle → e.phase = .idle) := by
  fun_induction shakeOn e input with
  | case1 | case2 | case3 | case4 => exact ⟨_, rfl, id⟩
  | case5 e input _ r later _ phase reply ha ih =>
    obtain ⟨last, hlast, hidle⟩ := ih
    exact ⟨last, hlast, fun hi => absurd (hidle hi) (advance?_phase ha)⟩

theorem shakeOn_length (e : Engine) (input : Bytes) :
    (shakeOn e input).rest.length ≤ input.length := by
  fun_induction shakeOn e input with
  | case1 | case2 | case3 => exact Nat.le_refl _
  | case4 e input _ r later hn =>
    have hlen := Record.next?_length hn
    simp only
    omega
  | case5 e input _ r later hn phase reply _ ih =>
    have hlen := Record.next?_length hn
    have hrest : ((shakeOn { e with phase := phase } later).after (replyBytes reply)).rest =
      (shakeOn { e with phase := phase } later).rest := rfl
    rw [hrest]
    omega

/-- A handshake that came to its end leaves alone what arrives later. -/
theorem shakeOn_settled {e : Engine} {input : Bytes}
    (h : (shakeOn e input).answer ≠ .ok .needsInput) (more : Bytes) :
    shakeOn e (input ++ more) = (shakeOn e input).before more := by
  fun_induction shakeOn e input with
  | case1 e input hdone => exact shakeOn_done hdone
  | case2 e input hopen hn => exact shakeOn_spoiled hopen (Record.next?_append_error hn more)
  | case3 => exact absurd rfl h
  | case4 e input hopen r later hn ha => exact shakeOn_refused hopen (Record.next?_append hn more) ha
  | case5 e input hopen r later hn phase reply ha ih =>
    rw [shakeOn_advanced hopen (Record.next?_append hn more) ha, ih h]
    rfl

/-- A handshake that waits resumes with what arrives later. -/
theorem shakeOn_resume {e : Engine} {input : Bytes}
    (h : (shakeOn e input).answer = .ok .needsInput) (more : Bytes) :
    shakeOn e (input ++ more) = (shakeOn (shakeOn e input).engine
      ((shakeOn e input).rest ++ more)).after (shakeOn e input).sent := by
  fun_induction shakeOn e input with
  | case1 | case2 | case4 => cases h
  | case3 => rfl
  | case5 e input hopen r later hn phase reply ha ih =>
    rw [shakeOn_advanced hopen (Record.next?_append hn more) ha, ih h, Shaking.after_after]
    rfl

theorem shake_length (e : Engine) (input : Bytes) : (shake e input).rest.length ≤ input.length := by
  unfold shake
  split
  · exact Nat.le_refl _
  split
  · exact shakeOn_length _ _
  · exact shakeOn_length _ _

theorem shake_settled {e : Engine} {input : Bytes} (h : (shake e input).answer ≠ .ok .needsInput)
    (more : Bytes) : shake e (input ++ more) = (shake e input).before more := by
  unfold shake at h ⊢
  split
  · rfl
  rw [if_neg ‹_›] at h
  split
  · rw [if_pos ‹_›] at h
    rw [shakeOn_settled h]
    rfl
  · rw [if_neg ‹_›] at h
    exact shakeOn_settled h more

/-- Once it has begun, an engine does not open again. -/
theorem shake_begun {e : Engine} {x y : Bytes} (hs : e.started = true)
    (hopen : e.side = .client → e.phase ≠ .idle) :
    shake (shakeOn e x).engine y = shakeOn (shakeOn e x).engine y := by
  obtain ⟨phase, hengine, hidle⟩ := shakeOn_engine e x
  rw [hengine]
  have hno : ¬ (e.side = .client ∧ phase = .idle) := fun hc => hopen hc.1 (hidle hc.2)
  simp only [shake, hs, Bool.not_true, Bool.false_eq_true, if_false, if_neg hno]

theorem shake_resume {e : Engine} {input : Bytes} (h : (shake e input).answer = .ok .needsInput)
    (more : Bytes) : shake e (input ++ more) =
      (shake (shake e input).engine ((shake e input).rest ++ more)).after (shake e input).sent := by
  cases hstarted : e.started with
  | false => simp [shake, hstarted] at h
  | true =>
    by_cases hfirst : e.side = .client ∧ e.phase = .idle
    · have hshake : ∀ x, shake e x = (shakeOn { e with phase := .awaitHelloDone } x).after
          (Record.encode ⟨hello, [0x68, 0x65, 0x6c, 0x6c, 0x6f]⟩) := by
        intro x
        simp only [shake, hstarted, Bool.not_true, Bool.false_eq_true, if_false, if_pos hfirst]
      rw [hshake] at h
      rw [hshake, hshake, shakeOn_resume h, Shaking.after_after]
      have hlater := shake_begun (e := { e with phase := .awaitHelloDone }) (x := input)
        (y := (shakeOn { e with phase := .awaitHelloDone } input).rest ++ more) hstarted (by simp)
      exact congrArg (Shaking.after · _) hlater.symm
    · have hshake : ∀ x, shake e x = shakeOn e x := by
        intro x
        simp only [shake, hstarted, Bool.not_true, Bool.false_eq_true, if_false, if_neg hfirst]
      rw [hshake] at h
      rw [hshake, hshake, shakeOn_resume h,
        shake_begun hstarted fun hs hp => hfirst ⟨hs, hp⟩]

theorem shakeOn_over {e : Engine} {input : Bytes} (h : (shakeOn e input).answer = .ok .complete) :
    (shakeOn e input).engine.phase = .done := by
  fun_induction shakeOn e input with
  | case1 e input hdone => exact hdone
  | case2 | case3 | case4 => cases h
  | case5 e input _ r later _ phase reply _ ih => exact ih h

/-- A finished handshake has nothing left to do, whatever comes. -/
theorem shake_over {e : Engine} {input : Bytes} (h : (shake e input).answer = .ok .complete)
    (more : Bytes) : shake (shake e input).engine more =
      ⟨.ok .complete, (shake e input).engine, more, []⟩ := by
  have hdone : ∀ {g : Engine}, g.started = true → g.phase = .done →
      shake g more = ⟨.ok .complete, g, more, []⟩ := by
    intro g hs hp
    have hno : ¬ (g.side = .client ∧ g.phase = .idle) := by simp [hp]
    simp only [shake, hs, Bool.not_true, Bool.false_eq_true, if_false, if_neg hno]
    exact shakeOn_done hp
  have hrun : ∀ {g : Engine}, g.started = true → (shakeOn g input).answer = .ok .complete →
      shake (shakeOn g input).engine more =
        ⟨.ok .complete, (shakeOn g input).engine, more, []⟩ := by
    intro g hs hc
    refine hdone ?_ (shakeOn_over hc)
    obtain ⟨phase, hengine, -⟩ := shakeOn_engine g input
    rw [hengine]
    exact hs
  cases hstarted : e.started with
  | false => simp [shake, hstarted] at h
  | true =>
    by_cases hfirst : e.side = .client ∧ e.phase = .idle
    · have hshake : shake e input = (shakeOn { e with phase := .awaitHelloDone } input).after
          (Record.encode ⟨hello, [0x68, 0x65, 0x6c, 0x6c, 0x6f]⟩) := by
        simp only [shake, hstarted, Bool.not_true, Bool.false_eq_true, if_false, if_pos hfirst]
      rw [hshake] at h ⊢
      exact hrun (g := { e with phase := .awaitHelloDone }) hstarted h
    · have hshake : shake e input = shakeOn e input := by
        simp only [shake, hstarted, Bool.not_true, Bool.false_eq_true, if_false, if_neg hfirst]
      rw [hshake] at h ⊢
      exact hrun hstarted h

/-- An engine that waits has used what it can. -/
theorem shake_idle {e : Engine} {input : Bytes} (h : (shake e input).answer = .ok .needsInput) :
    shake (shake e input).engine (shake e input).rest =
      ⟨.ok .needsInput, (shake e input).engine, (shake e input).rest, []⟩ := by
  have hresume := shake_resume h []
  rw [List.append_nil, List.append_nil] at hresume
  have hsent := congrArg Shaking.sent hresume
  have hnone : (shake (shake e input).engine (shake e input).rest).sent = [] :=
    List.self_eq_append_right.1 hsent
  have hanswer := congrArg Shaking.answer hresume
  have hengine := congrArg Shaking.engine hresume
  have hrest := congrArg Shaking.rest hresume
  generalize shake (shake e input).engine (shake e input).rest = again at *
  obtain ⟨answer, engine, rest, sent⟩ := again
  simp only [Shaking.after] at hanswer hengine hrest hnone
  rw [← hanswer, ← hengine, ← hrest, hnone, h]

/-! ## Decryption -/

/-- What decryption does with bytes: its answer, the engine after it, the bytes that are left and
those that it decrypts. -/
structure Revealing where
  answer : Except Fault DecryptStop
  engine : Engine
  rest : Bytes
  plaintext : Bytes

/-- The same after some plaintext. -/
def Revealing.after (t : Revealing) (plaintext : Bytes) : Revealing :=
  { t with plaintext := plaintext ++ t.plaintext }

/-- The same before some input. -/
def Revealing.before (t : Revealing) (more : Bytes) : Revealing := { t with rest := t.rest ++ more }

/-- What a record other than data does. -/
def stopAt (e : Engine) (kind : UInt8) : Except Fault DecryptStop × Engine :=
  if kind = close then (.ok .closeNotify, e)
  else if kind = helloRequest ∧ e.side = .client then
    (.ok .renegotiate, { e with phase := .idle })
  else (.error (.unexpected kind), e)

/-- Whether the input opens a new handshake. -/
def Reopens (e : Engine) (input : Bytes) : Prop := e.side = .server ∧ input.head? = some hello

instance (e : Engine) (input : Bytes) : Decidable (Reopens e input) :=
  inferInstanceAs (Decidable (_ ∧ _))

/-- `decrypt` on bytes. -/
def reveal (e : Engine) (input : Bytes) : Revealing :=
  if Reopens e input then ⟨.ok .renegotiate, { e with phase := .idle }, input, []⟩
  else
    match _h : Record.next? input with
    | .error () => ⟨.error .badTag, e, input, []⟩
    | .ok none => ⟨.ok .needsInput, e, input, []⟩
    | .ok (some (r, later)) =>
      if r.kind = data then (reveal e later).after r.payload
      else ⟨(stopAt e r.kind).1, (stopAt e r.kind).2, later, []⟩
termination_by input.length
decreasing_by
  have hlen := Record.next?_length ‹_›
  omega

section Reveal

variable {e : Engine} {input later : Bytes} {r : Record}

theorem reveal_reopened (h : Reopens e input) :
    reveal e input = ⟨.ok .renegotiate, { e with phase := .idle }, input, []⟩ := by
  rw [reveal, if_pos h]

theorem reveal_spoiled (h : ¬ Reopens e input) (hn : Record.next? input = .error ()) :
    reveal e input = ⟨.error .badTag, e, input, []⟩ := by
  rw [reveal, if_neg h]
  split <;> rename_i hr <;> rw [hn] at hr <;> cases hr

theorem reveal_short (h : ¬ Reopens e input) (hn : Record.next? input = .ok none) :
    reveal e input = ⟨.ok .needsInput, e, input, []⟩ := by
  rw [reveal, if_neg h]
  split <;> rename_i hr <;> rw [hn] at hr <;> cases hr

theorem reveal_data (h : ¬ Reopens e input) (hn : Record.next? input = .ok (some (r, later)))
    (hk : r.kind = data) : reveal e input = (reveal e later).after r.payload := by
  rw [reveal, if_neg h]
  split <;> rename_i hr <;> rw [hn] at hr <;> cases hr
  rw [if_pos hk]

theorem reveal_stopped (h : ¬ Reopens e input) (hn : Record.next? input = .ok (some (r, later)))
    (hk : r.kind ≠ data) :
    reveal e input = ⟨(stopAt e r.kind).1, (stopAt e r.kind).2, later, []⟩ := by
  rw [reveal, if_neg h]
  split <;> rename_i hr <;> rw [hn] at hr <;> cases hr
  rw [if_neg hk]

end Reveal

/-- Decryption with buffers is this one with their bytes; it puts nothing out. -/
structure Revealing.Of (t : Revealing) (output plaintext : Buffer)
    (turn : DecryptTurn Engine Fault) : Prop where
  answer : turn.answer = t.answer
  engine : turn.engine = t.engine
  input : turn.input.data = t.rest
  output : turn.output = output
  plaintext : turn.plaintext.data = plaintext.data ++ t.plaintext

theorem Revealing.Of.quiet {answer : Except Fault DecryptStop} {e : Engine}
    {b output plaintext : Buffer} :
    (⟨answer, e, b.data, []⟩ : Revealing).Of output plaintext ⟨answer, e, b, output, plaintext⟩ :=
  ⟨rfl, rfl, rfl, rfl, (List.append_nil _).symm⟩

theorem Revealing.Of.after {t : Revealing} {output plaintext : Buffer}
    {turn : DecryptTurn Engine Fault} {bytes : Bytes}
    (h : t.Of output (plaintext.append bytes) turn) : (t.after bytes).Of output plaintext turn :=
  ⟨h.answer, h.engine, h.input, h.output, by
    rw [h.plaintext, Buffer.data_append, List.append_assoc]; rfl⟩

/-- Decryption is a function of the bytes that arrived. -/
theorem reveal_of (e : Engine) (b output plaintext : Buffer) :
    (reveal e b.data).Of output plaintext (decrypt e b output plaintext) := by
  have hnext : ∀ {b : Buffer} {r}, Record.take? b = r →
      Record.next? b.data = r.map (Option.map fun p => (p.1, p.2.data)) := by
    rintro b r rfl
    exact Record.next?_data b
  fun_induction decrypt e b output plaintext with
  | case1 b plaintext hreopens =>
    rw [reveal_reopened hreopens]
    exact .quiet
  | case2 b plaintext hgoes ht =>
    rw [reveal_spoiled hgoes (hnext ht)]
    exact .quiet
  | case3 b plaintext hgoes ht =>
    rw [reveal_short hgoes (hnext ht)]
    exact .quiet
  | case4 b plaintext hgoes r rest ht hk ih =>
    rw [reveal_data hgoes (hnext ht) hk]
    exact .after ih
  | case5 b plaintext hgoes r rest ht hk hclose =>
    rw [reveal_stopped hgoes (hnext ht) hk, stopAt, if_pos hclose]
    exact .quiet
  | case6 b plaintext hgoes r rest ht hk hclose hasked =>
    rw [reveal_stopped hgoes (hnext ht) hk, stopAt, if_neg hclose, if_pos hasked]
    exact .quiet
  | case7 b plaintext hgoes r rest ht hk hclose hasked =>
    rw [reveal_stopped hgoes (hnext ht) hk, stopAt, if_neg hclose, if_neg hasked]
    exact .quiet

/-! ### Input in two parts -/

theorem reveal_length (e : Engine) (input : Bytes) :
    (reveal e input).rest.length + (reveal e input).plaintext.length ≤ input.length := by
  fun_induction reveal e input with
  | case1 | case2 | case3 => exact Nat.le_refl _
  | case4 input _ r later hn _ ih =>
    have hlen := Record.next?_length hn
    simp only [Revealing.after, List.length_append]
    omega
  | case5 input _ r later hn =>
    have hlen := Record.next?_length hn
    simp only [List.length_nil]
    omega

theorem stopAt_ne_needsInput (e : Engine) (kind : UInt8) : (stopAt e kind).1 ≠ .ok .needsInput := by
  unfold stopAt
  split
  · simp
  · split <;> simp

theorem Reopens.append {e : Engine} {input : Bytes} (h : Reopens e input) (more : Bytes) :
    Reopens e (input ++ more) := by
  refine ⟨h.1, ?_⟩
  rw [List.head?_append, h.2]
  rfl

theorem not_reopens_append {e : Engine} {input : Bytes} (h : ¬ Reopens e input)
    (hn : Record.next? input ≠ .ok none) (more : Bytes) : ¬ Reopens e (input ++ more) := by
  rintro ⟨hs, hhead⟩
  rw [Record.head?_append hn] at hhead
  exact h ⟨hs, hhead⟩

/-- Decryption that stopped leaves alone what arrives later. -/
theorem reveal_settled {e : Engine} {input : Bytes}
    (h : (reveal e input).answer ≠ .ok .needsInput) (more : Bytes) :
    reveal e (input ++ more) = (reveal e input).before more := by
  fun_induction reveal e input with
  | case1 input hreopens => exact reveal_reopened (hreopens.append more)
  | case2 input hgoes hn =>
    exact reveal_spoiled (not_reopens_append hgoes (by rw [hn]; simp) more)
      (Record.next?_append_error hn more)
  | case3 => exact absurd rfl h
  | case4 input hgoes r later hn hk ih =>
    rw [reveal_data (not_reopens_append hgoes (by rw [hn]; simp) more)
      (Record.next?_append hn more) hk, ih h]
    rfl
  | case5 input hgoes r later hn hk =>
    exact reveal_stopped (not_reopens_append hgoes (by rw [hn]; simp) more)
      (Record.next?_append hn more) hk

/-- Decryption that waits resumes with what arrives later. -/
theorem reveal_resume {e : Engine} {input : Bytes}
    (h : (reveal e input).answer = .ok .needsInput) (more : Bytes) :
    (reveal e input).engine = e ∧ reveal e (input ++ more) =
      (reveal e ((reveal e input).rest ++ more)).after (reveal e input).plaintext := by
  fun_induction reveal e input with
  | case1 | case2 => cases h
  | case3 => exact ⟨rfl, rfl⟩
  | case4 input hgoes r later hn hk ih =>
    obtain ⟨hengine, hlater⟩ := ih h
    refine ⟨hengine, ?_⟩
    rw [reveal_data (not_reopens_append hgoes (by rw [hn]; simp) more)
      (Record.next?_append hn more) hk, hlater]
    simp only [Revealing.after, List.append_assoc]
  | case5 input hgoes r later hn hk => exact absurd h (stopAt_ne_needsInput e r.kind)

/-- Decryption that waits has used what it can. -/
theorem reveal_idle {e : Engine} {input : Bytes}
    (h : (reveal e input).answer = .ok .needsInput) :
    reveal e (reveal e input).rest = ⟨.ok .needsInput, e, (reveal e input).rest, []⟩ := by
  obtain ⟨hengine, hresume⟩ := reveal_resume h []
  rw [List.append_nil, List.append_nil] at hresume
  have hplaintext := congrArg Revealing.plaintext hresume
  have hnone : (reveal e (reveal e input).rest).plaintext = [] :=
    List.self_eq_append_right.1 hplaintext
  have hanswer := congrArg Revealing.answer hresume
  have hagain := congrArg Revealing.engine hresume
  have hrest := congrArg Revealing.rest hresume
  generalize reveal e (reveal e input).rest = again at *
  obtain ⟨answer, engine, rest, plaintext⟩ := again
  simp only [Revealing.after] at hanswer hagain hrest hnone
  rw [← hanswer, ← hagain, ← hrest, hnone, h, hengine]

end Engine
end TlsTransport.Tagged
