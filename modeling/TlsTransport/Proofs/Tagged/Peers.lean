import TlsTransport.Proofs.Tagged.Stream
import TlsTransport.Tagged.Engine

/-! # Two engines that agree

How far a client and a server are in their handshake decides which records can be on their way. Each
engine's part is proved once for both sides, against whatever the other side is at.

* `Agreement`: the phases of both sides and the records on their way.
* `Engine.handshake_agrees`: a handshake call keeps them in agreement.
* `Engine.decrypt_agrees`, `Engine.encrypt_agrees`: data flow once a side is done.
-/

namespace TlsTransport.Tagged

/-- The phases of a client and a server, the records on their way to the server and those on their
way to the client. -/
inductive Agreement : Phase → Phase → List Record → List Record → Prop where
  | idle : Agreement .idle .idle [] []
  | greeted : Agreement .awaitHelloDone .idle [⟨hello, [0x68, 0x65, 0x6c, 0x6c, 0x6f]⟩] []
  | answered : Agreement .awaitHelloDone .awaitFinished [] [⟨helloDone, []⟩]
  | confirmed (sent : List Record) (h : ∀ r ∈ sent, r.kind = data) :
      Agreement .done .awaitFinished (⟨finished, []⟩ :: sent) []
  | joined (sent back : List Record) (h : ∀ r ∈ sent, r.kind = data)
      (hback : ∀ r ∈ back, r.kind = data) : Agreement .done .done sent back

/-- The same as one side sees it: its own phase, the other's, the records from it and to it. -/
def Agrees (side : Side) (own other : Phase) (outs ins : List Record) : Prop :=
  match side with
  | .client => Agreement own other outs ins
  | .server => Agreement other own ins outs

namespace Agrees

variable {side : Side} {own other : Phase} {outs ins : List Record}

theorem flip (h : Agrees side own other outs ins) : Agrees side.other other own ins outs := by
  cases side <;> exact h

/-- The record that comes next is the one that the handshake waits for. -/
theorem receive {r : Record} (h : Agrees side own other outs (r :: ins)) (hdone : own ≠ .done)
    (hidle : side = .client → own ≠ .idle) : ∃ next reply,
    Engine.advance? side own r.kind = some (next, reply) ∧
    Agrees side next other (outs ++ reply.toList.map (⟨·, []⟩)) ins ∧ next ≠ .idle ∧
    r.kind ≠ data ∧ ∀ kind ∈ reply, kind ≠ data := by
  cases side with
  | client =>
    cases h with
    | answered => exact ⟨.done, some finished, rfl, .confirmed [] (by simp), by simp, by decide,
        by simp; decide⟩
    | joined => exact absurd rfl hdone
  | server =>
    cases h with
    | greeted => exact ⟨.awaitFinished, some helloDone, rfl, .answered, by simp, by decide,
        by simp; decide⟩
    | confirmed sent h =>
      refine ⟨.done, none, rfl, ?_, by simp, by decide, by simp⟩
      rw [Option.toList_none, List.map_nil, List.append_nil]
      exact .joined _ _ h (by simp)
    | joined => exact absurd rfl hdone

/-- A side that is done is sent data only. -/
theorem arrivals (h : Agrees side own other outs ins) (hdone : own = .done) :
    ∀ r ∈ ins, r.kind = data := by
  subst hdone
  cases side with
  | client =>
    cases h with
    | confirmed => simp
    | joined sent back hs hb => exact hb
  | server =>
    cases h with
    | joined sent back hs hb => exact hs

/-- A side that is done can send data. -/
theorem send (h : Agrees side own other outs ins) (hdone : own = .done) {new : List Record}
    (hnew : ∀ r ∈ new, r.kind = data) : Agrees side own other (outs ++ new) ins := by
  have hboth : ∀ {sent : List Record}, (∀ r ∈ sent, r.kind = data) →
      ∀ r ∈ sent ++ new, r.kind = data := by
    intro sent hs r hr
    exact (List.mem_append.1 hr).elim (hs r) (hnew r)
  subst hdone
  cases side with
  | client =>
    cases h with
    | confirmed sent hs => exact .confirmed (sent ++ new) (hboth hs)
    | joined sent back hs hb => exact .joined _ _ (hboth hs) hb
  | server =>
    cases h with
    | joined sent back hs hb => exact .joined _ _ hs (hboth hb)

/-- A side that is done can take data. -/
theorem take {later : List Record} (h : Agrees side own other outs (ins ++ later))
    (hdone : own = .done) :
    Agrees side own other outs later := by
  have hrest : ∀ {back : List Record}, ins ++ later = back → (∀ r ∈ back, r.kind = data) →
      ∀ r ∈ later, r.kind = data := by
    rintro back rfl hb r hr
    exact hb r (List.mem_append_right _ hr)
  subst hdone
  cases side with
  | client =>
    generalize hall : ins ++ later = all at h
    cases h with
    | confirmed sent hs =>
      obtain ⟨-, rfl⟩ := List.append_eq_nil_iff.1 hall
      exact .confirmed sent hs
    | joined sent back hs hb => exact .joined _ _ hs (hrest hall hb)
  | server =>
    generalize hall : ins ++ later = all at h
    cases h with
    | joined sent back hs hb => exact .joined _ _ (hrest hall hs) hb

end Agrees

namespace Engine

/-! ## Handshakes -/

/-- A handshake call that went well: the engine took records off the stream to it, put out `new`,
and left `rest`. -/
structure Shaken (e : Engine) (other : Phase) (outs ins : List Record) (later : Bytes)
    (output : Buffer) (t : HandshakeTurn Engine Fault) (new rest : List Record) : Prop where
  answer : t.answer = .ok (if t.engine.phase = .done then .complete else .needsInput)
  engine : t.engine = { e with phase := t.engine.phase }
  output : t.output.data = output.data ++ encodeAll new
  input : t.input.data ++ later = encodeAll rest
  agrees : Agrees e.side t.engine.phase other (outs ++ new) rest
  fits : (∀ r ∈ new, r.Fits) ∧ ∀ r ∈ rest, r.Fits
  kept : carried new = [] ∧ carried rest = carried ins
  begun : e.side = .client → t.engine.phase ≠ .idle

/-- What a handshake call puts out and takes first, before the rest of it. -/
theorem Shaken.after {e : Engine} {other : Phase} {outs ins left : List Record} {later : Bytes}
    {output : Buffer} {t : HandshakeTurn Engine Fault} {first new rest : List Record}
    {next : Phase} {grown : Buffer} (hgrown : grown.data = output.data ++ encodeAll first)
    (hfirst : ∀ q ∈ first, q.Fits ∧ q.kind ≠ data) (hleft : carried left = carried ins)
    (h : Shaken { e with phase := next } other (outs ++ first) left later grown t new rest) :
    Shaken e other outs ins later output t (first ++ new) rest where
  answer := h.answer
  engine := h.engine
  output := by rw [h.output, hgrown, encodeAll_append, List.append_assoc]
  input := h.input
  agrees := by
    rw [← List.append_assoc]
    exact h.agrees
  fits := ⟨fun q hq => (List.mem_append.1 hq).elim (fun hq => (hfirst q hq).1) (h.fits.1 q),
    h.fits.2⟩
  kept := by
    have hnone : carried first = [] := by
      rw [carried, List.flatMap_eq_nil_iff]
      exact fun q hq => if_neg (hfirst q hq).2
    rw [carried_append, hnone, ← hleft]
    exact h.kept
  begun := h.begun

theorem takeHandshake_agrees (e : Engine) (input output : Buffer) {other : Phase}
    {outs ins : List Record} {later : Bytes} (h : Agrees e.side e.phase other outs ins)
    (hin : input.data ++ later = encodeAll ins) (hfit : ∀ r ∈ ins, r.Fits)
    (hidle : e.side = .client → e.phase ≠ .idle) :
    ∃ new rest, Shaken e other outs ins later output (takeHandshake e input output) new rest := by
  have hstay : ∀ {e : Engine} {outs ins : List Record} {input : Buffer} (output : Buffer),
      Agrees e.side e.phase other outs ins → input.data ++ later = encodeAll ins →
      (∀ r ∈ ins, r.Fits) → (e.side = .client → e.phase ≠ .idle) →
      ∃ new rest, Shaken e other outs ins later output
        ⟨.ok (if e.phase = .done then .complete else .needsInput), e, input, output⟩ new rest := by
    intro e outs ins input output h hin hfit hidle
    refine ⟨[], ins, rfl, rfl, ?_, hin, ?_, ⟨by simp, hfit⟩, ⟨rfl, rfl⟩, hidle⟩
    · rw [encodeAll_nil, List.append_nil]
    · rw [List.append_nil]
      exact h
  fun_induction takeHandshake e input output generalizing outs ins with
  | case1 e input output hdone =>
    have hs := hstay output h hin hfit hidle
    rwa [if_pos hdone] at hs
  | case2 e input output hdone hr => exact absurd hr (Record.take?_ne_error hin hfit)
  | case3 e input output hdone hr =>
    have hs := hstay output h hin hfit hidle
    rwa [if_neg hdone] at hs
  | case4 e input output hdone r input' hr hadvance =>
    obtain ⟨rest, rfl, -⟩ := Record.take?_first hin hfit hr
    obtain ⟨next, reply, hnext, -⟩ := h.receive hdone hidle
    rw [hnext] at hadvance
    cases hadvance
  | case5 e input output hdone r input' hr next reply hadvance grown =>
    rename_i ih
    obtain ⟨rest, rfl, hrest⟩ := Record.take?_first hin hfit hr
    obtain ⟨next', reply', hnext, hagrees, hbegun, hkind, hreply⟩ := h.receive hdone hidle
    rw [hnext] at hadvance
    simp only [Option.some.injEq, Prod.mk.injEq] at hadvance
    obtain ⟨rfl, rfl⟩ := hadvance
    obtain ⟨new, left, hshaken⟩ := ih hagrees hrest
      (fun q hq => hfit q (List.mem_cons_of_mem _ hq)) fun _ => hbegun
    refine ⟨_, left, hshaken.after ?_ ?_ (carried_cons_other hkind rest).symm⟩
    · cases reply' with
      | none => simp [grown]
      | some kind => simp [grown, emit]
    · intro q hq
      obtain ⟨kind, hk, rfl⟩ := List.mem_map.1 hq
      exact ⟨by simp [Record.Fits], hreply kind (by simpa using hk)⟩

/-- A handshake call of a started engine keeps both sides in agreement. -/
theorem handshake_agrees {e : Engine} (hstarted : e.started = true) {input : Buffer}
    (output : Buffer) {other : Phase} {outs ins : List Record} {later : Bytes}
    (h : Agrees e.side e.phase other outs ins) (hin : input.data ++ later = encodeAll ins)
    (hfit : ∀ r ∈ ins, r.Fits) :
    ∃ new rest, Shaken e other outs ins later output (handshake e input output) new rest := by
  have hgo : ¬ (!e.started) = true := by rw [hstarted]; simp
  by_cases hopen : e.side = .client ∧ e.phase = .idle
  · obtain ⟨hside, hphase⟩ := hopen
    have hgreet : Agrees e.side .awaitHelloDone other
        (outs ++ [⟨hello, [0x68, 0x65, 0x6c, 0x6c, 0x6f]⟩]) ins := by
      rw [hside, hphase] at h
      rw [hside]
      cases h with
      | idle => exact .greeted
    obtain ⟨new, rest, hs⟩ := takeHandshake_agrees { e with phase := .awaitHelloDone } input
      (emit output hello [0x68, 0x65, 0x6c, 0x6c, 0x6f]) hgreet hin hfit (by simp)
    have hcall : handshake e input output = takeHandshake { e with phase := .awaitHelloDone } input
        (emit output hello [0x68, 0x65, 0x6c, 0x6c, 0x6f]) := by
      rw [handshake, if_neg hgo, if_pos ⟨hside, hphase⟩]
    rw [hcall]
    refine ⟨_, rest, hs.after (by simp [emit]) (fun q hq => ?_) rfl⟩
    rw [List.mem_singleton.1 hq]
    exact ⟨by simp [Record.Fits], by decide⟩
  · have hcall : handshake e input output = takeHandshake e input output := by
      rw [handshake, if_neg hgo, if_neg hopen]
    rw [hcall]
    exact takeHandshake_agrees e input output h hin hfit fun hside hphase => hopen ⟨hside, hphase⟩

/-! ## Data -/

/-- Encrypting puts out one record. -/
theorem encrypt_agrees {e : Engine} {chunk : Bytes} (hlen : chunk.length ≤ e.fragment)
    (hquiet : e.renegotiateEvery = none) (output : Buffer) : encrypt e chunk output =
      ⟨.ok (), { e with writes := e.writes + 1 }, emit output data chunk⟩ := by
  rw [encrypt, if_neg (by omega)]
  simp [hquiet]

/-- Decrypting takes what is complete of a stream of data. -/
theorem decrypt_agrees (e : Engine) (input output plaintext : Buffer) {ins : List Record}
    {later : Bytes} (hin : input.data ++ later = encodeAll ins)
    (hfit : ∀ r ∈ ins, r.Fits) (hdata : ∀ r ∈ ins, r.kind = data) :
    let t := decrypt e input output plaintext
    t.answer = .ok .needsInput ∧ t.engine = e ∧ t.output = output ∧
      ∃ taken rest, ins = taken ++ rest ∧ t.input.data ++ later = encodeAll rest ∧
        t.plaintext.data = plaintext.data ++ carried taken := by
  fun_induction decrypt e input output plaintext generalizing ins with
  | case1 input plaintext hopen =>
    exfalso
    cases ins with
    | nil =>
      rw [(List.append_eq_nil_iff.1 hin).1] at hopen
      simp at hopen
    | cons r ins =>
      have hkind := hdata r (List.mem_cons_self ..)
      rw [encodeAll_cons, Record.encode_eq, hkind] at hin
      cases hd : input.data with
      | nil => simp [hd] at hopen
      | cons b bytes =>
        rw [hd] at hin hopen
        simp only [List.cons_append, List.cons.injEq] at hin
        have hb : b = hello := by simpa using hopen.2
        rw [hin.1] at hb
        exact absurd hb (by decide)
  | case2 input plaintext _ hr => exact absurd hr (Record.take?_ne_error hin hfit)
  | case3 input plaintext _ hr => exact ⟨rfl, rfl, rfl, [], ins, rfl, hin, by simp⟩
  | case4 input plaintext _ r input' hr hkind =>
    rename_i ih
    obtain ⟨rest, rfl, hrest⟩ := Record.take?_first hin hfit hr
    obtain ⟨ha, he, ho, taken, left, hsplit, hleft, hplain⟩ := ih hrest
      (fun q hq => hfit q (List.mem_cons_of_mem _ hq))
      (fun q hq => hdata q (List.mem_cons_of_mem _ hq))
    refine ⟨ha, he, ho, r :: taken, left, by rw [hsplit]; rfl, hleft, ?_⟩
    rw [hplain, carried_cons_data hkind, Buffer.data_append, List.append_assoc]
  | case5 input plaintext _ r input' hr hkind
  | case6 input plaintext _ r input' hr hkind
  | case7 input plaintext _ r input' hr hkind =>
    obtain ⟨rest, rfl, -⟩ := Record.take?_first hin hfit hr
    exact absurd (hdata r (List.mem_cons_self ..)) hkind

end Engine
end TlsTransport.Tagged
