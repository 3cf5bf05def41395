import TlsTransport.Pair

/-! # Sessions at the ends of a pipe

Over open wires a session can always write and read, or has to wait. Neither loses a byte: what the
one end has pending or has put on its wire, and what the other end has taken off, stays one stream.

* `Pipe.drain_spec`, `Pipe.fill_spec`: the two loops over an end of an open pipe.
* `Linked`: the streams from and to a session; `Linked.flush` and `Linked.fill` keep both.
-/

namespace TlsTransport

namespace Pipe

/-- Neither wire is closed. -/
def Open (p : Pipe) : Prop := p.fromClient.closed = false ∧ p.fromServer.closed = false

variable (p : Pipe) (who : Side) (w : Wire)

@[simp] theorem outgoing_setOutgoing : (p.setOutgoing who w).outgoing who = w := by
  cases who <;> rfl

@[simp] theorem incoming_setOutgoing : (p.setOutgoing who w).incoming who = p.incoming who := by
  cases who <;> rfl

@[simp] theorem incoming_setIncoming : (p.setIncoming who w).incoming who = w := by
  cases who <;> rfl

@[simp] theorem outgoing_setIncoming : (p.setIncoming who w).outgoing who = p.outgoing who := by
  cases who <;> rfl

variable {p who w}

/-- Replacing a wire by one with the same bytes on it changes no bytes. -/
theorem bytes_setOutgoing (h : w.bytes = (p.outgoing who).bytes) (side : Side) :
    ((p.setOutgoing who w).outgoing side).bytes = (p.outgoing side).bytes := by
  cases who <;> cases side <;> first | exact h | rfl

theorem Open.outgoing (h : p.Open) (who : Side) : (p.outgoing who).closed = false := by
  cases who
  · exact h.1
  · exact h.2

theorem Open.incoming (h : p.Open) (who : Side) : (p.incoming who).closed = false :=
  h.outgoing who.other

theorem Open.setOutgoing (h : p.Open) (hw : w.closed = false) : (p.setOutgoing who w).Open := by
  cases who
  · exact ⟨hw, h.2⟩
  · exact ⟨h.1, hw⟩

theorem Open.setIncoming (h : p.Open) (hw : w.closed = false) : (p.setIncoming who w).Open :=
  h.setOutgoing hw

end Pipe

/-! ## One call -/

namespace Wire

/-- An open wire takes some of the bytes that it is offered, or its budget is used up. -/
theorem write_spec {w : Wire} (h : w.closed = false) {bytes : Bytes} (hne : bytes ≠ []) :
    (w.write bytes).2.closed = false ∧
    ((∃ n, (w.write bytes).1 = .ok (n + 1) ∧
      (w.write bytes).2.bytes = w.bytes ++ bytes.take (n + 1)) ∨
    ((w.write bytes).1 = .error (.bare .wouldBlock) ∧ (w.write bytes).2.bytes = w.bytes)) := by
  have hclosed : ¬ w.closed = true := by rw [h]; simp
  obtain ⟨n, hn⟩ : ∃ n, bytes.length = n + 1 :=
    Nat.exists_eq_succ_of_ne_zero fun hz => hne (List.length_eq_zero_iff.1 hz)
  rw [write, if_neg hclosed]
  cases hb : w.budget with
  | none => exact ⟨h, .inl ⟨n, by simp [hn], by simp [← hn]⟩⟩
  | some b =>
    simp only
    split
    · exact ⟨h, .inr ⟨rfl, rfl⟩⟩
    · rename_i hspent
      obtain ⟨b, rfl⟩ : ∃ m, b = m + 1 :=
        Nat.exists_eq_succ_of_ne_zero fun hz => hspent ⟨hz, hne⟩
      have hlen : (bytes.take (b + 1)).length = min b n + 1 := by
        rw [List.length_take, hn]
        omega
      refine ⟨h, .inl ⟨min b n, by simp only [hlen], ?_⟩⟩
      have htake : bytes.take (min b n + 1) = bytes.take (b + 1) := by
        rw [← hlen, List.length_take]
        rcases Nat.le_total (b + 1) bytes.length with hle | hle
        · rw [Nat.min_eq_left hle]
        · rw [Nat.min_eq_right hle, List.take_length, List.take_of_length_le hle]
      rw [htake]

/-- An open wire gives some of its bytes, or it has none. -/
theorem read_spec {w : Wire} (h : w.closed = false) {max : Nat} (hmax : 0 < max) :
    (w.read max).2.closed = false ∧
    ((∃ bytes, bytes ≠ [] ∧ (w.read max).1 = .ok bytes ∧ bytes ++ (w.read max).2.bytes = w.bytes) ∨
    ((w.read max).1 = .error (.bare .wouldBlock) ∧ (w.read max).2.bytes = w.bytes)) := by
  unfold read
  split
  · rw [if_neg (by rw [h]; simp)]
    exact ⟨h, .inr ⟨rfl, rfl⟩⟩
  · rename_i hne
    have hne : w.bytes ≠ [] := by simpa using hne
    refine ⟨h, .inl ⟨_, ?_, rfl, List.take_append_drop _ _⟩⟩
    simp only [ne_eq, List.take_eq_nil_iff, not_or]
    refine ⟨?_, hne⟩
    cases w.chunk with
    | none => exact Nat.ne_of_gt hmax
    | some c =>
      have hpos : 0 < Nat.min max (Nat.max c 1) :=
        Nat.lt_min.2 ⟨hmax, Nat.lt_of_lt_of_le Nat.one_pos (Nat.le_max_right c 1)⟩
      exact Nat.ne_of_gt hpos

end Wire

/-! ## The two loops -/

namespace Pipe

/-- What writing out a buffer at an end of an open pipe does. -/
structure Drained (b : Buffer) (e : End) (d : Draining End) : Prop where
  answer : ∃ all, d.answer = .ok all
  side : d.socket.side = e.side
  opened : d.socket.pipe.Open
  incoming : d.socket.pipe.incoming e.side = e.pipe.incoming e.side
  outgoing : (d.socket.pipe.outgoing e.side).bytes ++ d.buffer.data =
    (e.pipe.outgoing e.side).bytes ++ b.data

theorem drain_spec (b : Buffer) (e : End) (h : e.pipe.Open) : Drained b e (drain b e) := by
  have hcall : ∀ (e : End) bytes, Socket.write e bytes = e.write bytes := fun _ _ => rfl
  have hstep : ∀ {b : Buffer} {e : End}, e.pipe.Open → b.data ≠ [] →
      (e.write b.data).2.side = e.side ∧ (e.write b.data).2.pipe.Open ∧
      (e.write b.data).2.pipe.incoming e.side = e.pipe.incoming e.side ∧
      ((∃ n, (e.write b.data).1 = .ok (n + 1) ∧ ((e.write b.data).2.pipe.outgoing e.side).bytes =
        (e.pipe.outgoing e.side).bytes ++ b.data.take (n + 1)) ∨
      ((e.write b.data).1 = .error (.bare .wouldBlock) ∧
        ((e.write b.data).2.pipe.outgoing e.side).bytes = (e.pipe.outgoing e.side).bytes)) := by
    intro b e h hne
    obtain ⟨hclosed, hwrote⟩ := Wire.write_spec (h.outgoing e.side) hne
    refine ⟨rfl, h.setOutgoing hclosed, incoming_setOutgoing .., ?_⟩
    rw [show (e.write b.data).2.pipe.outgoing e.side = ((e.pipe.outgoing e.side).write b.data).2
      from outgoing_setOutgoing ..]
    exact hwrote
  fun_induction drain b e with
  | case1 b e hempty => exact ⟨⟨true, rfl⟩, rfl, h, rfl, rfl⟩
  | case2 b e hempty r call hr =>
    have hne : b.data ≠ [] := by simpa [Buffer.isEmpty] using hempty
    obtain ⟨-, -, -, ⟨n, hn, -⟩ | ⟨hn, -⟩⟩ := hstep h hne <;>
      rw [show r.1 = (e.write b.data).1 from rfl, hn] at hr <;> cases hr
  | case3 b e hempty r call n hr rest ih =>
    have hne : b.data ≠ [] := by simpa [Buffer.isEmpty] using hempty
    obtain ⟨hside, hopen, hin, ⟨m, hm, hout⟩ | ⟨hm, -⟩⟩ := hstep h hne
    · rw [show r.1 = (e.write b.data).1 from rfl, hm] at hr
      obtain rfl : m = n := by simpa using hr
      have hrest := ih hopen
      refine ⟨hrest.answer, hrest.side.trans hside, hrest.opened, ?_, ?_⟩
      · have hin' := hrest.incoming
        rw [show r.2.side = e.side from hside] at hin'
        exact hin'.trans hin
      · have hout' := hrest.outgoing
        rw [show r.2.side = e.side from hside, show r.2 = (e.write b.data).2 from rfl, hout,
          Buffer.data_drop, List.append_assoc, List.take_append_drop] at hout'
        exact hout'
    · rw [show r.1 = (e.write b.data).1 from rfl, hm] at hr
      cases hr
  | case4 b e hempty r call cause hr hblock =>
    have hne : b.data ≠ [] := by simpa [Buffer.isEmpty] using hempty
    obtain ⟨hside, hopen, hin, ⟨m, hm, -⟩ | ⟨-, hout⟩⟩ := hstep h hne
    · rw [show r.1 = (e.write b.data).1 from rfl, hm] at hr
      cases hr
    · exact ⟨⟨false, rfl⟩, hside, hopen, hin, by rw [show r.2 = (e.write b.data).2 from rfl, hout]⟩
  | case5 b e hempty r call cause hr hblock
  | case6 b e hempty r call cause hr hblock =>
    have hne : b.data ≠ [] := by simpa [Buffer.isEmpty] using hempty
    obtain ⟨-, -, -, ⟨m, hm, -⟩ | ⟨hm, -⟩⟩ := hstep h hne
    · rw [show r.1 = (e.write b.data).1 from rfl, hm] at hr
      cases hr
    · rw [show r.1 = (e.write b.data).1 from rfl, hm] at hr
      obtain rfl : .bare .wouldBlock = cause := by simpa using hr
      exact absurd rfl hblock

/-- What one read at an end of an open pipe does. -/
structure Filled (b : Buffer) (e : End) (f : Filling End) : Prop where
  answer : f.answer = .error (.bare .wouldBlock) ∨ ∃ bytes, bytes ≠ [] ∧ f.answer = .ok bytes
  side : f.socket.side = e.side
  opened : f.socket.pipe.Open
  outgoing : f.socket.pipe.outgoing e.side = e.pipe.outgoing e.side
  incoming : f.buffer.data ++ (f.socket.pipe.incoming e.side).bytes =
    b.data ++ (e.pipe.incoming e.side).bytes

theorem fillFrom_spec (b : Buffer) (e : End) (h : e.pipe.Open) {max : Nat} (hmax : 0 < max) :
    Filled b e (b.fillFrom e max) := by
  have hanswer : (b.fillFrom e max).answer = ((e.pipe.incoming e.side).read max).1 := rfl
  have hsocket : (b.fillFrom e max).socket.pipe =
      e.pipe.setIncoming e.side ((e.pipe.incoming e.side).read max).2 := rfl
  obtain ⟨hclosed, hread⟩ := Wire.read_spec (h.incoming e.side) hmax
  refine ⟨?_, rfl, by rw [hsocket]; exact h.setIncoming hclosed,
    by rw [hsocket, outgoing_setIncoming], ?_⟩
  · rw [hanswer]
    rcases hread with ⟨bytes, hne, hok, -⟩ | ⟨herror, -⟩
    · exact .inr ⟨bytes, hne, hok⟩
    · exact .inl herror
  · rw [hsocket, incoming_setIncoming]
    rcases hread with ⟨bytes, -, hok, hbytes⟩ | ⟨herror, hbytes⟩
    · have hb : (b.fillFrom e max).buffer.data = b.data ++ bytes := by
        have hr : (Socket.read e max).1 = .ok bytes := hok
        simp [Buffer.fillFrom, hr]
      rw [hb, List.append_assoc, hbytes]
    · have hb : (b.fillFrom e max).buffer.data = b.data := by
        have hr : (Socket.read e max).1 = .error (.bare .wouldBlock) := herror
        simp [Buffer.fillFrom, hr]
      rw [hb, hbytes]

theorem fill_spec (b : Buffer) (e : End) (h : e.pipe.Open) {max : Nat} (hmax : 0 < max) :
    Filled b e (fill b e max) := by
  have hfrom := fillFrom_spec b e h hmax
  have hcalm : ¬ (b.fillFrom e max).isInterrupted = true := by
    unfold Filling.isInterrupted
    rcases hfrom.answer with ha | ⟨bytes, -, ha⟩ <;> rw [ha]
    · decide
    · simp
  rw [fill, if_neg hcalm]
  exact hfrom

end Pipe

/-! ## Streams -/

/-- A session at its end of an open pipe: `outs` is what the other end has taken off this end's wire
but not consumed (`ahead`), then the wire, then what is pending here; `ins` is what arrived here,
then the other wire, then what is pending at the other end (`behind`). -/
structure Linked {σ ε : Type} (who : Side) (ahead behind : Bytes) (s : PipeSession σ ε)
    (outs ins : Bytes) : Prop where
  link : ∃ pipe : Pipe, s.socket = some ⟨pipe, who⟩ ∧ pipe.Open ∧
    ahead ++ ((pipe.outgoing who).bytes ++ s.pendingWrite.data) = outs ∧
    s.rawRead.data ++ (pipe.incoming who).bytes ++ behind = ins

namespace Linked

variable {σ ε : Type} {who : Side} {ahead behind outs ins : Bytes} {s t : PipeSession σ ε}

/-- Only the socket and two buffers matter. -/
theorem congr (h : Linked who ahead behind s outs ins) (hk : t.socket = s.socket)
    (hp : t.pendingWrite.data = s.pendingWrite.data) (hr : t.rawRead.data = s.rawRead.data) :
    Linked who ahead behind t outs ins := by
  obtain ⟨pipe, hs, hopen, hout, hin⟩ := h.link
  exact ⟨pipe, hk.trans hs, hopen, by rw [hp]; exact hout, by rw [hr]; exact hin⟩

/-- Putting something out. -/
theorem emit (h : Linked who ahead behind s outs ins) {new : Bytes} (hk : t.socket = s.socket)
    (hp : t.pendingWrite.data = s.pendingWrite.data ++ new) (hr : t.rawRead.data = s.rawRead.data) :
    Linked who ahead behind t (outs ++ new) ins := by
  obtain ⟨pipe, hs, hopen, hout, hin⟩ := h.link
  refine ⟨pipe, hk.trans hs, hopen, ?_, by rw [hr]; exact hin⟩
  rw [hp, ← hout]
  simp only [List.append_assoc]

theorem flush (h : Linked who ahead behind s outs ins) :
    (∃ all, s.flushPending.1 = .ok all) ∧ Linked who ahead behind s.flushPending.2 outs ins := by
  obtain ⟨pipe, hs, hopen, hout, hin⟩ := h.link
  have hd := Pipe.drain_spec s.pendingWrite ⟨pipe, who⟩ hopen
  simp only [Session.flushPending, hs]
  generalize TlsTransport.drain s.pendingWrite (⟨pipe, who⟩ : Pipe.End) = d at hd ⊢
  obtain ⟨answer, b, ⟨after, side⟩, calls⟩ := d
  obtain rfl : side = who := hd.side
  refine ⟨hd.answer, after, rfl, hd.opened, ?_, ?_⟩
  · rw [← hout]
    exact congrArg (ahead ++ ·) hd.outgoing
  · rw [← hin]
    exact congrArg (fun w : Wire => s.rawRead.data ++ w.bytes ++ behind) hd.incoming

theorem fill (h : Linked who ahead behind s outs ins) {max : Nat} (hmax : 0 < max) :
    ((s.fillRaw max).1 = .error (.bare .wouldBlock) ∨
      ∃ bytes, bytes ≠ [] ∧ (s.fillRaw max).1 = .ok bytes) ∧
    Linked who ahead behind (s.fillRaw max).2 outs ins := by
  obtain ⟨pipe, hs, hopen, hout, hin⟩ := h.link
  have hf := Pipe.fill_spec s.rawRead ⟨pipe, who⟩ hopen hmax
  simp only [Session.fillRaw, hs]
  generalize TlsTransport.fill s.rawRead (⟨pipe, who⟩ : Pipe.End) max = f at hf ⊢
  obtain ⟨answer, b, ⟨after, side⟩, calls⟩ := f
  obtain rfl : side = who := hf.side
  refine ⟨hf.answer, after, rfl, hf.opened, ?_, ?_⟩
  · rw [← hout]
    exact congrArg (fun w : Wire => ahead ++ (w.bytes ++ s.pendingWrite.data)) hf.outgoing
  · rw [← hin]
    exact congrArg (· ++ behind) hf.incoming

end Linked
end TlsTransport
