import Mathlib.Data.List.Induction
import TlsTransport.Proofs.Session.Waiting
import TlsTransport.Script.Engine
import TlsTransport.Script.Socket

/-! # Writes that are resumed

A write that would block is repeated with the same payload until it ends. Whatever happens in
between, the engine is given the payload piece by piece, in order, and no piece twice.

* `pieces`: a payload as it is cut when nothing interrupts.
* `Session.sendRest_sent`: what one write does to the pieces that are left.
* `Underway`: what is known between the calls of a write.
* `Session.ResumedWrite`: what holds of a write from its first call to its last.
-/

namespace TlsTransport

variable {σ ω ε : Type}

/-! ## Cutting a payload -/

/-- A payload in pieces of at most `max 1 fragment` bytes. -/
def pieces (fragment : Nat) (rest : Bytes) : List Bytes :=
  if rest.isEmpty then []
  else rest.take (max 1 fragment) :: pieces fragment (rest.drop (max 1 fragment))
termination_by rest.length
decreasing_by
  have hne : rest ≠ [] := by simpa using ‹¬rest.isEmpty = true›
  have := List.length_pos_iff.2 hne
  simp only [List.length_drop]; omega

@[simp] theorem pieces_nil (fragment : Nat) : pieces fragment [] = [] := by
  rw [pieces, if_pos (by simp)]

theorem pieces_of_ne_nil (fragment : Nat) {rest : Bytes} (h : rest ≠ []) :
    pieces fragment rest =
      rest.take (max 1 fragment) :: pieces fragment (rest.drop (max 1 fragment)) := by
  rw [pieces, if_neg (by simpa using h)]

theorem pieces_flatten (fragment : Nat) (rest : Bytes) : (pieces fragment rest).flatten = rest := by
  fun_induction pieces fragment rest with
  | case1 rest h => simpa using h.symm
  | case2 rest h ih => rw [List.flatten_cons, ih, List.take_append_drop]

theorem pieces_bound (fragment : Nat) (rest : Bytes) :
    ∀ piece ∈ pieces fragment rest, piece ≠ [] ∧ piece.length ≤ max 1 fragment := by
  fun_induction pieces fragment rest with
  | case1 => simp
  | case2 rest h ih =>
    intro piece hp
    rcases List.mem_cons.1 hp with rfl | hp
    · have hne : rest ≠ [] := by simpa using h
      refine ⟨?_, List.length_take_le _ _⟩
      simp only [ne_eq, List.take_eq_nil_iff, not_or]
      exact ⟨by omega, hne⟩
    · exact ih piece hp

/-- Cutting goes on where it stopped. -/
theorem pieces_resume {fragment : Nat} {sent : List Bytes} {payload : Bytes}
    (h : sent <+: pieces fragment payload) :
    sent ++ pieces fragment (payload.drop sent.flatten.length) = pieces fragment payload := by
  induction sent generalizing payload with
  | nil => simp
  | cons piece sent ih =>
    have hne : payload ≠ [] := by
      rintro rfl
      simp at h
    rw [pieces_of_ne_nil fragment hne] at h ⊢
    obtain ⟨hpiece, hsent⟩ := List.cons_prefix_cons.1 h
    have hdrop : payload.drop piece.length = payload.drop (max 1 fragment) := by
      rw [hpiece, List.length_take]
      rcases Nat.le_total (max 1 fragment) payload.length with hle | hle
      · rw [Nat.min_eq_left hle]
      · rw [Nat.min_eq_right hle, List.drop_length, List.drop_eq_nil_of_le hle]
    rw [List.flatten_cons, List.length_append, ← List.drop_drop, hdrop, List.cons_append, ih hsent,
      hpiece]

namespace Session

/-! ## One write -/

/-- Of a payload these pieces were given to the engine between two moments, and whether each was
encrypted. -/
structure Encrypts (s t : Session σ ω ε) (es : List (Bytes × Bool)) : Prop where
  encryptions : t.encryptions = s.encryptions ++ es
  mismatches : t.mismatches = s.mismatches

theorem Keeps.encrypts {s t u : Session σ ω ε} {es : List (Bytes × Bool)} (h : Keeps s t)
    (k : Encrypts t u es) : Encrypts s u es :=
  ⟨by rw [k.encryptions, h.encryptions], k.mismatches.trans h.mismatches⟩

theorem Rests.encrypts {s t : Session σ ω ε} (h : Rests s t) : Encrypts s t [] :=
  ⟨by rw [h.encryptions, List.append_nil], h.mismatches⟩

theorem Encrypts.trans {s t u : Session σ ω ε} {es fs : List (Bytes × Bool)} (h : Encrypts s t es)
    (k : Encrypts t u fs) : Encrypts s u (es ++ fs) :=
  ⟨by rw [k.encryptions, h.encryptions, List.append_assoc], k.mismatches.trans h.mismatches⟩

/-- How a write of the rest of a payload ends: all of it was encrypted and nothing is pending, or
it waits with what was encrypted counted, or it is given up. -/
inductive Sent (flight : InFlight) (whole : List Bytes) (es : List (Bytes × Bool)) :
    Status Nat Unit → Session σ ω ε → Prop where
  | done {t : Session σ ω ε} (hall : ∀ e ∈ es, e.2 = true) (hwhole : es.map Prod.fst = whole)
      (hflushed : t.pendingWrite.data = []) : Sent flight whole es (.ok flight.length) t
  | blocked {t : Session σ ω ε} (hall : ∀ e ∈ es, e.2 = true) (hflight : t.inFlight =
      some { flight with locked := flight.locked + (es.map Prod.fst).flatten.length }) :
      Sent flight whole es .wouldBlock t
  | failed {t : Session σ ω ε} (hall : ∀ e ∈ es.dropLast, e.2 = true) (hflight : t.inFlight = none)
      (hspent : t.Spent) : Sent flight whole es (.error ()) t

/-- One more piece before the others. -/
theorem Sent.cons {flight : InFlight} {whole : List Bytes} {es : List (Bytes × Bool)}
    {chunk : Bytes} {status : Status Nat Unit} {t : Session σ ω ε}
    (h : Sent { flight with locked := flight.locked + chunk.length } whole es status t) :
    Sent flight (chunk :: whole) ((chunk, true) :: es) status t := by
  have hhead : ∀ {fs : List (Bytes × Bool)}, (∀ e ∈ fs, e.2 = true) →
      ∀ e ∈ (chunk, true) :: fs, e.2 = true := by
    intro fs hfs e he
    rcases List.mem_cons.1 he with rfl | he
    · rfl
    · exact hfs e he
  cases h with
  | done hall hwhole hflushed =>
    exact .done (hhead hall) (congrArg (List.cons chunk) hwhole) hflushed
  | blocked hall hflight =>
    refine .blocked (hhead hall) (hflight.trans ?_)
    have hlen : flight.locked + chunk.length + (es.map Prod.fst).flatten.length =
        flight.locked + (((chunk, true) :: es).map Prod.fst).flatten.length := by
      simp only [List.map_cons, List.flatten_cons, List.length_append]
      omega
    exact congrArg (fun n => some { flight with locked := n }) hlen
  | failed hall hflight hspent =>
    refine .failed ?_ hflight hspent
    cases es with
    | nil => simp
    | cons e es => exact hhead hall

/-- The write of a payload, of which so many bytes are encrypted, is to be resumed. -/
def Awaits (s : Session σ ω ε) (payload : Bytes) (locked : Nat) : Prop :=
  s.inFlight = some ⟨payload.length, locked, Digest.sip payload⟩

/-- The session can go on with a payload of which so many bytes are encrypted, or start with it. -/
def Takes (s : Session σ ω ε) (payload : Bytes) (locked : Nat) : Prop :=
  s.Awaits payload locked ∨ s.inFlight = none ∧ locked = 0 ∧ payload ≠ []

theorem Takes.first {s : Session σ ω ε} {payload : Bytes} (hf : s.inFlight = none)
    (hp : payload ≠ []) : s.Takes payload 0 := .inr ⟨hf, rfl, hp⟩

theorem Awaits.of_rests {payload : Bytes} {locked : Nat} {s t : Session σ ω ε}
    (h : s.Awaits payload locked) (hr : Rests s t) (ht : t.state.live = true) :
    t.Awaits payload locked := by
  rcases hr.inFlight with hsame | ⟨-, hspent⟩
  · rw [Awaits, hsame]
    exact h
  · have hlive := hspent.2
    rw [ht] at hlive
    cases hlive

variable [Engine σ ε]

theorem encryptOnce_encrypts {s t : Session σ ω ε} {chunk : Bytes} {answer : Except ε Unit}
    (h : s.encryptOnce chunk = (answer, t)) : Encrypts s t [(chunk, answer.isOk)] := by
  have hj : t.journal = .engine (.encrypt chunk
      ((Engine.encrypt s.engine chunk s.pendingWrite).traffic s.pendingWrite) answer) ::
      s.journal := by
    have ht : t = (s.encryptOnce chunk).2 := by rw [h]
    have ha : answer = (s.encryptOnce chunk).1 := by rw [h]
    rw [ht, ha]
    rfl
  refine ⟨?_, ?_⟩
  · rw [encryptions, encryptions, hj, gather_cons]
    cases answer <;> rfl
  · rw [mismatches, mismatches, hj, gather_cons]
    exact congrArg List.length (List.append_nil _)

variable [Socket ω]

/-- A write gives the engine the first pieces of what is left, and all of them if it ends well. -/
theorem sendRest_sent (fragment : Nat) (flight : InFlight) (rest : Bytes) (s : Session σ ω ε) :
    ∃ es, Encrypts s (s.sendRest fragment flight rest).2 es ∧
      es.map Prod.fst <+: pieces fragment rest ∧
      Sent flight (pieces fragment rest) es (s.sendRest fragment flight rest).1
        (s.sendRest fragment flight rest).2 := by
  induction flight, rest, s using sendRest.induct (σ := σ) (ω := ω) (ε := ε) fragment with
  | case1 flight rest s t e h₁ =>
    rw [sendRest_of_failed h₁]
    have hfail : Rests t (t.fail (.io e)) := .fail t (by simp)
    exact ⟨[], (Keeps.of_flushed h₁).encrypts hfail.encrypts, List.nil_prefix,
      .failed (by simp) (t.fail_inFlight _) (t.fail_spent _)⟩
  | case2 flight rest s t h₁ =>
    rw [sendRest_of_blocked h₁]
    have hnote : Keeps t (t.note (.writeBlocked flight.locked flight.length t.pendingWrite.size)) :=
      .note t rfl
    have hencrypts := (Keeps.of_flushed h₁).encrypts hnote.toRests.encrypts
    exact ⟨[], ⟨hencrypts.encryptions, hencrypts.mismatches⟩, List.nil_prefix,
      .blocked (by simp) rfl⟩
  | case3 flight rest s t hr h₁ =>
    have hrest : rest = [] := by simpa using hr
    rw [sendRest_of_done h₁ hrest]
    have hflushed : t.pendingWrite.data = [] := by
      have hd := flushPending_done (s := s) (by rw [h₁])
      rwa [h₁] at hd
    exact ⟨[], (Keeps.of_flushed h₁).toRests.encrypts, List.nil_prefix,
      .done (by simp) (by simp [hrest]) hflushed⟩
  | case4 flight rest s t hr chunk u e h₁ h₂ =>
    have hrest : rest ≠ [] := by simpa using hr
    rw [sendRest_of_refused h₁ hrest h₂, pieces_of_ne_nil fragment hrest]
    have hfail : Rests u (u.fail (.native e)) := .fail u (by simp)
    have hencrypts := (Keeps.of_flushed h₁).encrypts <|
      (encryptOnce_encrypts h₂).trans hfail.encrypts
    exact ⟨_, hencrypts, List.prefix_append [chunk] _,
      .failed (by simp) (u.fail_inFlight _) (u.fail_spent _)⟩
  | case5 flight rest s t hr chunk u a h₁ h₂ ih =>
    have hrest : rest ≠ [] := by simpa using hr
    rw [sendRest_of_encrypted h₁ hrest h₂, pieces_of_ne_nil fragment hrest]
    obtain ⟨es, hes, hpre, hsent⟩ := ih
    exact ⟨_, (Keeps.of_flushed h₁).encrypts ((encryptOnce_encrypts h₂).trans hes),
      List.cons_prefix_cons.2 ⟨rfl, hpre⟩, hsent.cons⟩

/-! ## A write of a payload -/

theorem sendPayload_eq {s : Session σ ω ε} {payload : Bytes} {locked : Nat}
    (h : s.Takes payload locked) :
    s.sendPayload payload = { s with inFlight := none }.sendRest (Engine.maxFragment s.engine)
      ⟨payload.length, locked, Digest.sip payload⟩ (payload.drop locked) := by
  rcases h with h | ⟨hnone, rfl, hne⟩
  · have h : s.inFlight = some ⟨payload.length, locked, Digest.sip payload⟩ := h
    simp [sendPayload, h]
  · have hs : { s with inFlight := none } = s := by rw [← hnone]
    have hempty : ¬ payload.isEmpty = true := by simpa using hne
    rw [hs, List.drop_zero]
    simp only [sendPayload, hnone, if_neg hempty]

/-- The session whose engine says how long the pieces of a write are. -/
def resumed (s : Session σ ω ε) : Session σ ω ε :=
  if s.state = .connected then s else s.runHandshake.2

/-- What a write of a payload does, when so many bytes of it were encrypted before. -/
structure Written (payload : Bytes) (locked : Nat) (s : Session σ ω ε)
    (r : Status Nat Unit × Session σ ω ε) (es : List (Bytes × Bool)) : Prop where
  encrypts : Encrypts s r.2 es
  cut : es.map Prod.fst <+: pieces (Engine.maxFragment s.resumed.engine) (payload.drop locked)
  ended : ∀ n, r.1 = .ok n → n = payload.length ∧ (∀ e ∈ es, e.2 = true) ∧
    es.map Prod.fst = pieces (Engine.maxFragment s.resumed.engine) (payload.drop locked) ∧
    r.2.pendingWrite.data = []
  unfinished : (∀ n, r.1 ≠ .ok n) →
    (r.2.Awaits payload (locked + (es.map Prod.fst).flatten.length) ∧ ∀ e ∈ es, e.2 = true) ∨
    (r.2.inFlight = none ∧ r.2.Spent ∧ ∀ e ∈ es.dropLast, e.2 = true)

theorem sendPayload_written {s : Session σ ω ε} {payload : Bytes} {locked : Nat}
    (hs : s.resumed = s)
    (h : s.Takes payload locked) :
    ∃ es, Written payload locked s (s.sendPayload payload) es := by
  rw [sendPayload_eq h]
  obtain ⟨es, hes, hcut, hsent⟩ := sendRest_sent (Engine.maxFragment s.engine)
    ⟨payload.length, locked, Digest.sip payload⟩ (payload.drop locked) { s with inFlight := none }
  generalize { s with inFlight := none }.sendRest (Engine.maxFragment s.engine)
    ⟨payload.length, locked, Digest.sip payload⟩ (payload.drop locked) = r at hes hsent ⊢
  obtain ⟨status, t⟩ := r
  refine ⟨es, ⟨hes.encryptions, hes.mismatches⟩, by rwa [hs], fun n hn => ?_, fun hopen => ?_⟩
  · cases hsent with
    | done hall hwhole hflushed =>
      injection hn with hn
      exact ⟨hn.symm, hall, by rw [hs]; exact hwhole, hflushed⟩
    | blocked => cases hn
    | failed => cases hn
  · cases hsent with
    | done => exact absurd rfl (hopen _)
    | blocked hall hflight => exact .inl ⟨hflight, hall⟩
    | failed hall hflight hspent => exact .inr ⟨hflight, hspent, hall⟩

/-- A write that comes to nothing leaves things as they rest. -/
theorem Written.of_rests {payload : Bytes} {locked : Nat} {s t : Session σ ω ε}
    {status : Status Nat Unit} (hs : s.Awaits payload locked) (h : Rests s t)
    (hno : ∀ n, status ≠ .ok n) : Written payload locked s (status, t) [] where
  encrypts := h.encrypts
  cut := List.nil_prefix
  ended n hn := absurd hn (hno n)
  unfinished _ := by
    rcases h.inFlight with hsame | ⟨hnone, hspent⟩
    · exact .inl ⟨by rw [Awaits, hsame]; exact hs, by simp⟩
    · exact .inr ⟨hnone, hspent, by simp⟩

theorem writeData_resumed {s : Session σ ω ε} {payload : Bytes} {locked : Nat}
    (h : s.Awaits payload locked) : ∃ es, Written payload locked s (s.writeData payload) es := by
  by_cases hconn : s.state = .connected
  · have hw : s.writeData payload = s.sendPayload payload := by simp only [writeData, if_pos hconn]
    rw [hw]
    exact sendPayload_written (if_pos hconn) (.inl h)
  · unfold writeData
    rw [if_neg hconn]
    split
    · rename_i hin
      have hrests := runHandshake_rests (s := s) (.inl (by simp_all))
      have hresumed : s.resumed = s.runHandshake.2 := if_neg hconn
      rcases hr : s.runHandshake with ⟨status, t⟩
      rw [hr] at hrests hresumed
      cases status with
      | ok v =>
        have ht : t.state = .connected := runHandshake_ok hr
        have hself : t.resumed = t := if_pos ht
        have hlive : t.state.live = true := by rw [ht]; rfl
        obtain ⟨es, hes⟩ := sendPayload_written hself (.inl (h.of_rests hrests hlive))
        have hcut := hes.cut
        have hended := hes.ended
        rw [hself] at hcut hended
        refine ⟨es, hrests.encrypts.trans hes.encrypts, ?_, ?_, hes.unfinished⟩
        · rw [hresumed]
          exact hcut
        · rw [hresumed]
          exact hended
      | wouldBlock => exact ⟨[], .of_rests h hrests (by simp)⟩
      | error => exact ⟨[], .of_rests h hrests (by simp)⟩
    split
    · exact ⟨[], .of_rests h (Keeps.refl s).toRests (by simp)⟩
    · exact ⟨[], .of_rests h (.fail s (by simp)) (by simp)⟩

theorem writeData_spent {s : Session σ ω ε} (h : s.Spent) (payload : Bytes) :
    (s.writeData payload).1 = .error () ∧ Rests s (s.writeData payload).2 := by
  have hconn : s.state ≠ .connected := fun hc => by
    have hlive := h.2
    rw [hc] at hlive
    cases hlive
  have hin : s.state.inHandshake ≠ true := fun hc => by
    have hlive := h.2
    rw [SessionState.live_of_inHandshake hc] at hlive
    cases hlive
  unfold writeData
  rw [if_neg hconn, if_neg (by simp [hin])]
  split
  · exact ⟨rfl, (Keeps.refl s).toRests⟩
  · exact ⟨rfl, .fail s (by simp)⟩

/-! ## A write over many calls -/

/-- How long pieces may be, as a call reads it off the engine. -/
def limitsRead (s : Session σ ω ε) : Call ω → List Nat
  | .write _ => [Engine.maxFragment s.resumed.engine]
  | _ => []

/-- How long pieces may be, as each write of a run reads it off the engine. -/
def limits (s : Session σ ω ε) : List (Call ω) → List Nat
  | [] => []
  | c :: calls => s.limitsRead c ++ (s.perform c).2.limits calls

theorem limits_concat (s : Session σ ω ε) (calls : List (Call ω)) (c : Call ω) :
    s.limits (calls ++ [c]) = s.limits calls ++ (s.run calls).2.limitsRead c := by
  induction calls generalizing s with
  | nil => simp [limits, run]
  | cons d calls ih => simp only [List.cons_append, limits, run, ih, List.append_assoc]

/-- What is known of a session after some calls of a write: which pieces the engine was given. -/
structure Underway (payload : Bytes) (s t : Session σ ω ε) (limits : List Nat)
    (es : List (Bytes × Bool)) : Prop where
  encrypts : Encrypts s t es
  part : (es.map Prod.fst).flatten <+: payload
  cut : ∀ n, (∀ m ∈ limits, m = n) → es.map Prod.fst <+: pieces n payload

/-- A write that has not ended well waits with what was encrypted counted, or was given up. -/
def Paused (payload : Bytes) (t : Session σ ω ε) (es : List (Bytes × Bool)) : Prop :=
  (t.Awaits payload (es.map Prod.fst).flatten.length ∧ ∀ e ∈ es, e.2 = true) ∨
  (t.inFlight = none ∧ t.Spent ∧ ∀ e ∈ es.dropLast, e.2 = true)

/-- A write that ended well has encrypted and sent all of its payload. -/
structure Ended (payload : Bytes) (t : Session σ ω ε) (limits : List Nat)
    (es : List (Bytes × Bool)) (n : Nat) : Prop where
  length : n = payload.length
  encrypted : ∀ e ∈ es, e.2 = true
  whole : (es.map Prod.fst).flatten = payload
  cut : ∀ n, (∀ m ∈ limits, m = n) → es.map Prod.fst = pieces n payload
  flushed : t.pendingWrite.data = []

/-- Pieces cut from what is left go on with those that were cut before. -/
theorem cut_append {payload : Bytes} {sent new : List Bytes} {n : Nat}
    (hnew : new <+: pieces n (payload.drop sent.flatten.length))
    (hsent : sent.flatten <+: payload) :
    (sent ++ new).flatten <+: payload ∧
      (sent <+: pieces n payload → sent ++ new <+: pieces n payload) := by
  have hflat : new.flatten <+: payload.drop sent.flatten.length := by
    obtain ⟨later, hlater⟩ := hnew
    refine ⟨later.flatten, ?_⟩
    rw [← List.flatten_append, hlater, pieces_flatten]
  refine ⟨?_, fun hcut => ?_⟩
  · obtain ⟨rest, hrest⟩ := hsent
    rw [← hrest, List.drop_left] at hflat
    rw [List.flatten_append, ← hrest]
    exact (List.prefix_append_right_inj _).2 hflat
  · rw [← pieces_resume hcut]
    exact (List.prefix_append_right_inj _).2 hnew

/-- What a call of a write does: it gives the engine the pieces `new` after the pieces `es`. -/
structure Continues (payload : Bytes) (s u : Session σ ω ε) (limits : List Nat)
    (es : List (Bytes × Bool)) (c : Call ω) (new : List (Bytes × Bool)) : Prop where
  underway : Underway payload s (u.perform c).2 (limits ++ u.limitsRead c) (es ++ new)
  ended : ∀ n, (u.perform c).1 = .wrote (.ok n) →
    Ended payload (u.perform c).2 (limits ++ u.limitsRead c) (es ++ new) n
  paused : (∀ n, (u.perform c).1 ≠ .wrote (.ok n)) → Paused payload (u.perform c).2 (es ++ new)
  bound : ∀ e ∈ new, e.1 ≠ [] ∧ ∃ m ∈ u.limitsRead c, e.1.length ≤ max 1 m

theorem Written.continues {payload : Bytes} {s u : Session σ ω ε} {limits : List Nat}
    {es new : List (Bytes × Bool)} (h : Underway payload s u limits es)
    (hall : ∀ e ∈ es, e.2 = true)
    (hw : Written payload (es.map Prod.fst).flatten.length u (u.writeData payload) new) :
    Continues payload s u limits es (.write payload) new := by
  obtain ⟨hpart, hcut⟩ := cut_append hw.cut h.part
  rw [← List.map_append] at hpart hcut
  have hboth : ∀ {n}, (∀ m ∈ limits ++ u.limitsRead (.write payload), m = n) →
      (∀ m ∈ limits, m = n) ∧ Engine.maxFragment u.resumed.engine = n := by
    intro n hn
    exact ⟨fun m hm => hn m (List.mem_append_left _ hm),
      hn _ (List.mem_append_right _ (List.mem_singleton.2 rfl))⟩
  refine ⟨⟨h.encrypts.trans hw.encrypts, hpart, fun n hn => ?_⟩, fun n hn => ?_, fun hopen => ?_,
    fun e he => ?_⟩
  · obtain ⟨hlimits, hlast⟩ := hboth hn
    rw [hlast] at hcut
    exact hcut (h.cut n hlimits)
  · injection hn with hn
    obtain ⟨hlength, hnew, hwhole, hflushed⟩ := hw.ended n hn
    refine ⟨hlength, fun e he => (List.mem_append.1 he).elim (hall e) (hnew e), ?_,
      fun m hm => ?_, hflushed⟩
    · rw [List.map_append, List.flatten_append, hwhole, pieces_flatten]
      obtain ⟨rest, hrest⟩ := h.part
      rw [← hrest, List.drop_left]
    · obtain ⟨hlimits, hlast⟩ := hboth hm
      rw [List.map_append, hwhole, hlast]
      exact pieces_resume (h.cut m hlimits)
  · have hno : ∀ n, (u.writeData payload).1 ≠ .ok n :=
      fun n hn => hopen n (congrArg Answer.wrote hn)
    rcases hw.unfinished hno with ⟨hawaits, hnew⟩ | ⟨hnone, hspent, hnew⟩
    · refine .inl ⟨?_, fun e he => ?_⟩
      · rw [List.map_append, List.flatten_append, List.length_append]
        exact hawaits
      · exact (List.mem_append.1 he).elim (hall e) (hnew e)
    · refine .inr ⟨hnone, hspent, fun e he => ?_⟩
      cases new with
      | nil =>
        rw [List.append_nil] at he
        exact hall e (List.dropLast_subset _ he)
      | cons f fs =>
        rw [List.dropLast_append_of_ne_nil (by simp)] at he
        exact (List.mem_append.1 he).elim (hall e) (hnew e)
  · have hmem := hw.cut.subset (List.mem_map_of_mem he)
    obtain ⟨hne, hle⟩ := pieces_bound _ _ _ hmem
    exact ⟨hne, _, List.mem_singleton.2 rfl, hle⟩

theorem Rests.continues {payload : Bytes} {s u : Session σ ω ε} {limits : List Nat}
    {es : List (Bytes × Bool)} {c : Call ω} (h : Underway payload s u limits es)
    (hp : Paused payload u es) (hr : Rests u (u.perform c).2)
    (hspent : u.Spent → (u.perform c).2.Spent) (hno : ∀ n, (u.perform c).1 ≠ .wrote (.ok n)) :
    Continues payload s u limits es c [] := by
  have henc := h.encrypts.trans hr.encrypts
  refine ⟨⟨henc, ?_, fun n hn => ?_⟩, fun n hn => absurd hn (hno n), fun _ => ?_, by simp⟩
  · rw [List.append_nil]
    exact h.part
  · rw [List.append_nil]
    exact h.cut n fun m hm => hn m (List.mem_append_left _ hm)
  · rw [List.append_nil]
    rcases hr.inFlight with hsame | ⟨hnone, hs⟩
    · rcases hp with ⟨hawaits, hall⟩ | ⟨hnone, hs, hall⟩
      · exact .inl ⟨by rw [Awaits, hsame]; exact hawaits, hall⟩
      · exact .inr ⟨hsame.trans hnone, hspent hs, hall⟩
    · refine .inr ⟨hnone, hs, fun e he => ?_⟩
      rcases hp with ⟨-, hall⟩ | ⟨-, -, hall⟩
      · exact hall e (List.dropLast_subset _ he)
      · exact hall e he

end Session

/-- The calls that can follow a write until it ends: neither another write nor a close. -/
def Call.retries (payload : Bytes) (c : Call ω) : Prop := c = .write payload ∨ c.standsBy

namespace Session

variable [Engine σ ε] [Socket ω]

theorem first_continues {s : Session σ ω ε} (hs : s.state = .connected) (hf : s.inFlight = none)
    {payload : Bytes} (hp : payload ≠ []) :
    ∃ new, Continues payload s s [] [] (.write payload) new := by
  have hempty : Underway payload s s [] [] :=
    ⟨(Keeps.refl s).toRests.encrypts, List.nil_prefix, fun _ _ => List.nil_prefix⟩
  have hw : s.writeData payload = s.sendPayload payload := by simp only [writeData, if_pos hs]
  obtain ⟨new, hnew⟩ := sendPayload_written (if_pos hs) (.first hf hp)
  rw [← hw] at hnew
  exact ⟨new, hnew.continues hempty (by simp)⟩

theorem Paused.continues {payload : Bytes} {s u : Session σ ω ε} {limits : List Nat}
    {es : List (Bytes × Bool)} (h : Underway payload s u limits es) (hp : Paused payload u es)
    {c : Call ω} (hc : c.retries payload) : ∃ new, Continues payload s u limits es c new := by
  rcases hc with rfl | hc
  · rcases hp with ⟨hawaits, hall⟩ | ⟨hnone, hspent, hall⟩
    · obtain ⟨new, hnew⟩ := writeData_resumed hawaits
      exact ⟨new, hnew.continues h hall⟩
    · obtain ⟨herror, hrests⟩ := writeData_spent hspent payload
      refine ⟨[], hrests.continues (c := .write payload) h (.inr ⟨hnone, hspent, hall⟩)
        (fun hs => perform_spent hs _) fun n hn => ?_⟩
      injection hn with hn
      rw [herror] at hn
      cases hn
  · exact ⟨[], (u.perform_rests hc).continues h hp (fun hs => perform_spent hs c)
      (u.perform_not_wrote hc)⟩

/-- While no write has ended well, a write waits or was given up. -/
theorem run_paused {s : Session σ ω ε} (hs : s.state = .connected) (hf : s.inFlight = none)
    {payload : Bytes} (hp : payload ≠ []) (rest : List (Call ω))
    (hrest : ∀ c ∈ rest, c.retries payload)
    (hopen : ∀ answer ∈ (s.run (.write payload :: rest)).1, ∀ n, answer ≠ .wrote (.ok n)) :
    ∃ es, Underway payload s (s.run (.write payload :: rest)).2 (s.limits (.write payload :: rest))
      es ∧ Paused payload (s.run (.write payload :: rest)).2 es := by
  -- The last call of the run goes on from the session that the others left.
  induction rest using List.reverseRecOn with
  | nil =>
    obtain ⟨new, hnew⟩ := first_continues hs hf hp
    refine ⟨new, ?_, hnew.paused fun n => hopen _ (List.mem_singleton.2 rfl) n⟩
    have hlimits : s.limits [.write payload] = [] ++ s.limitsRead (.write payload) :=
      s.limits_concat [] (.write payload)
    rw [hlimits]
    exact hnew.underway
  | append_singleton rest c ih =>
    rw [← List.cons_append, run_concat] at hopen ⊢
    have hbefore : ∀ d ∈ rest, d.retries payload := fun d hd =>
      hrest d (List.mem_append_left _ hd)
    obtain ⟨es, hes, hpaused⟩ := ih hbefore fun answer ha =>
      hopen answer (List.mem_append_left _ ha)
    obtain ⟨new, hnew⟩ := hpaused.continues hes (hrest c (by simp))
    refine ⟨es ++ new, ?_, hnew.paused fun n => hopen _ (by simp) n⟩
    rw [limits_concat]
    exact hnew.underway

/-! ## A socket that takes everything -/

/-- A socket that takes all that it is offered, now and later. -/
def TakesAll (k : ω) : Prop := ∃ P : ω → Prop, P k ∧ ∀ k, P k → ∀ bytes,
  (Socket.write k bytes).1 = .ok bytes.length ∧ P (Socket.write k bytes).2

theorem TakesAll.write {k : ω} (h : TakesAll k) (bytes : Bytes) :
    (Socket.write k bytes).1 = .ok bytes.length ∧ TakesAll (Socket.write k bytes).2 := by
  obtain ⟨P, hk, hP⟩ := h
  obtain ⟨hanswer, hnext⟩ := hP k hk bytes
  exact ⟨hanswer, P, hnext, hP⟩

theorem TakesAll.drain {k : ω} (h : TakesAll k) (b : Buffer) :
    (drain b k).answer = .ok true ∧ TakesAll (drain b k).socket := by
  fun_induction TlsTransport.drain b k with
  | case1 => exact ⟨rfl, h⟩
  | case2 b k he r call hr =>
    have hall := (h.write b.data).1
    rw [show r.1 = (Socket.write k b.data).1 from rfl, hall] at hr
    injection hr with hr
    have hne : b.data ≠ [] := by simpa [Buffer.isEmpty] using he
    exact absurd (List.length_eq_zero_iff.1 hr) hne
  | case3 b k he r call n hr rest ih => exact ih (h.write b.data).2
  | case4 b k he r call e hr | case5 b k he r call e hr | case6 b k he r call e hr =>
    have hall := (h.write b.data).1
    rw [show r.1 = (Socket.write k b.data).1 from rfl, hall] at hr
    cases hr

omit [Engine σ ε] in
theorem flushPending_takesAll {s t : Session σ ω ε} {answer : Except IoError Bool} {k : ω}
    (hk : s.socket = some k) (hall : TakesAll k) (h : s.flushPending = (answer, t)) :
    answer = .ok true ∧ ∃ k', t.socket = some k' ∧ TakesAll k' := by
  obtain ⟨hanswer, hnext⟩ := hall.drain s.pendingWrite
  simp only [flushPending, hk] at h
  injection h with ha ht
  subst ha ht
  exact ⟨hanswer, _, rfl, hnext⟩

/-- Over a socket that takes everything, a write ends early only where the engine refuses. -/
theorem sendRest_takesAll (fragment : Nat) (flight : InFlight) (rest : Bytes) {s : Session σ ω ε}
    {k : ω} (hk : s.socket = some k) (hall : TakesAll k) :
    ∃ es, (s.sendRest fragment flight rest).2.encryptions = s.encryptions ++ es ∧
      es.map Prod.fst <+: pieces fragment rest ∧
      (es.map Prod.fst = pieces fragment rest ∨ ∃ chunk, es.getLast? = some (chunk, false)) := by
  revert k
  induction flight, rest, s using sendRest.induct (σ := σ) (ω := ω) (ε := ε) fragment with
  | case1 flight rest s t e h₁ =>
    intro k hk hall
    cases (flushPending_takesAll hk hall h₁).1
  | case2 flight rest s t h₁ =>
    intro k hk hall
    cases (flushPending_takesAll hk hall h₁).1
  | case3 flight rest s t hr h₁ =>
    intro k hk hall
    have hrest : rest = [] := by simpa using hr
    have hkeeps := Keeps.of_flushed h₁
    rw [sendRest_of_done h₁ hrest, hrest]
    exact ⟨[], by rw [hkeeps.encryptions, List.append_nil], List.nil_prefix, .inl (by simp)⟩
  | case4 flight rest s t hr chunk u e h₁ =>
    rename_i h₂
    intro k hk hall
    have hrest : rest ≠ [] := by simpa using hr
    have hkeeps := Keeps.of_flushed h₁
    have hfail : Rests u (u.fail (.native e)) := .fail u (by simp)
    rw [sendRest_of_refused h₁ hrest h₂, pieces_of_ne_nil fragment hrest]
    refine ⟨[(chunk, false)], ?_, List.prefix_append [chunk] _, .inr ⟨chunk, rfl⟩⟩
    rw [hfail.encryptions, (encryptOnce_encrypts h₂).encryptions, hkeeps.encryptions]
    rfl
  | case5 flight rest s t hr chunk u a h₁ h₂ =>
    rename_i ih
    intro k hk hall
    have hrest : rest ≠ [] := by simpa using hr
    have hkeeps := Keeps.of_flushed h₁
    obtain ⟨-, k', hk', hall'⟩ := flushPending_takesAll hk hall h₁
    have hu : u.socket = some k' := by
      have he : u = (t.encryptOnce chunk).2 := by rw [h₂]
      rw [he]
      exact hk'
    rw [sendRest_of_encrypted h₁ hrest h₂, pieces_of_ne_nil fragment hrest]
    obtain ⟨es, hes, hpre, hend⟩ := ih hu hall'
    refine ⟨(chunk, true) :: es, ?_, List.cons_prefix_cons.2 ⟨rfl, hpre⟩, ?_⟩
    · rw [hes, (encryptOnce_encrypts h₂).encryptions, hkeeps.encryptions, List.append_assoc]
      rfl
    · rcases hend with hwhole | ⟨last, hlast⟩
      · exact .inl (congrArg (List.cons chunk) hwhole)
      · refine .inr ⟨last, ?_⟩
        rw [List.getLast?_cons, hlast]
        rfl

/-- The session over another socket. -/
def withSocket {ω' : Type} (s : Session σ ω ε) (k : ω') : Session σ ω' ε where
  engine := s.engine
  side := s.side
  verifyPeer := s.verifyPeer
  policy := s.policy
  state := s.state
  socket := some k
  hostname := s.hostname
  serverName := s.serverName
  pendingWrite := s.pendingWrite
  rawRead := s.rawRead
  plaintext := s.plaintext
  inFlight := s.inFlight
  handshakeComplete := s.handshakeComplete
  renegotiating := s.renegotiating
  renegotiations := s.renegotiations
  peerClosed := s.peerClosed
  eof := s.eof
  version := s.version
  lastFailure := s.lastFailure
  journal := s.journal

/-- At one place the engine encrypted a piece in the first sequence and refused it in the second. -/
def Refuses (es fs : List (Bytes × Bool)) : Prop :=
  ∃ (i : Nat) (chunk : Bytes), es[i]? = some (chunk, true) ∧ fs[i]? = some (chunk, false)

/-- Two ways to begin the same sequence of pieces of which the second is cut short only where the
engine refuses a piece. -/
theorem prefix_or_refuses {whole : List Bytes} {es fs : List (Bytes × Bool)}
    (hes : es.map Prod.fst <+: whole) (hfs : fs.map Prod.fst <+: whole)
    (hall : ∀ e ∈ es.dropLast, e.2 = true)
    (hend : fs.map Prod.fst = whole ∨ ∃ chunk, fs.getLast? = some (chunk, false)) :
    es.map Prod.fst <+: fs.map Prod.fst ∨ Refuses es fs := by
  -- The shorter of two beginnings is one of the longer. When `fs` is shorter, its last piece is the
  -- refused one, and `es` has a piece at that place and more after it.
  rcases Nat.lt_or_ge fs.length es.length with hlt | hge
  · refine .inr ?_
    rcases hend with hwhole | ⟨chunk, hlast⟩
    · have hle := hes.length_le
      rw [← hwhole, List.length_map, List.length_map] at hle
      omega
    · have hpre : fs.map Prod.fst <+: es.map Prod.fst :=
        List.prefix_of_prefix_length_le hfs hes (by simpa using Nat.le_of_lt hlt)
      obtain ⟨init, rfl⟩ : ∃ init, fs = init ++ [(chunk, false)] :=
        List.getLast?_eq_some_iff.1 hlast
      have hi : init.length < es.length - 1 := by
        simp only [List.length_append, List.length_singleton] at hlt
        omega
      have hchunk : es[init.length].1 = chunk := by
        have hget := hpre.getElem (i := init.length) (by simp)
        simpa using hget.symm
      have hok : es[init.length].2 = true := by
        refine hall _ ?_
        rw [← List.getElem_dropLast (by simpa using hi)]
        exact List.getElem_mem _
      refine ⟨init.length, chunk, ?_, by simp⟩
      rw [List.getElem?_eq_getElem (by omega)]
      exact congrArg some (Prod.ext hchunk hok)
  · refine .inl (List.prefix_of_prefix_length_le hes hfs ?_)
    simpa using hge

omit [Socket ω] in
theorem withSocket_written {ω' : Type} [Socket ω'] {s : Session σ ω ε} (hs : s.state = .connected)
    (hf : s.inFlight = none) {payload : Bytes} (hp : payload ≠ []) {k : ω'} (hk : TakesAll k) :
    ∃ fs, ((s.withSocket k).writeData payload).2.encryptions = s.encryptions ++ fs ∧
      fs.map Prod.fst <+: pieces (Engine.maxFragment s.engine) payload ∧
      (fs.map Prod.fst = pieces (Engine.maxFragment s.engine) payload ∨
        ∃ chunk, fs.getLast? = some (chunk, false)) := by
  have hw : (s.withSocket k).writeData payload = (s.withSocket k).sendPayload payload := by
    simp only [writeData, if_pos (show (s.withSocket k).state = .connected from hs)]
  have hnone : (s.withSocket k).inFlight = none := hf
  rw [hw, sendPayload_eq (.first hnone hp)]
  exact sendRest_takesAll (Engine.maxFragment s.engine) _ payload rfl hk

/-! ## The whole write -/

/-- What holds of a write after the calls `before` and `c`: `es` were encrypted before the last of
them and `new` by it. -/
structure ResumedWrite (payload : Bytes) (s : Session σ ω ε) (before : List (Call ω)) (c : Call ω)
    (es new : List (Bytes × Bool)) : Prop where
  earlier : (s.run before).2.encryptions = s.encryptions ++ es
  now : (s.run (before ++ [c])).2.encryptions = s.encryptions ++ (es ++ new)
  /-- The pieces are a beginning of the payload. -/
  part : ((es ++ new).map Prod.fst).flatten <+: payload
  /-- No piece is empty, or longer than the engine says when the call asks it. -/
  bound : ∀ e ∈ new, e.1 ≠ [] ∧ ∃ m ∈ (s.run before).2.limitsRead c, e.1.length ≤ max 1 m
  /-- A write ends well with the length of the payload, with all of it encrypted and sent. -/
  ended : ∀ n, ((s.run before).2.perform c).1 = .wrote (.ok n) → n = payload.length ∧
    ((es ++ new).map Prod.fst).flatten = payload ∧
    (s.run (before ++ [c])).2.pendingWrite.data = []
  /-- The repeated payload was never taken for another one. -/
  mismatches : (s.run (before ++ [c])).2.mismatches = s.mismatches
  /-- While the engine says the same length, the payload is cut as without interruption. -/
  cut : ∀ n, (∀ m ∈ s.limits (before ++ [c]), m = n) →
    (es ++ new).map Prod.fst <+: pieces n payload ∧
    ∀ k, ((s.run before).2.perform c).1 = .wrote (.ok k) →
      (es ++ new).map Prod.fst = pieces n payload
  /-- The same write over a socket that takes everything gives the engine the same pieces, as far
  as the engine encrypts them there. -/
  alike : ∀ n, (∀ m ∈ s.limits (before ++ [c]), m = n) →
    ∀ (ω' : Type) [Socket ω'] (k : ω'), TakesAll k → ∃ fs,
      ((s.withSocket k).writeData payload).2.encryptions = s.encryptions ++ fs ∧
      ((es ++ new).map Prod.fst <+: fs.map Prod.fst ∨ Refuses (es ++ new) fs) ∧
      ∀ i, ((s.run before).2.perform c).1 = .wrote (.ok i) →
        (es ++ new).map Prod.fst = fs.map Prod.fst ∨ Refuses (es ++ new) fs

theorem Continues.accepted {payload : Bytes} {s u : Session σ ω ε} {limits : List Nat}
    {es new : List (Bytes × Bool)} {c : Call ω} (h : Continues payload s u limits es c new) :
    ∀ e ∈ (es ++ new).dropLast, e.2 = true := by
  by_cases hok : ∃ n, (u.perform c).1 = .wrote (.ok n)
  · obtain ⟨n, hn⟩ := hok
    exact fun e he => (h.ended n hn).encrypted e (List.dropLast_subset _ he)
  · rcases h.paused fun n hn => hok ⟨n, hn⟩ with ⟨-, hall⟩ | ⟨-, -, hall⟩
    · exact fun e he => hall e (List.dropLast_subset _ he)
    · exact hall

theorem Continues.resumedWrite {payload : Bytes} {s : Session σ ω ε} {before : List (Call ω)}
    {c : Call ω} {es new : List (Bytes × Bool)} (hs : s.state = .connected) (hf : s.inFlight = none)
    (hp : payload ≠ []) (hmem : Engine.maxFragment s.engine ∈ s.limits (before ++ [c]))
    (hes : Encrypts s (s.run before).2 es)
    (h : Continues payload s (s.run before).2 (s.limits before) es c new) :
    ResumedWrite payload s before c es new := by
  have hrun : (s.run (before ++ [c])).2 = ((s.run before).2.perform c).2 := by rw [run_concat]
  have hlimits := s.limits_concat before c
  refine ⟨hes.encryptions, ?_, h.underway.part, h.bound, fun n hn => ?_, ?_, fun n hn => ?_,
    fun n hn ω' _ k hk => ?_⟩
  · rw [hrun]
    exact h.underway.encrypts.encryptions
  · obtain ⟨hlength, -, hwhole, -, hflushed⟩ := h.ended n hn
    rw [hrun]
    exact ⟨hlength, hwhole, hflushed⟩
  · rw [hrun]
    exact h.underway.encrypts.mismatches
  · rw [hlimits] at hn
    exact ⟨h.underway.cut n hn, fun i hi => (h.ended i hi).cut n hn⟩
  · obtain ⟨fs, hfs, hpre, hend⟩ := withSocket_written (s := s) hs hf hp hk
    rw [hn _ hmem] at hpre hend
    rw [hlimits] at hn
    have hcut := h.underway.cut n hn
    have hone := prefix_or_refuses hcut hpre h.accepted hend
    refine ⟨fs, hfs, hone, fun i hi => ?_⟩
    have hwhole := (h.ended i hi).cut n hn
    rcases hone with hle | hrefuses
    · rw [← hwhole] at hpre
      exact .inl (hle.eq_of_length_le hpre.length_le)
    · exact .inr hrefuses

/-- A run that begins with a write on a connected session and repeats it until it ends. -/
theorem write_resumes {s : Session σ ω ε} (hs : s.state = .connected) (hf : s.inFlight = none)
    {payload : Bytes} (hp : payload ≠ []) (before : List (Call ω)) (c : Call ω)
    (rest : List (Call ω)) (hcalls : before ++ [c] = .write payload :: rest)
    (hrest : ∀ d ∈ rest, d.retries payload)
    (hopen : ∀ answer ∈ (s.run before).1, ∀ n, answer ≠ .wrote (.ok n)) :
    ∃ es new, ResumedWrite payload s before c es new := by
  cases before with
  | nil =>
    injection hcalls with hc _
    subst hc
    obtain ⟨new, hnew⟩ := first_continues hs hf hp
    have hlimits : s.limitsRead (.write payload) = [Engine.maxFragment s.engine] := by
      rw [limitsRead, resumed, if_pos hs]
    have hmem : Engine.maxFragment s.engine ∈ s.limits ([] ++ [.write payload]) := by
      rw [limits_concat]
      exact List.mem_append_right _ (by rw [run, hlimits]; exact List.mem_singleton.2 rfl)
    exact ⟨[], new, hnew.resumedWrite hs hf hp hmem (Keeps.refl s).toRests.encrypts⟩
  | cons d before =>
    injection hcalls with hd hcalls
    subst hd hcalls
    obtain ⟨es, hes, hpaused⟩ := run_paused hs hf hp before
      (fun d hd => hrest d (List.mem_append_left _ hd)) hopen
    obtain ⟨new, hnew⟩ := hpaused.continues hes (hrest c (by simp))
    have hmem : Engine.maxFragment s.engine ∈ s.limits (.write payload :: before ++ [c]) := by
      rw [List.cons_append, limits, limitsRead, resumed, if_pos hs]
      exact List.mem_cons_self ..
    exact ⟨es, new, hnew.resumedWrite hs hf hp hmem hes.encrypts⟩

/-- A connected session with a byte to write out, over a socket that is not ready once and then
takes everything. Its engine copies three bytes at a time. -/
def hesitant : Session (ScriptedEngine true) ScriptedSocket String :=
  let fresh : Session (ScriptedEngine true) ScriptedSocket String :=
    ofEngine ⟨⟨3, some .tls13, none, none, [], [], [], [], [], []⟩⟩ .client true .default
  { fresh with
    state := .connected
    socket := some (.ofScript [] [.error (.bare .wouldBlock)] [])
    pendingWrite := ⟨[0], []⟩ }

/-- Its write would block at once; this is the call that repeats it. -/
theorem hesitant_resumes : ∃ es new, ResumedWrite [1, 2, 3, 4, 5] hesitant
    [.write [1, 2, 3, 4, 5], .read 1] (.write [1, 2, 3, 4, 5]) es new := by
  have hflush : hesitant.flushPending.1 = .ok false := by
    simp only [flushPending, hesitant]
    rw [drain]
    rfl
  have hfirst : (hesitant.perform (.write [1, 2, 3, 4, 5])).1 = .wrote .wouldBlock := by
    rcases h : hesitant.flushPending with ⟨answer, t⟩
    rw [h] at hflush
    subst hflush
    have hwrite : hesitant.writeData [1, 2, 3, 4, 5] = hesitant.sendPayload [1, 2, 3, 4, 5] := rfl
    rw [perform, hwrite, sendPayload_eq (.first rfl (by simp))]
    exact congrArg (fun r => Answer.wrote r.1) (sendRest_of_blocked h)
  refine write_resumes rfl rfl (by simp) _ _ [.read 1, .write [1, 2, 3, 4, 5]] rfl
    (by simp [Call.retries, Call.standsBy]) ?_
  intro answer ha n
  simp only [run, List.mem_cons, List.not_mem_nil, or_false] at ha
  rcases ha with rfl | rfl
  · rw [hfirst]
    simp
  · exact perform_not_wrote (c := .read 1) _ trivial n

end Session
end TlsTransport
