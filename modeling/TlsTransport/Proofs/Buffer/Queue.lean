import TlsTransport.Script.Socket
import TlsTransport.Socket.Transfer

/-! # Buffers as byte queues

A buffer keeps its valid bytes at the front of one stretch of storage and moves them in place: a
rest is copied over its own front, bytes from outside are written over what stood in the free
region, and what is discarded stays behind. None of this shows in its data, which is a byte queue.

* `Buffer.Use`: what is done with a buffer; `Buffer.use` does it, `Buffer.useAll` does several one
  after the other.
* `Buffer.Region`: storage with a fill mark, and the same done in place.
* `Buffer.useQueue`: the same done to a queue.
* `Buffer.use_layout`, `Buffer.useQueue_data`: one use, in place and on a queue.
* `Buffer.fillFrom_use`: what a read from a socket does is a use.
* `Buffer.uses_refine`: any uses, one after the other.
-/

namespace TlsTransport.Buffer

/-! ## Uses -/

/-- What is done with a buffer. -/
inductive Use where
  | write (bytes : Bytes)
  /-- The same as a stream, which answers how much was taken. -/
  | put (bytes : Bytes)
  | eat (n : Nat)
  | resize (capacity : Nat)
  | reserve (extra : Nat)
  | clear
  /-- From here on a clone is used. -/
  | clone
  | advance (n : Nat)
  /-- Writes over the front of the free region. -/
  | overlay (bytes : Bytes)
  /-- A reader was offered so many bytes of the free region. This is what it left there, and what it
  answered. -/
  | fill (max : Nat) (left : Bytes) (answer : Except IoError Nat)
  | drain (n : Nat)
  /-- The same as a stream. -/
  | take (n : Nat)

/-- A reader leaves the region that it was offered as long as it was, and does not count more bytes
than that. -/
def Use.Fair : Use → Prop
  | .fill max left answer => left.length = max ∧ ∀ n, answer = .ok n → n ≤ max
  | _ => True

/-- What a use answers. -/
inductive Reply where
  | done
  | count (n : Nat)
  | bytes (taken : Bytes)
  | failed (e : IoError)
  /-- The free region is shorter than what was to become valid. -/
  | panicked
  deriving DecidableEq

/-- Uses a buffer. -/
def use (b : Buffer) : Use → Reply × Buffer
  | .write bytes => (.done, b.append bytes)
  | .put bytes => (.count bytes.length, b.append bytes)
  | .eat n => (.done, b.drop n)
  | .resize capacity => (.done, b.resize capacity)
  | .reserve extra => (.done, b.reserve extra)
  | .clear => (.done, b.clear)
  | .clone => (.done, b)
  | .advance n =>
    match b.advance? n with
    | some b => (.done, b)
    | none => (.panicked, b)
  | .overlay bytes => (.done, b.fillSpare bytes)
  | .fill max left answer =>
    let b := (b.reserve max).fillSpare left
    match answer with
    | .ok n => (.count n, b.append (left.take n))
    | .error e => (.failed e, b)
  | .drain n => (.bytes (b.drain n).1, (b.drain n).2)
  | .take n =>
    match b.take? n with
    | .ok (bytes, b) => (.bytes bytes, b)
    | .error e => (.failed e, b)

/-- Uses a buffer again and again. -/
def useAll (b : Buffer) : List Use → List Reply × Buffer
  | [] => ([], b)
  | u :: uses =>
    let r := b.use u
    let rest := r.2.useAll uses
    (r.1 :: rest.1, rest.2)

/-! ## In place -/

/-- One stretch of storage; the bytes in front of the mark are valid. -/
structure Region where
  bytes : Bytes
  mark : Nat

namespace Region

/-- Writes over what stands from a place on. -/
def overwrite (storage : Bytes) (place : Nat) (bytes : Bytes) : Bytes :=
  storage.take place ++ bytes ++ storage.drop (place + bytes.length)

/-- Grows the storage with zeros. -/
def grow (r : Region) (length : Nat) : Region :=
  { r with bytes := r.bytes ++ List.replicate (length - r.bytes.length) 0 }

/-- Copies the rest of the valid bytes over their front. -/
def shift (r : Region) (n : Nat) : Region :=
  ⟨overwrite r.bytes 0 ((r.bytes.take r.mark).drop n), r.mark - n⟩

/-- Uses storage in place. -/
def use (r : Region) : Use → Reply × Region
  | .write bytes =>
    (.done, ⟨overwrite (r.grow (r.mark + bytes.length)).bytes r.mark bytes, r.mark + bytes.length⟩)
  | .put bytes =>
    (.count bytes.length,
      ⟨overwrite (r.grow (r.mark + bytes.length)).bytes r.mark bytes, r.mark + bytes.length⟩)
  | .eat n => (.done, r.shift (min n r.mark))
  | .resize capacity => (.done, r.grow capacity)
  | .reserve extra => (.done, r.grow (r.mark + extra))
  | .clear => (.done, ⟨r.bytes, 0⟩)
  | .clone => (.done, r)
  | .advance n =>
    if n ≤ r.bytes.length - r.mark then (.done, ⟨r.bytes, r.mark + n⟩) else (.panicked, r)
  | .overlay bytes =>
    (.done, ⟨overwrite r.bytes r.mark (bytes.take (r.bytes.length - r.mark)), r.mark⟩)
  | .fill max left answer =>
    let filled := overwrite (r.grow (r.mark + max)).bytes r.mark left
    match answer with
    | .ok n => (.count n, ⟨filled, r.mark + n⟩)
    | .error e => (.failed e, ⟨filled, r.mark⟩)
  | .drain n => (.bytes (r.bytes.take (min n r.mark)), r.shift (min n r.mark))
  | .take n =>
    if r.mark = 0 ∧ 0 < n then (.failed (.bare .wouldBlock), r)
    else (.bytes (r.bytes.take (min n r.mark)), r.shift (min n r.mark))

/-- Uses storage again and again. -/
def useAll (r : Region) : List Use → List Reply × Region
  | [] => ([], r)
  | u :: uses =>
    let q := r.use u
    let rest := q.2.useAll uses
    (q.1 :: rest.1, rest.2)

end Region

/-- How a buffer lies in storage. -/
def layout (b : Buffer) : Region := ⟨b.data ++ b.spare, b.size⟩

open Region

theorem overwrite_data (b : Buffer) (bytes : Bytes) :
    overwrite b.layout.bytes b.size bytes = b.data ++ bytes ++ b.spare.drop bytes.length := by
  rw [overwrite, layout, size, List.take_left, List.drop_append]
  have hall : b.data.drop (b.data.length + bytes.length) = [] :=
    List.drop_eq_nil_of_le (Nat.le_add_right _ _)
  rw [hall, List.nil_append, Nat.add_sub_cancel_left]

theorem layout_reserve (b : Buffer) (extra : Nat) :
    (b.reserve extra).layout = b.layout.grow (b.size + extra) := by
  have hlength : b.size + extra - b.layout.bytes.length = extra - b.spare.length := by
    simp only [layout, size, List.length_append]
    omega
  rw [grow, hlength]
  simp only [layout, reserve, size, List.append_assoc]

theorem layout_resize (b : Buffer) (capacity : Nat) :
    (b.resize capacity).layout = b.layout.grow capacity := by
  have hlength : b.size + (capacity - b.size) - b.layout.bytes.length =
      capacity - b.layout.bytes.length := by
    simp only [layout, size, List.length_append]
    omega
  rw [resize, layout_reserve, grow, grow, hlength]

/-- Room is made before anything is written. -/
theorem append_reserve (b : Buffer) (bytes : Bytes) :
    (b.reserve bytes.length).append bytes = b.append bytes := by
  simp [append, reserve, List.drop_append]

theorem layout_append (b : Buffer) (bytes : Bytes) : (b.append bytes).layout =
    ⟨overwrite (b.layout.grow (b.size + bytes.length)).bytes b.size bytes,
      b.size + bytes.length⟩ := by
  rw [← layout_reserve, ← append_reserve, show b.size = (b.reserve bytes.length).size from rfl,
    overwrite_data]
  simp only [layout, append, size, List.length_append]

theorem layout_drop (b : Buffer) (n : Nat) : (b.drop n).layout = b.layout.shift (min n b.size) := by
  have hrest : (b.layout.bytes.take b.size).drop (min n b.size) = b.data.drop n := by
    rw [layout, size, List.take_left]
    rcases Nat.le_total n b.data.length with hle | hle
    · rw [Nat.min_eq_left hle]
    · rw [Nat.min_eq_right hle, List.drop_length, List.drop_eq_nil_of_le hle]
  have hlength : (b.data.drop n).length = b.size - min n b.size := by
    rw [List.length_drop, size]
    omega
  have hstale : b.layout.bytes.drop (b.size - min n b.size) =
      b.data.drop (b.size - n) ++ b.spare := by
    have hsame : b.size - min n b.size = b.size - n := by omega
    rw [hsame, layout, List.drop_append_of_le_length (by rw [size]; omega)]
  rw [shift, show b.layout.mark = b.size from rfl, hrest, overwrite, Nat.zero_add, hlength, hstale]
  simp only [layout, drop, size, List.take_zero, List.nil_append, List.length_drop]
  congr 1
  omega

theorem layout_fillSpare (b : Buffer) (bytes : Bytes) : (b.fillSpare bytes).layout =
    ⟨overwrite b.layout.bytes b.size (bytes.take b.free), b.size⟩ := by
  have hrest : b.spare.drop (bytes.take b.free).length = b.spare.drop bytes.length := by
    rw [List.length_take, free]
    rcases Nat.le_total b.spare.length bytes.length with hle | hle
    · rw [Nat.min_eq_left hle, List.drop_length, List.drop_eq_nil_of_le hle]
    · rw [Nat.min_eq_right hle]
  rw [overwrite_data, hrest]
  simp only [layout, fillSpare, size, List.append_assoc]

/-- What a reader leaves in the region that it was offered, and what it counts of that. -/
theorem layout_fill (b : Buffer) {max : Nat} {left : Bytes} (hleft : left.length = max) :
    ((b.reserve max).fillSpare left).layout =
      ⟨overwrite (b.layout.grow (b.size + max)).bytes b.size left, b.size⟩ ∧
    ∀ n, n ≤ max → (((b.reserve max).fillSpare left).append (left.take n)).layout =
      ⟨overwrite (b.layout.grow (b.size + max)).bytes b.size left, b.size + n⟩ := by
  have hfree : max ≤ (b.reserve max).free := by
    rw [free_reserve]
    omega
  have hall : left.take (b.reserve max).free = left :=
    List.take_of_length_le (by rwa [hleft])
  have hfilled : ((b.reserve max).fillSpare left).layout =
      ⟨overwrite (b.layout.grow (b.size + max)).bytes b.size left, b.size⟩ := by
    rw [layout_fillSpare, hall, layout_reserve]
    rfl
  refine ⟨hfilled, fun n hn => ?_⟩
  have htaken : (left.take n).length = n := by
    rw [List.length_take, hleft]
    omega
  have hkept : left.take n ++ ((b.reserve max).fillSpare left).spare.drop n =
      ((b.reserve max).fillSpare left).spare := by
    have hfront : left.take n = ((b.reserve max).fillSpare left).spare.take n := by
      rw [fillSpare, hall, List.take_append_of_le_length (by omega)]
    rw [hfront, List.take_append_drop]
  have hbytes := congrArg Region.bytes hfilled
  simp only [layout] at hbytes ⊢
  rw [← hbytes]
  simp only [append, htaken, List.append_assoc, hkept, size, List.length_append, Region.mk.injEq,
    true_and]
  rfl

/-- What is done with a buffer is done in place. -/
theorem use_layout (b : Buffer) {u : Use} (h : u.Fair) :
    b.layout.use u = ((b.use u).1, (b.use u).2.layout) := by
  have hmark : b.layout.mark = b.size := rfl
  have hroom : b.layout.bytes.length - b.layout.mark = b.free := by
    simp only [layout, size, free, List.length_append]
    omega
  have hfront : ∀ n, b.layout.bytes.take (min n b.size) = b.data.take n := by
    intro n
    rw [layout, size, List.take_append_of_le_length (Nat.min_le_right ..), ← List.take_eq_take_min]
  cases u with
  | write bytes | put bytes =>
    rw [Region.use, use, layout_append]
    rfl
  | eat n =>
    rw [Region.use, use, layout_drop]
    rfl
  | resize capacity => rw [Region.use, use, layout_resize]
  | reserve extra =>
    rw [Region.use, use, layout_reserve]
    rfl
  | clear | clone => rfl
  | advance n =>
    simp only [Region.use, use, hroom, advance?]
    by_cases hn : n ≤ b.free
    · simp only [if_pos hn]
      simp [layout, size, free] at hn ⊢
      omega
    · simp only [if_neg hn]
  | overlay bytes => rw [Region.use, use, layout_fillSpare, hroom, hmark]
  | fill max left answer =>
    obtain ⟨hleft, hcount⟩ := h
    obtain ⟨hfailed, hfilled⟩ := b.layout_fill hleft
    cases answer with
    | error e =>
      simp only [Region.use, use, hfailed]
      rfl
    | ok n =>
      simp only [Region.use, use, hfilled n (hcount n rfl)]
      rfl
  | drain n =>
    rw [Region.use, use, hmark, hfront, drain, layout_drop]
  | take n =>
    have hempty : (b.isEmpty = true ∧ 0 < n) ↔ (b.layout.mark = 0 ∧ 0 < n) := by
      rw [isEmpty_iff, hmark, size, List.length_eq_zero_iff]
    unfold Region.use use take?
    simp only [← hempty]
    by_cases hn : b.isEmpty = true ∧ 0 < n
    · simp only [if_pos hn]
    · simp only [if_neg hn, hmark, hfront, drain, layout_drop]

/-! ## On a queue -/

/-- Uses a queue, while this stands in the free region. -/
def useQueue (free queue : Bytes) : Use → Reply × Bytes
  | .write bytes => (.done, queue ++ bytes)
  | .put bytes => (.count bytes.length, queue ++ bytes)
  | .eat n => (.done, queue.drop n)
  | .resize _ | .reserve _ | .clone | .overlay _ => (.done, queue)
  | .clear => (.done, [])
  | .advance n => if n ≤ free.length then (.done, queue ++ free.take n) else (.panicked, queue)
  | .fill _ left (.ok n) => (.count n, queue ++ left.take n)
  | .fill _ _ (.error e) => (.failed e, queue)
  | .drain n => (.bytes (queue.take n), queue.drop n)
  | .take n =>
    if queue = [] ∧ 0 < n then (.failed (.bare .wouldBlock), queue)
    else (.bytes (queue.take n), queue.drop n)

/-- Uses a queue again and again; each use comes with what stands in the free region. -/
def useQueueAll (queue : Bytes) : List (Use × Bytes) → List Reply × Bytes
  | [] => ([], queue)
  | (u, free) :: uses =>
    let r := useQueue free queue u
    let rest := useQueueAll r.2 uses
    (r.1 :: rest.1, rest.2)

/-- Each use with what stands in the free region before it. -/
def shown (b : Buffer) : List Use → List (Use × Bytes)
  | [] => []
  | u :: uses => (u, b.spare) :: (b.use u).2.shown uses

theorem useQueue_data (b : Buffer) (u : Use) :
    useQueue b.spare b.data u = ((b.use u).1, (b.use u).2.data) := by
  cases u with
  | write | put | eat | resize | reserve | clear | clone | overlay | drain => rfl
  | advance n =>
    by_cases hn : n ≤ b.free
    · have hsome : b.advance? n = some ⟨b.data ++ b.spare.take n, b.spare.drop n⟩ := if_pos hn
      simp only [use, hsome]
      exact if_pos hn
    · have hnone : b.advance? n = none := if_neg hn
      simp only [use, hnone]
      exact if_neg hn
  | fill max left answer => cases answer <;> rfl
  | take n =>
    unfold useQueue use take?
    simp only [isEmpty_iff]
    by_cases hn : b.data = [] ∧ 0 < n
    · simp only [if_pos hn]
    · simp only [if_neg hn]
      rfl

theorem capacity_fillSpare (b : Buffer) (bytes : Bytes) :
    (b.fillSpare bytes).capacity = b.capacity := by
  simp [fillSpare, capacity, size, free]
  omega

theorem capacity_use_le (b : Buffer) (u : Use) : b.capacity ≤ (b.use u).2.capacity := by
  have hreserve : ∀ n, b.capacity ≤ (b.reserve n).capacity := by
    intro n
    rw [capacity, capacity, free_reserve]
    exact Nat.add_le_add_left (Nat.le_max_right ..) _
  have happend : ∀ (c : Buffer) bytes, c.capacity ≤ (c.append bytes).capacity := by
    intro c bytes
    rw [capacity_append]
    exact Nat.le_max_left ..
  cases u with
  | write bytes | put bytes => exact happend b bytes
  | eat n | drain n => exact Nat.le_of_eq (b.capacity_drop n).symm
  | resize n =>
    rw [use, capacity_resize]
    exact Nat.le_max_right ..
  | reserve n => exact hreserve n
  | clear => exact Nat.le_of_eq b.capacity_clear.symm
  | clone => exact Nat.le_refl _
  | overlay bytes => exact Nat.le_of_eq (b.capacity_fillSpare bytes).symm
  | advance n =>
    simp only [use, advance?]
    by_cases hn : n ≤ b.free
    · simp only [if_pos hn]
      simp [capacity, size, free] at hn ⊢
      omega
    · simp only [if_neg hn, Nat.le_refl]
  | fill max left answer =>
    have hfilled : b.capacity ≤ ((b.reserve max).fillSpare left).capacity := by
      rw [capacity_fillSpare]
      exact hreserve max
    cases answer with
    | error e => exact hfilled
    | ok n => exact Nat.le_trans hfilled (happend _ _)
  | take n =>
    simp only [use, take?]
    by_cases hn : b.isEmpty = true ∧ 0 < n
    · simp only [if_pos hn, Nat.le_refl]
    · simp only [if_neg hn, drain, capacity_drop, Nat.le_refl]

/-! ## Reading from a socket -/

/-- A read into a buffer is a use with a reader that leaves its bytes at the front of the region
that it is offered, and nothing else. -/
theorem fillFrom_use {ω : Type} [Socket ω] (b : Buffer) (k : ω) (max : Nat)
    (h : ∀ bytes, (Socket.read k max).1 = .ok bytes → bytes.length ≤ max) :
    ∃ left, (Use.fill max left ((Socket.read k max).1.map List.length)).Fair ∧
      (∀ bytes, (Socket.read k max).1 = .ok bytes → left.take bytes.length = bytes) ∧
      (b.use (.fill max left ((Socket.read k max).1.map List.length))).2 =
        (b.fillFrom k max).buffer := by
  generalize hroom : (b.reserve max).spare = room
  have hlong : max ≤ room.length := by
    have hfree := b.free_reserve max
    rw [free, hroom] at hfree
    omega
  rcases hr : (Socket.read k max).1 with e | bytes
  · have hsame : (b.reserve max).fillSpare (room.take max) = b.reserve max := by
      have hlength : (room.take max).length = max := by rw [List.length_take]; omega
      rw [fillSpare, hlength, free, hroom, List.take_of_length_le (by omega),
        List.take_append_drop, ← hroom]
    refine ⟨room.take max, ⟨by rw [List.length_take]; omega, fun _ hn => ?_⟩, fun _ hb => ?_, ?_⟩
    · cases hn
    · cases hb
    · simp only [use, fillFrom, hr, Except.map, hsame]
  · have hcount := h bytes hr
    generalize hleft : bytes ++ (room.take max).drop bytes.length = left
    have hlength : left.length = max := by
      rw [← hleft, List.length_append, List.length_drop, List.length_take]
      omega
    have hfront : left.take bytes.length = bytes := by rw [← hleft, List.take_left]
    have hbehind : ((b.reserve max).fillSpare left).spare.drop bytes.length =
        room.drop bytes.length := by
      rw [fillSpare, hlength, free, hroom, List.take_of_length_le (by omega), ← hleft,
        List.append_assoc, List.drop_left, ← List.drop_append_of_le_length (by
          rw [List.length_take]
          omega), List.take_append_drop]
    refine ⟨left, ⟨hlength, fun n hn => ?_⟩, fun bytes' hb => ?_, ?_⟩
    · injection hn with hn
      omega
    · injection hb with hb
      rw [← hb, hfront]
    · simp only [use, fillFrom, hr, Except.map, hfront, append, hbehind, ← hroom]
      rfl

/-! ## All uses -/

/-- What is done with a buffer is done in place and to a queue. -/
structure Refines (b : Buffer) (uses : List Use) : Prop where
  inPlace : b.layout.useAll uses = ((b.useAll uses).1, (b.useAll uses).2.layout)
  /-- In storage the size is the mark, and the capacity is all of it. -/
  measures : (b.layout.useAll uses).2.mark = (b.useAll uses).2.size ∧
    (b.layout.useAll uses).2.bytes.length = (b.useAll uses).2.capacity
  fits : (b.useAll uses).2.size ≤ (b.useAll uses).2.capacity
  grows : b.capacity ≤ (b.useAll uses).2.capacity
  queue : useQueueAll b.data (b.shown uses) = ((b.useAll uses).1, (b.useAll uses).2.data)

theorem Refines.nil (b : Buffer) : Refines b [] where
  inPlace := rfl
  measures := ⟨rfl, List.length_append⟩
  fits := Nat.le_add_right ..
  grows := Nat.le_refl _
  queue := rfl

theorem Refines.cons {b : Buffer} {u : Use} {uses : List Use} (hu : u.Fair)
    (h : Refines (b.use u).2 uses) : Refines b (u :: uses) where
  inPlace := by
    rw [Region.useAll, use_layout b hu]
    simp only [h.inPlace]
    rfl
  measures := by
    rw [Region.useAll, use_layout b hu]
    exact h.measures
  fits := h.fits
  grows := Nat.le_trans (capacity_use_le b u) h.grows
  queue := by
    rw [shown, useQueueAll, useQueue_data]
    simp only [h.queue]
    rfl

/-- Whatever is done with a buffer, one thing after the other, its data is a byte queue: what is
written, read into it or made valid in the free region is appended, and all else takes bytes from
the front or leaves it alone. The answers are those of the queue. The bytes fit in the storage,
which never shrinks, and all this is done in place. A new buffer is an empty queue, and reading from
a socket is one of the uses, by which exactly the bytes that it gave are appended. -/
theorem uses_refine {ω : Type} [Socket ω] (b : Buffer) (uses : List Use) (h : ∀ u ∈ uses, u.Fair) :
    Refines b uses ∧
    (empty.data = [] ∧ empty.capacity = 0) ∧
    (∀ n, (withCapacity n).data = [] ∧ (withCapacity n).capacity = n) ∧
    ∀ (k : ω) (max : Nat), (∀ bytes, (Socket.read k max).1 = .ok bytes → bytes.length ≤ max) →
      ∃ left, (Use.fill max left ((Socket.read k max).1.map List.length)).Fair ∧
        (∀ bytes, (Socket.read k max).1 = .ok bytes → left.take bytes.length = bytes) ∧
        ((b.useAll uses).2.use (.fill max left ((Socket.read k max).1.map List.length))).2 =
          ((b.useAll uses).2.fillFrom k max).buffer := by
  refine ⟨?_, ⟨rfl, rfl⟩, fun n => ⟨rfl, ?_⟩, fun k max hk => fillFrom_use _ k max hk⟩
  · induction uses generalizing b with
    | nil => exact .nil b
    | cons u uses ih =>
      obtain ⟨hu, huses⟩ := List.forall_mem_cons.1 h
      exact .cons hu (ih _ huses)
  · rw [withCapacity, capacity_resize]
    exact Nat.max_zero n

/-- Bytes that were eaten stay behind and come back when the free region is made valid. A reader
that fails has changed the free region, and a later one counts less than it left there. -/
def staleUses : List Use :=
  [.write [1, 2, 3, 4], .eat 2, .fill 1 [9] (.error (.bare .connectionReset)), .advance 1,
    .fill 3 [5, 6, 7] (.ok 2), .advance 8, .take 2, .overlay [8], .resize 2, .drain 9, .take 1]

theorem staleUses_refine :
    let giver : ScriptedSocket := .ofScript [.ok [7]] [] []
    (∀ u ∈ staleUses, u.Fair) ∧ Refines empty staleUses ∧
    (empty.useAll staleUses).1 = [.done, .done, .failed (.bare .connectionReset), .done, .count 2,
      .panicked, .bytes [3, 4], .done, .done, .bytes [9, 5, 6], .failed (.bare .wouldBlock)] ∧
    ∃ left, left.take 1 = [7] ∧ ((empty.useAll staleUses).2.use (.fill 2 left (.ok 1))).2 =
      ((empty.useAll staleUses).2.fillFrom giver 2).buffer := by
  intro giver
  have hfair : ∀ u ∈ staleUses, u.Fair := by
    simp [staleUses, Use.Fair]
  obtain ⟨hrefines, -, -, hread⟩ := uses_refine (ω := ScriptedSocket) empty staleUses hfair
  have hfits : ∀ bytes, (Socket.read giver 2).1 = .ok bytes → bytes.length ≤ 2 := by
    rintro bytes ⟨⟩
    decide
  obtain ⟨left, -, hgiven, hused⟩ := hread _ 2 hfits
  exact ⟨hfair, hrefines, by decide, left, hgiven [7] rfl, hused⟩

end TlsTransport.Buffer
