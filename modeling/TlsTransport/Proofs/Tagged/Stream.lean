import TlsTransport.Tagged.Record

/-! # Records on a stream

What a reader has of a stream of records is a beginning of it, cut anywhere. From there
`Record.take?` takes the first record or waits, and never anything else.

* `encodeAll`: a stream of records.
* `Record.take?_of_stream`, `Record.take?_of_end`: taking a record off the beginning of a stream.
-/

namespace TlsTransport.Tagged

/-- Records one after the other, as bytes. -/
def encodeAll (rs : List Record) : Bytes := rs.flatMap Record.encode

@[simp] theorem encodeAll_nil : encodeAll [] = [] := rfl

@[simp] theorem encodeAll_cons (r : Record) (rs : List Record) :
    encodeAll (r :: rs) = r.encode ++ encodeAll rs := rfl

@[simp] theorem encodeAll_append (rs qs : List Record) :
    encodeAll (rs ++ qs) = encodeAll rs ++ encodeAll qs := by
  simp [encodeAll]

/-- The data that records carry. -/
def carried (rs : List Record) : Bytes :=
  rs.flatMap fun r => if r.kind = data then r.payload else []

@[simp] theorem carried_nil : carried [] = [] := rfl

@[simp] theorem carried_append (rs qs : List Record) :
    carried (rs ++ qs) = carried rs ++ carried qs := by
  simp [carried]

theorem carried_cons_data {r : Record} (h : r.kind = data) (rs : List Record) :
    carried (r :: rs) = r.payload ++ carried rs := by
  simp [carried, h]

theorem carried_cons_other {r : Record} (h : r.kind ≠ data) (rs : List Record) :
    carried (r :: rs) = carried rs := by
  simp [carried, h]

namespace Record

/-- A record whose length fits into its header. -/
def Fits (r : Record) : Prop := r.payload.length < 65536

/-- The two bytes that a length has in a header. -/
theorem encode_eq (r : Record) : r.encode =
    r.kind :: UInt8.ofNat (r.payload.length / 256) :: UInt8.ofNat r.payload.length ::
      (r.payload ++ [r.tag]) := by
  simp [encode, Bytes.ofNat, List.range_succ]

theorem length_of_header {n : Nat} (h : n < 65536) :
    256 * (UInt8.ofNat (n / 256)).toNat + (UInt8.ofNat n).toNat = n := by
  rw [UInt8.toNat_ofNat', UInt8.toNat_ofNat']
  omega

theorem encode_ne_nil (r : Record) : r.encode ≠ [] := by
  rw [encode_eq]
  simp

end Record

theorem eq_nil_of_encodeAll {rs : List Record} (h : encodeAll rs = []) : rs = [] := by
  cases rs with
  | nil => rfl
  | cons r rs => exact absurd (List.append_eq_nil_iff.1 h).1 r.encode_ne_nil

namespace Record

/-- At the end of a stream there is nothing to take. -/
theorem take?_of_end {b : Buffer} (h : b.data = []) : take? b = .ok none := by
  simp [take?, h]

/-- The beginning of a stream has its first record in full, or is too short for it. -/
theorem take?_of_stream {b : Buffer} {r : Record} {later tail : Bytes} (hr : r.Fits)
    (h : b.data ++ later = r.encode ++ tail) :
    take? b = .ok none ∨ ∃ b', take? b = .ok (some (r, b')) ∧ b'.data ++ later = tail := by
  rw [encode_eq] at h
  rcases hb : b.data with _ | ⟨kind, _ | ⟨hi, _ | ⟨lo, rest⟩⟩⟩
  · exact .inl (take?_of_end hb)
  · exact .inl (by simp [take?, hb])
  · exact .inl (by simp [take?, hb])
  · rw [hb] at h
    simp only [List.cons_append, List.cons.injEq] at h
    obtain ⟨hkind, hhi, hlo, hrest⟩ := h
    have hlen : 256 * hi.toNat + lo.toNat = r.payload.length := by
      rw [hhi, hlo]
      exact length_of_header hr
    rw [List.append_assoc] at hrest
    -- The record is complete as soon as one byte more than its payload is there, the tag.
    rcases Nat.lt_or_ge r.payload.length rest.length with hlt | hge
    · right
      obtain ⟨body, hbody⟩ : ∃ body, rest = r.payload ++ body :=
        ⟨rest.drop r.payload.length, by
          have hpre := List.prefix_of_prefix_length_le (List.prefix_append r.payload _)
            (hrest ▸ List.prefix_append rest later) (Nat.le_of_lt hlt)
          obtain ⟨body, hbody⟩ := hpre
          rw [← hbody, List.drop_left]⟩
      subst hbody
      rw [List.append_assoc] at hrest
      have htail := List.append_cancel_left hrest
      cases body with
      | nil => simp at hlt
      | cons tag rest' =>
        simp only [List.cons_append, List.nil_append, List.cons.injEq] at htail
        obtain ⟨htag, htail⟩ := htail
        have hdrop : (b.drop (r.payload.length + overhead)).data = rest' := by
          rw [Buffer.data_drop, hb]
          simp [overhead]
        refine ⟨b.drop (r.payload.length + overhead), ?_, by rw [hdrop, htail]⟩
        simp [take?, hb, hlen, hkind, htag]
    · left
      simp [take?, hb, hlen, List.drop_eq_nil_of_le hge]

/-- What is taken off the beginning of a stream is its first record. -/
theorem take?_first {b b' : Buffer} {r : Record} {rs : List Record} {later : Bytes}
    (h : b.data ++ later = encodeAll rs) (hfit : ∀ r ∈ rs, r.Fits)
    (ht : take? b = .ok (some (r, b'))) :
    ∃ rest, rs = r :: rest ∧ b'.data ++ later = encodeAll rest := by
  cases rs with
  | nil =>
    rw [take?_of_end (List.append_eq_nil_iff.1 h).1] at ht
    cases ht
  | cons q rest =>
    rcases take?_of_stream (hfit q (List.mem_cons_self ..)) h with hn | ⟨c, hc, hrest⟩
    · rw [hn] at ht
      cases ht
    · rw [hc] at ht
      simp only [Except.ok.injEq, Option.some.injEq, Prod.mk.injEq] at ht
      obtain ⟨rfl, rfl⟩ := ht
      exact ⟨rest, rfl, hrest⟩

theorem take?_ne_error {b : Buffer} {rs : List Record} {later : Bytes}
    (h : b.data ++ later = encodeAll rs) (hfit : ∀ r ∈ rs, r.Fits) : take? b ≠ .error () := by
  intro ht
  cases rs with
  | nil =>
    rw [take?_of_end (List.append_eq_nil_iff.1 h).1] at ht
    cases ht
  | cons q rest =>
    rcases take?_of_stream (hfit q (List.mem_cons_self ..)) h with hn | ⟨c, hc, -⟩
    · rw [hn] at ht
      cases ht
    · rw [hc] at ht
      cases ht

end Record
end TlsTransport.Tagged
