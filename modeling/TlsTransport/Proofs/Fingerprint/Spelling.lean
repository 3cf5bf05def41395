import TlsTransport.Proofs.Fingerprint.Digits
import TlsTransport.Proofs.SessionInfo.Fields

/-! # Fingerprints and how they are spelled

A fingerprint is spelled with digits of either case and with blanks and colons anywhere between
them. All its spellings have one normal form, the digits in lower case, and the normal form tells
which digest it is of.

* `Respelled`: spellings of one text.
* `normalizeFingerprint_eq_some_iff`: which texts have a normal form, and which it is.
* `normalizeFingerprint_respelled`: all spellings have the same one.
* `fingerprintMatches_iff`, `fingerprintMatches_normal`: what matches a certificate.
* `fingerprints_agree`: normal forms and matches fit together.
-/

namespace TlsTransport

/-! ## Spellings -/

/-- A character that stands between the digits of a fingerprint. -/
def IsSpacing (c : Char) : Prop := isBlank c = true ∨ c = ':'

instance (c : Char) : Decidable (IsSpacing c) := inferInstanceAs (Decidable (_ ∨ _))

/-- Another spelling of a text: letters in the other case, spacing put in or left out anywhere. A
character that is no digit says nothing, so it may turn into any other such character, as its other
case outside ASCII. -/
inductive Respelled : List Char → List Char → Prop where
  | nil : Respelled [] []
  | letter {c d : Char} {cs ds : List Char} (same : c.toLower = d.toLower)
      (rest : Respelled cs ds) : Respelled (c :: cs) (d :: ds)
  | other {c d : Char} {cs ds : List Char} (left : ¬ IsHexDigit c ∧ ¬ IsSpacing c)
      (right : ¬ IsHexDigit d ∧ ¬ IsSpacing d) (rest : Respelled cs ds) :
      Respelled (c :: cs) (d :: ds)
  | leaveOut {c : Char} {cs ds : List Char} (spacing : IsSpacing c) (rest : Respelled cs ds) :
      Respelled (c :: cs) ds
  | putIn {d : Char} {cs ds : List Char} (spacing : IsSpacing d) (rest : Respelled cs ds) :
      Respelled cs (d :: ds)

/-- What is left of a text when the spacing is taken out. -/
def withoutSpacing (text : List Char) : List Char := text.filter fun c => !isBlank c && c != ':'

theorem withoutSpacing_cons_spacing {c : Char} (h : IsSpacing c) (cs : List Char) :
    withoutSpacing (c :: cs) = withoutSpacing cs := by
  refine List.filter_cons_of_neg ?_
  simpa [IsSpacing, or_iff_not_imp_left] using h

theorem withoutSpacing_cons_other {c : Char} (h : ¬ IsSpacing c) (cs : List Char) :
    withoutSpacing (c :: cs) = c :: withoutSpacing cs := by
  refine List.filter_cons_of_pos ?_
  simpa [IsSpacing] using h

theorem withoutSpacing_eq_self {cs : List Char} (h : ∀ c ∈ cs, ¬ IsSpacing c) :
    withoutSpacing cs = cs := by
  induction cs with
  | nil => rfl
  | cons c cs ih =>
    obtain ⟨hc, hcs⟩ := List.forall_mem_cons.1 h
    rw [withoutSpacing_cons_other hc, ih hcs]

theorem isSpacing_toLower (c : Char) : IsSpacing c.toLower ↔ IsSpacing c := by
  refine forall_toLower (P := fun c l => IsSpacing l ↔ IsSpacing c) (by decide +kernel) ?_ c
  exact fun c _ => Iff.rfl

theorem IsHexDigit.not_isSpacing {c : Char} (h : IsHexDigit c) : ¬ IsSpacing c :=
  forall_ascii (P := fun c => IsHexDigit c → ¬ IsSpacing c) (by decide +kernel) h.ascii h

theorem hexValue?_eq_none {c : Char} (h : ¬ IsHexDigit c) : hexValue? c = none := by
  rwa [← Option.not_isSome_iff_eq_none, isSome_hexValue?_iff]

/-- All spellings have the same digits. -/
theorem Respelled.values {cs ds : List Char} (h : Respelled cs ds) :
    (withoutSpacing cs).map hexValue? = (withoutSpacing ds).map hexValue? := by
  induction h with
  | nil => rfl
  | @letter c d cs ds same rest ih =>
    have hvalue : hexValue? c = hexValue? d := by
      rw [← hexValue?_toLower c, same, hexValue?_toLower]
    have hspacing : IsSpacing c ↔ IsSpacing d := by
      rw [← isSpacing_toLower c, same, isSpacing_toLower]
    by_cases hc : IsSpacing c
    · rw [withoutSpacing_cons_spacing hc, withoutSpacing_cons_spacing (hspacing.1 hc), ih]
    · rw [withoutSpacing_cons_other hc, withoutSpacing_cons_other (mt hspacing.2 hc), List.map_cons,
        List.map_cons, ih, hvalue]
  | other left right rest ih =>
    rw [withoutSpacing_cons_other left.2, withoutSpacing_cons_other right.2, List.map_cons,
      List.map_cons, ih, hexValue?_eq_none left.1, hexValue?_eq_none right.1]
  | leaveOut spacing rest ih => rw [withoutSpacing_cons_spacing spacing, ih]
  | putIn spacing rest ih => rw [withoutSpacing_cons_spacing spacing, ih]

theorem Respelled.symm {cs ds : List Char} (h : Respelled cs ds) : Respelled ds cs := by
  induction h with
  | nil => exact .nil
  | letter same rest ih => exact .letter same.symm ih
  | other left right rest ih => exact .other right left ih
  | leaveOut spacing rest ih => exact .putIn spacing ih
  | putIn spacing rest ih => exact .leaveOut spacing ih

/-- The digits in lower case are a spelling of the whole. -/
theorem respelled_lower (cs : List Char) :
    Respelled cs ((withoutSpacing cs).map Char.toLower) := by
  induction cs with
  | nil => exact .nil
  | cons c cs ih =>
    by_cases hc : IsSpacing c
    · rw [withoutSpacing_cons_spacing hc]
      exact .leaveOut hc ih
    · rw [withoutSpacing_cons_other hc, List.map_cons]
      exact .letter (toLower_toLower c).symm ih

/-! ## Normal forms -/

theorem isDigestLength_iff {n : Nat} : isDigestLength n = true ↔ n ∈ [20, 28, 32, 48, 64] := by
  have hlengths : HashAlgorithm.all.map HashAlgorithm.digestLength = [20, 28, 32, 48, 64] := rfl
  rw [← hlengths, List.mem_map, isDigestLength, List.any_eq_true]
  simp only [beq_iff_eq]

/-- The normal form of a text is written from the bytes that its digits are read as. -/
theorem normalizeFingerprint_eq (text : String) :
    normalizeFingerprint text =
      ((Bytes.ofHexDigits? (withoutSpacing text.toList)).filter (isDigestLength ·.length)).map
        Bytes.toHex := by
  have hdigits : text.toList.filter (fun c => !isBlank c && c != ':') =
      withoutSpacing text.toList := rfl
  unfold normalizeFingerprint
  dsimp only
  rw [hdigits]
  cases Bytes.ofHexDigits? (withoutSpacing text.toList) with
  | none => rfl
  | some bytes =>
    dsimp only
    rw [Option.filter_some]
    split <;> rfl

theorem normalizeFingerprint_respelled {s s' : String} (h : Respelled s.toList s'.toList) :
    normalizeFingerprint s = normalizeFingerprint s' := by
  rw [normalizeFingerprint_eq, normalizeFingerprint_eq, Bytes.ofHexDigits?_congr h.values]

theorem normalizeFingerprint_eq_some_iff {s r : String} :
    normalizeFingerprint s = some r ↔
      (∃ size ∈ [20, 28, 32, 48, 64], (withoutSpacing s.toList).length = 2 * size) ∧
      (∀ c ∈ withoutSpacing s.toList, IsHexDigit c) ∧
      r = String.ofList ((withoutSpacing s.toList).map Char.toLower) := by
  have hsize : ∀ bytes, Bytes.ofHexDigits? (withoutSpacing s.toList) = some bytes →
      (withoutSpacing s.toList).length = 2 * bytes.length := fun bytes hbytes => by
    rw [← Bytes.length_hexDigits, ← Bytes.ofHexDigits?_eq_some_iff.1 hbytes, List.length_map]
  rw [normalizeFingerprint_eq, Option.map_eq_some_iff]
  simp only [Option.filter_eq_some_iff, isDigestLength_iff]
  constructor
  · rintro ⟨bytes, ⟨hbytes, hlength⟩, rfl⟩
    obtain ⟨-, hdigits⟩ := Bytes.exists_ofHexDigits?_iff.1 ⟨bytes, hbytes⟩
    exact ⟨⟨bytes.length, hlength, hsize bytes hbytes⟩, hdigits,
      congrArg String.ofList (Bytes.ofHexDigits?_eq_some_iff.1 hbytes).symm⟩
  · rintro ⟨⟨size, hmem, hlength⟩, hdigits, rfl⟩
    obtain ⟨bytes, hbytes⟩ := Bytes.exists_ofHexDigits?_iff.2 ⟨by omega, hdigits⟩
    obtain rfl : bytes.length = size := by
      have hdouble := hsize bytes hbytes
      omega
    exact ⟨bytes, ⟨hbytes, hmem⟩,
      congrArg String.ofList (Bytes.ofHexDigits?_eq_some_iff.1 hbytes).symm⟩

/-- A normal form is its own. -/
theorem normalizeFingerprint_normal {s r : String} (h : normalizeFingerprint s = some r) :
    normalizeFingerprint r = some r := by
  obtain ⟨-, -, hr⟩ := normalizeFingerprint_eq_some_iff.1 h
  have hspelled : Respelled s.toList r.toList := by
    rw [hr, String.toList_ofList]
    exact respelled_lower s.toList
  rw [← normalizeFingerprint_respelled hspelled, h]

theorem map_toLower_normal {s r : String} (h : normalizeFingerprint s = some r) :
    r.toList.map Char.toLower = r.toList := by
  obtain ⟨-, -, rfl⟩ := normalizeFingerprint_eq_some_iff.1 h
  rw [String.toList_ofList, List.map_map]
  exact List.map_congr_left fun c _ => toLower_toLower c

/-! ## Matches -/

theorem HashAlgorithm.mem_all (h : HashAlgorithm) : h ∈ all := by
  cases h <;> decide

/-- A text matches a certificate if it is the digits of one of its digests, but for case. -/
theorem fingerprintMatches_iff {der : Bytes} {text : String} :
    fingerprintMatches der text = true ↔
      ∃ h : HashAlgorithm, text.toList.map Char.toLower = (h.digest der).hexDigits := by
  simp only [← Bytes.ofHexDigits?_eq_some_iff, fingerprintMatches, Bytes.ofHex?]
  cases Bytes.ofHexDigits? text.toList with
  | none => simp
  | some want =>
    simp only [List.any_eq_true, Bool.and_eq_true, beq_iff_eq, Option.some.injEq]
    constructor
    · rintro ⟨h, -, -, rfl⟩
      exact ⟨h, rfl⟩
    · rintro ⟨h, rfl⟩
      exact ⟨h, h.mem_all, (h.length_digest der).symm, rfl⟩

theorem map_toLower_hexDigits (bytes : Bytes) :
    bytes.hexDigits.map Char.toLower = bytes.hexDigits :=
  Bytes.ofHexDigits?_eq_some_iff.1 (Bytes.ofHexDigits?_hexDigits bytes)

/-- A normal form is as long as the digests of one algorithm in hexadecimal, and matches the
certificates of which it is that digest. -/
theorem fingerprintMatches_normal {s r : String} (h : normalizeFingerprint s = some r) :
    ∃ k : HashAlgorithm, (∀ k' : HashAlgorithm, r.length = 2 * k'.digestLength ↔ k' = k) ∧
      ∀ der, fingerprintMatches der r = true ↔ r = (k.digest der).toHex := by
  have hlower := map_toLower_normal h
  obtain ⟨⟨size, hmem, hsize⟩, -, hr⟩ := normalizeFingerprint_eq_some_iff.1 h
  have hlength : r.length = 2 * size := by
    rw [hr, String.length_ofList, List.length_map, hsize]
  obtain ⟨k, rfl⟩ : ∃ k : HashAlgorithm, k.digestLength = size := by
    simp only [List.mem_cons, List.not_mem_nil, or_false] at hmem
    rcases hmem with rfl | rfl | rfl | rfl | rfl
    · exact ⟨.sha1, rfl⟩
    · exact ⟨.sha224, rfl⟩
    · exact ⟨.sha256, rfl⟩
    · exact ⟨.sha384, rfl⟩
    · exact ⟨.sha512, rfl⟩
  have honly : ∀ k' : HashAlgorithm, r.length = 2 * k'.digestLength ↔ k' = k := fun k' => by
    constructor
    · intro hk'
      exact HashAlgorithm.digestLength_inj (by omega)
    · rintro rfl
      exact hlength
  refine ⟨k, honly, fun der => ?_⟩
  rw [fingerprintMatches_iff, hlower]
  constructor
  · rintro ⟨k', hk'⟩
    have hdigits : r.length = 2 * k'.digestLength := by
      rw [← String.length_toList, hk', Bytes.length_hexDigits, k'.length_digest]
    obtain rfl := (honly k').1 hdigits
    rw [Bytes.toHex, ← hk', String.ofList_toList]
  · intro hdigest
    exact ⟨k, by rw [hdigest, Bytes.toHex, String.toList_ofList]⟩

/-- Texts that are digits alone match as their normal form does. -/
theorem fingerprintMatches_digits {s r : String} (h : normalizeFingerprint s = some r)
    (hdigits : ∀ c ∈ s.toList, IsHexDigit c) (der : Bytes) :
    fingerprintMatches der s = fingerprintMatches der r := by
  have hlower : r.toList = s.toList.map Char.toLower := by
    obtain ⟨-, -, rfl⟩ := normalizeFingerprint_eq_some_iff.1 h
    rw [String.toList_ofList, withoutSpacing_eq_self fun c hc => (hdigits c hc).not_isSpacing]
  rw [Bool.eq_iff_iff, fingerprintMatches_iff, fingerprintMatches_iff, map_toLower_normal h, hlower]

/-- A digest in hexadecimal matches what it is the digest of, and is a normal form. -/
theorem fingerprintMatches_toHex (k : HashAlgorithm) (der : Bytes) :
    fingerprintMatches der (k.digest der).toHex = true := by
  rw [fingerprintMatches_iff]
  exact ⟨k, by rw [Bytes.toHex, String.toList_ofList, map_toLower_hexDigits]⟩

theorem isHexDigit_of_mem_hexDigits {bytes : Bytes} {c : Char} (hc : c ∈ bytes.hexDigits) :
    IsHexDigit c :=
  (Bytes.exists_ofHexDigits?_iff.1 ⟨bytes, Bytes.ofHexDigits?_hexDigits bytes⟩).2 c hc

theorem normalizeFingerprint_toHex (k : HashAlgorithm) (der : Bytes) :
    normalizeFingerprint (k.digest der).toHex = some (k.digest der).toHex := by
  have hdigits : withoutSpacing (k.digest der).toHex.toList = (k.digest der).hexDigits := by
    rw [Bytes.toHex, String.toList_ofList]
    exact withoutSpacing_eq_self fun c hc => (isHexDigit_of_mem_hexDigits hc).not_isSpacing
  rw [normalizeFingerprint_eq_some_iff, hdigits, map_toLower_hexDigits, Bytes.length_hexDigits,
    k.length_digest]
  refine ⟨⟨k.digestLength, ?_, rfl⟩, fun c hc => isHexDigit_of_mem_hexDigits hc, rfl⟩
  cases k <;> decide

/-! ## Certificates of a session -/

theorem SessionInfo.get?_fingerprint (info : SessionInfo) (n : Nat) :
    info.get? ("tls.cert" ++ toString n ++ ".fingerprint") =
      if n ≤ indexBound then
        (info.certificates[n]?).map fun c => (HashAlgorithm.sha256.digest c.der).toHex
      else Option.none := by
  have hname : ".fingerprint" = "." ++ "fingerprint" := by decide
  have hfield : ∀ c, fieldOf? c (trimBlank "fingerprint".toList) =
      some (HashAlgorithm.sha256.digest c.der).toHex := fun c => rfl
  rw [hname, ← String.append_assoc, info.get?_certificate]
  simp only [hfield, certificate?]
  rw [Option.map_eq_bind]
  rfl

/-- Which texts have a normal form and which it is; it is its own, and all spellings of a text have
the same. A normal form matches the certificates of which it is the digest, by the one algorithm of
its length, and a text of digits alone matches as its normal form does. Every spelling of a digest
has the digest as its normal form, which matches; so does what a session says of a certificate. -/
theorem fingerprints_agree :
    (∀ s r, normalizeFingerprint s = some r ↔
      (∃ size ∈ [20, 28, 32, 48, 64], (withoutSpacing s.toList).length = 2 * size) ∧
      (∀ c ∈ withoutSpacing s.toList, IsHexDigit c) ∧
      r = String.ofList ((withoutSpacing s.toList).map Char.toLower)) ∧
    (∀ s r, normalizeFingerprint s = some r → normalizeFingerprint r = some r) ∧
    (∀ s s', Respelled s.toList s'.toList → normalizeFingerprint s = normalizeFingerprint s') ∧
    (∀ s r, normalizeFingerprint s = some r →
      (∃ k : HashAlgorithm, (∀ k' : HashAlgorithm, r.length = 2 * k'.digestLength ↔ k' = k) ∧
        ∀ der, fingerprintMatches der r = true ↔ r = (k.digest der).toHex) ∧
      ((∀ c ∈ s.toList, IsHexDigit c) →
        ∀ der, fingerprintMatches der s = fingerprintMatches der r)) ∧
    (∀ (k : HashAlgorithm) (der : Bytes) (f : String),
      Respelled (k.digest der).toHex.toList f.toList →
        normalizeFingerprint f = some (k.digest der).toHex ∧
        fingerprintMatches der (k.digest der).toHex = true) ∧
    ∀ (info : SessionInfo) (n : Nat),
      (∀ f, info.get? ("tls.cert" ++ toString n ++ ".fingerprint") = some f →
        ∃ c, info.certificates[n]? = some c ∧ normalizeFingerprint f = some f ∧
          fingerprintMatches c.der f = true) ∧
      (n ≤ SessionInfo.indexBound → (info.certificates[n]?).isSome = true →
        (info.get? ("tls.cert" ++ toString n ++ ".fingerprint")).isSome = true) := by
  refine ⟨fun s r => normalizeFingerprint_eq_some_iff, fun s r => normalizeFingerprint_normal,
    fun s s' => normalizeFingerprint_respelled,
    fun s r h => ⟨fingerprintMatches_normal h, fingerprintMatches_digits h⟩,
    fun k der f h => ⟨?_, fingerprintMatches_toHex k der⟩, fun info n => ?_⟩
  · rw [← normalizeFingerprint_respelled h, normalizeFingerprint_toHex]
  · rw [info.get?_fingerprint]
    refine ⟨fun f hf => ?_, fun hn hc => ?_⟩
    · obtain ⟨-, hvalue⟩ := Option.ite_none_right_eq_some.1 hf
      obtain ⟨c, hc, rfl⟩ := Option.map_eq_some_iff.1 hvalue
      exact ⟨c, hc, normalizeFingerprint_toHex .sha256 c.der,
        fingerprintMatches_toHex .sha256 c.der⟩
    · rw [if_pos hn, Option.isSome_map]
      exact hc

/-- A digest spelled in capitals, in two groups with a no-break space between them, and the digest
that a session gives of its second certificate. -/
theorem grouped_fingerprint_agrees :
    let leaf : Bytes := [0x6c, 0x65, 0x61, 0x66]
    let spelled := "98:79:82:41:74:8E:FA:CC:B2:30\u00a038:64:37:B7:87:3A:47:8F:5B:D4"
    let normal := "98798241748efaccb230386437b7873a478f5bd4"
    let info := { SessionInfo.none with certificates := [.unread [], .unread leaf] }
    Respelled (HashAlgorithm.sha1.digest leaf).toHex.toList spelled.toList ∧
    normalizeFingerprint spelled = some normal ∧ normalizeFingerprint normal = some normal ∧
    fingerprintMatches leaf normal = true ∧
    ∃ f, info.get? ("tls.cert" ++ toString 1 ++ ".fingerprint") = some f ∧
      normalizeFingerprint f = some f ∧ fingerprintMatches leaf f = true := by
  intro leaf spelled normal info
  obtain ⟨-, hfixed, -, -, hdigests, hshown⟩ := fingerprints_agree
  have hdigest : (HashAlgorithm.sha1.digest leaf).toHex = normal := by decide +kernel
  have hlower : normal.toList = (withoutSpacing spelled.toList).map Char.toLower := by
    decide +kernel
  have hspelled : Respelled (HashAlgorithm.sha1.digest leaf).toHex.toList spelled.toList := by
    rw [hdigest, hlower]
    exact (respelled_lower spelled.toList).symm
  obtain ⟨hnormal, hmatch⟩ := hdigests .sha1 leaf spelled hspelled
  rw [hdigest] at hnormal hmatch
  obtain ⟨hvalues, hthere⟩ := hshown info 1
  obtain ⟨f, hf⟩ := Option.isSome_iff_exists.1 (hthere (by decide) rfl)
  obtain ⟨c, hc, hnormalf, hmatchf⟩ := hvalues f hf
  obtain rfl := Option.some.inj hc
  exact ⟨hspelled, hnormal, hfixed _ _ hnormal, hmatch, f, hf, hnormalf, hmatchf⟩

end TlsTransport
