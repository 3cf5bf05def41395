import Mathlib.Data.List.TakeWhile
import TlsTransport.Proofs.SessionInfo.Fields

/-! # The names of a session's values

Five values have names of their own. The other names are those of the fields of certificates: of the
peer's own by the field alone, of any by its index in the chain, where blanks around the field do
not count.

* `Denotes`: the grammar, with what each name stands for.
* `denotes_unique`: a name stands for one thing.
* `get?_of_denotes`, `exists_denotes`: the names that have a value are those of the grammar, and the
  value is that of what they stand for.
* `lookup_grammar`: the same for every session, with what follows for the spelling of an index.
-/

namespace TlsTransport

/-! ## Blanks around a text -/

/-- A text that neither starts nor ends with a blank. -/
def Tight (text : List Char) : Prop :=
  text.head?.any isBlank = false ∧ text.getLast?.any isBlank = false

instance (text : List Char) : Decidable (Tight text) := inferInstanceAs (Decidable (_ ∧ _))

/-- A text with blanks around it. -/
def Padded (core text : List Char) : Prop :=
  ∃ before after, text = before ++ core ++ after ∧ before.all isBlank = true ∧
    after.all isBlank = true

theorem Padded.refl (text : List Char) : Padded text text :=
  ⟨[], [], by simp, rfl, rfl⟩

theorem dropWhile_isBlank {blanks rest : List Char} (hblanks : blanks.all isBlank = true)
    (hrest : rest.head?.any isBlank = false) : (blanks ++ rest).dropWhile isBlank = rest := by
  rw [List.dropWhile_append_of_pos (List.all_eq_true.1 hblanks)]
  cases rest with
  | nil => rfl
  | cons c rest => exact List.dropWhile_cons_of_neg (Bool.eq_false_iff.1 hrest)

/-- Trimming takes away the blanks around a text and nothing else. -/
theorem trimBlank_eq_iff {text core : List Char} (h : Tight core) :
    trimBlank text = core ↔ Padded core text := by
  constructor
  · rintro rfl
    refine ⟨text.takeWhile isBlank, ((text.dropWhile isBlank).reverse.takeWhile isBlank).reverse,
      ?_, List.all_takeWhile, ?_⟩
    · rw [trimBlank, List.append_assoc, ← List.reverse_append, List.takeWhile_append_dropWhile,
        List.reverse_reverse, List.takeWhile_append_dropWhile]
    · rw [List.all_reverse]
      exact List.all_takeWhile
  · rintro ⟨before, after, rfl, hbefore, hafter⟩
    rw [trimBlank]
    by_cases hcore : core = []
    · subst hcore
      have hall : (before ++ [] ++ after).all isBlank = true := by
        rw [List.append_nil, List.all_append, hbefore, hafter]
        rfl
      rw [List.dropWhile_eq_nil_iff.2 (List.all_eq_true.1 hall)]
      rfl
    · have hfront : (before ++ core ++ after).dropWhile isBlank = core ++ after := by
        rw [List.append_assoc]
        refine dropWhile_isBlank hbefore ?_
        rw [List.head?_append_of_ne_nil _ hcore]
        exact h.1
      have hback : (core ++ after).reverse.dropWhile isBlank = core.reverse := by
        rw [List.reverse_append]
        refine dropWhile_isBlank (by rwa [List.all_reverse]) ?_
        rw [List.head?_reverse]
        exact h.2
      rw [hfront, hback, List.reverse_reverse]

namespace SessionInfo

/-! ## What has a name -/

/-- The values that have names of their own. -/
inductive PlainName where
  | version | cipher | serverName | renegotiations | failed
  deriving DecidableEq, Repr

/-- The name of a value. -/
def PlainName.text : PlainName → String
  | version => "tls.version"
  | cipher => "tls.cipher"
  | serverName => "tls.servername"
  | renegotiations => "tls.renegotiations"
  | failed => "tls.failed"

/-- The value of a name. -/
def PlainName.value (info : SessionInfo) : PlainName → String
  | version => (info.version.map TlsVersion.name).getD undefinedText
  | cipher => info.cipher.getD undefinedText
  | serverName => info.serverName.getD undefinedText
  | renegotiations => toString info.renegotiations
  | failed => if info.failed then "true" else "false"

/-- The fields of a certificate that have names. -/
inductive CertificateField where
  | subject | issuer | altNames | fingerprint
  deriving DecidableEq, Repr

/-- The name of a field. -/
def CertificateField.text : CertificateField → String
  | subject => "subject"
  | issuer => "issuer"
  | altNames => "subject_alt_names"
  | fingerprint => "fingerprint"

/-- A field of a certificate. -/
def CertificateField.value (c : CertificateInfo) : CertificateField → String
  | subject => c.subject
  | issuer => c.issuer
  | altNames => if c.altNames = [] then undefinedText else ", ".intercalate c.altNames
  | fingerprint => (HashAlgorithm.sha256.digest c.der).toHex

theorem CertificateField.text_tight (f : CertificateField) : Tight f.text.toList := by
  cases f <;> decide

theorem CertificateField.text_inj {f g : CertificateField} (h : f.text = g.text) : f = g := by
  revert h
  cases f <;> cases g <;> decide

/-- What a name stands for. -/
inductive Item where
  | plain (p : PlainName)
  | ofCertificate (index : Nat) (f : CertificateField)
  deriving DecidableEq, Repr

/-- The value of what a name stands for, if the session has it. -/
def Item.value? (info : SessionInfo) : Item → Option String
  | plain p => some (p.value info)
  | ofCertificate index f => (info.certificates[index]?).map f.value

/-- The names, with what each of them stands for. -/
inductive Denotes : String → Item → Prop
  | plain (p : PlainName) : Denotes p.text (.plain p)
  | own (f : CertificateField) : Denotes ("tls.cert." ++ f.text) (.ofCertificate 0 f)
  | indexed {index field : String} {n : Nat} {f : CertificateField}
      (hindex : SignedNumeral index.toList n) (hn : n < UInt64.size)
      (hfield : Padded f.text.toList field.toList) :
      Denotes ("tls.cert" ++ index ++ "." ++ field) (.ofCertificate n f)

/-! ## Values and fields -/

theorem le_indexBound_iff {n : Nat} : n ≤ indexBound ↔ n < UInt64.size := by
  have hbound : indexBound + 1 = UInt64.size := rfl
  omega

theorem get?_plain (info : SessionInfo) (p : PlainName) :
    info.get? p.text = some (p.value info) := by
  cases p <;> simp [get?, PlainName.text, PlainName.value]

theorem exists_plain {info : SessionInfo} {name value : String}
    (hfront : ¬ "tls.cert".toList <+: name.toList) (h : info.get? name = some value) :
    ∃ p : PlainName, name = p.text := by
  by_contra hother
  have hne : ∀ p : PlainName, name ≠ p.text := fun p hp => hother ⟨p, hp⟩
  rw [get?, if_neg (show name ≠ "tls.version" from hne .version),
    if_neg (show name ≠ "tls.cipher" from hne .cipher),
    if_neg (show name ≠ "tls.servername" from hne .serverName),
    if_neg (show name ≠ "tls.renegotiations" from hne .renegotiations),
    if_neg (show name ≠ "tls.failed" from hne .failed)] at h
  split at h
  · rename_i rest hname
    exact hfront ⟨rest, hname.symm⟩
  · cases h

theorem fieldOf?_text (c : CertificateInfo) (f : CertificateField) :
    fieldOf? c f.text.toList = some (f.value c) := by
  cases f <;> simp [fieldOf?, CertificateField.text, CertificateField.value]

theorem exists_field {c : CertificateInfo} {field : List Char} {value : String}
    (h : fieldOf? c field = some value) : ∃ f : CertificateField, field = f.text.toList := by
  by_contra hother
  have hne : ∀ f : CertificateField, String.ofList field ≠ f.text := fun f hf =>
    hother ⟨f, by rw [← hf, String.toList_ofList]⟩
  have hnone : fieldOf? c field = Option.none := by
    rw [fieldOf?, if_neg (show String.ofList field ≠ "subject" from hne .subject),
      if_neg (show String.ofList field ≠ "issuer" from hne .issuer),
      if_neg (show String.ofList field ≠ "subject_alt_names" from hne .altNames),
      if_neg (show String.ofList field ≠ "fingerprint" from hne .fingerprint)]
  rw [hnone] at h
  cases h

/-! ## The grammar -/

variable {info : SessionInfo} {name : String}

/-- The names of a field of a certificate are those that are read as its place and the field. -/
theorem denotes_certificate_iff {n : Nat} {f : CertificateField} :
    Denotes name (.ofCertificate n f) ↔ ∃ rest, name.toList = "tls.cert".toList ++ rest ∧
      certificateField? rest = some (n, f.text.toList) := by
  constructor
  · intro h
    cases h with
    | own => exact ⟨'.' :: f.text.toList, by simp, rfl⟩
    | @indexed index field _ _ hindex hn hfield =>
      refine ⟨index.toList ++ '.' :: field.toList, by simp, ?_⟩
      rw [certificateField?_of_numeral hindex, if_pos (le_indexBound_iff.2 hn),
        (trimBlank_eq_iff f.text_tight).2 hfield]
  · rintro ⟨rest, hname, hread⟩
    rcases certificateField?_cases hread with
      ⟨rfl, rfl⟩ | ⟨index, padded, rfl, hindex, hbound, hfield⟩
    · obtain rfl : name = "tls.cert." ++ f.text := by
        rw [← String.toList_inj, hname]
        simp
      exact .own f
    · obtain rfl : name = "tls.cert" ++ String.ofList index ++ "." ++ String.ofList padded := by
        rw [← String.toList_inj, hname]
        simp
      refine .indexed ?_ (le_indexBound_iff.1 hbound) ?_
      · rwa [String.toList_ofList]
      · rw [String.toList_ofList]
        exact (trimBlank_eq_iff f.text_tight).1 hfield.symm

theorem denotes_plain_iff {p : PlainName} : Denotes name (.plain p) ↔ name = p.text := by
  constructor
  · rintro ⟨⟩
    rfl
  · rintro rfl
    exact .plain p

theorem not_front_text (p : PlainName) : ¬ "tls.cert".toList <+: p.text.toList := by
  cases p <;> decide

theorem denotes_unique {item item' : Item} (h : Denotes name item) (h' : Denotes name item') :
    item = item' := by
  cases item with
  | plain p =>
    obtain rfl := denotes_plain_iff.1 h
    cases item' with
    | plain p' =>
      have htext := denotes_plain_iff.1 h'
      revert htext
      cases p <;> cases p' <;> decide
    | ofCertificate n f =>
      obtain ⟨rest, hname, -⟩ := denotes_certificate_iff.1 h'
      exact absurd ⟨rest, hname.symm⟩ (not_front_text p)
  | ofCertificate n f =>
    obtain ⟨rest, hname, hread⟩ := denotes_certificate_iff.1 h
    cases item' with
    | plain p =>
      obtain rfl := denotes_plain_iff.1 h'
      exact absurd ⟨rest, hname.symm⟩ (not_front_text p)
    | ofCertificate n' f' =>
      obtain ⟨rest', hname', hread'⟩ := denotes_certificate_iff.1 h'
      obtain rfl := List.append_cancel_left (hname.symm.trans hname')
      obtain ⟨rfl, hfield⟩ := Prod.mk.inj (Option.some.inj (hread.symm.trans hread'))
      rw [CertificateField.text_inj (String.toList_inj.1 hfield)]

/-- A name has the value of what it stands for. -/
theorem get?_of_denotes (info : SessionInfo) {item : Item} (h : Denotes name item) :
    info.get? name = item.value? info := by
  cases item with
  | plain p =>
    obtain rfl := denotes_plain_iff.1 h
    exact info.get?_plain p
  | ofCertificate n f =>
    obtain ⟨rest, hname, hread⟩ := denotes_certificate_iff.1 h
    rw [get?_of_front info hname, hread, Option.bind_some, Item.value?, Option.map_eq_bind]
    simp only [fieldOf?_text]
    rfl

/-- Nothing but the names of the grammar has a value. -/
theorem exists_denotes {value : String} (h : info.get? name = some value) :
    ∃ item, Denotes name item := by
  by_cases hfront : "tls.cert".toList <+: name.toList
  · obtain ⟨rest, hname⟩ := hfront
    rw [get?_of_front info hname.symm] at h
    obtain ⟨⟨n, field⟩, hread, hvalue⟩ := Option.bind_eq_some_iff.1 h
    obtain ⟨c, -, hfield⟩ := Option.bind_eq_some_iff.1 hvalue
    obtain ⟨f, rfl⟩ := exists_field hfield
    exact ⟨.ofCertificate n f, denotes_certificate_iff.2 ⟨rest, hname.symm, hread⟩⟩
  · obtain ⟨p, hp⟩ := exists_plain hfront h
    exact ⟨.plain p, denotes_plain_iff.2 hp⟩

/-- A value that is found by an index is a field of the certificate there. -/
theorem certificate_of_indexed {index : String} {n : Nat} (h : SignedNumeral index.toList n)
    {field value : String} (hvalue : info.get? ("tls.cert" ++ index ++ "." ++ field) = some value) :
    n < UInt64.size ∧ ∃ c f, info.certificates[n]? = some c ∧
      Padded (CertificateField.text f).toList field.toList ∧ value = f.value c := by
  rw [get?_indexed info h, Option.ite_none_right_eq_some] at hvalue
  obtain ⟨hbound, hread⟩ := hvalue
  obtain ⟨c, hc, hvalue⟩ := Option.bind_eq_some_iff.1 hread
  obtain ⟨f, hf⟩ := exists_field hvalue
  rw [hf, fieldOf?_text] at hvalue
  exact ⟨le_indexBound_iff.1 hbound, c, f, hc, (trimBlank_eq_iff f.text_tight).1 hf,
    (Option.some.inj hvalue).symm⟩

/-- Which names have a value and which it is. A name stands for one thing, whatever the session. By
its index a certificate is the same however the index is spelled, and no other certificate has a
part in the value. The peer's own certificate is the one of index zero. Digits stand for the
certificate of their number, however many they are, or for none. -/
theorem lookup_grammar (info : SessionInfo) :
    (∀ name value, info.get? name = some value ↔
      ∃ item, Denotes name item ∧ item.value? info = some value) ∧
    (∀ name item, Denotes name item →
      info.get? name = item.value? info ∧ ∀ item', Denotes name item' → item' = item) ∧
    (∀ (index index' : String) (n : Nat), SignedNumeral index.toList n →
      SignedNumeral index'.toList n → ∀ info' : SessionInfo,
        info'.certificates[n]? = info.certificates[n]? → ∀ field,
          info'.get? ("tls.cert" ++ index' ++ "." ++ field) =
            info.get? ("tls.cert" ++ index ++ "." ++ field)) ∧
    (∀ (digits : String) (n zeros : Nat), Numeral digits.toList n → ∀ field,
      info.get?
          ("tls.cert" ++ (String.ofList (List.replicate zeros '0') ++ digits) ++ "." ++ field) =
        info.get? ("tls.cert" ++ digits ++ "." ++ field)) ∧
    (∀ field, Tight field.toList →
      info.get? ("tls.cert." ++ field) = info.get? ("tls.cert0." ++ field)) ∧
    ∀ digits : String, digits ≠ "" → digits.toList.all Char.isDigit = true →
      ∃ n, Numeral digits.toList n ∧ ∀ field value,
        info.get? ("tls.cert" ++ digits ++ "." ++ field) = some value →
          n < UInt64.size ∧ ∃ c f, info.certificates[n]? = some c ∧
            Padded (CertificateField.text f).toList field.toList ∧ value = f.value c := by
  refine ⟨fun name value => ⟨fun h => ?_, ?_⟩, fun name item h => ⟨get?_of_denotes info h,
      fun item' h' => denotes_unique h' h⟩, fun index index' n h h' info' hsame field => ?_,
    fun digits n zeros h field => ?_, fun field h => ?_, fun digits hne hdigits => ?_⟩
  · obtain ⟨item, hitem⟩ := exists_denotes h
    exact ⟨item, hitem, (get?_of_denotes info hitem).symm.trans h⟩
  · rintro ⟨item, hitem, hvalue⟩
    exact (get?_of_denotes info hitem).trans hvalue
  · rw [get?_indexed info' h', get?_indexed info h, certificate?, certificate?, hsame]
  · have hzeros : SignedNumeral (String.ofList (List.replicate zeros '0') ++ digits).toList n := by
      rw [String.toList_append, String.toList_ofList]
      exact .bare (h.zeros zeros)
    rw [get?_indexed info hzeros, get?_indexed info (.bare h)]
  · have hzero : SignedNumeral "0".toList 0 := .bare (Numeral.digit (show 0 < 10 by decide))
    have hname : "tls.cert0." = "tls.cert" ++ "0" ++ "." := by decide
    rw [hname, get?_indexed info hzero, get?_own, if_pos (by decide),
      (trimBlank_eq_iff h).2 (.refl _)]
  · obtain ⟨n, hn⟩ := exists_numeral_iff.2 ⟨by simpa using hne, hdigits⟩
    exact ⟨n, hn, fun field value h => certificate_of_indexed (.bare hn) h⟩

/-- A chain of two certificates. -/
def pairedInfo : SessionInfo :=
  { none with certificates := [⟨"leaf", "authority", [], [1]⟩, ⟨"authority", "root", [], [2]⟩] }

/-- An index with a sign and zeros before a field between blanks, two spellings of that index, the
two names of the peer's own certificate, and an index whose last sixty-four bits are zero. -/
theorem pairedInfo_reads :
    (Denotes "tls.cert+0001.\u00a0issuer " (.ofCertificate 1 .issuer) ∧
      pairedInfo.get? "tls.cert+0001.\u00a0issuer " = some "root") ∧
    (SignedNumeral "1".toList 1 ∧ SignedNumeral "+0001".toList 1 ∧
      pairedInfo.get? "tls.cert1.\u00a0issuer " = some "root") ∧
    (Tight "subject".toList ∧ pairedInfo.get? "tls.cert0.subject" = some "leaf" ∧
      pairedInfo.get? "tls.cert.subject" = some "leaf") ∧
    pairedInfo.get? "tls.cert18446744073709551616.subject" = Option.none := by
  obtain ⟨-, hdenoted, hspelled, -, hown, hdigits⟩ := lookup_grammar pairedInfo
  have hone : Numeral "1".toList 1 := Numeral.digit (show 1 < 10 by decide)
  have hbare : SignedNumeral "1".toList 1 := .bare hone
  have hsigned : SignedNumeral "+0001".toList 1 := .plus (hone.zeros 3)
  have hfield : Padded CertificateField.issuer.text.toList "\u00a0issuer ".toList :=
    ⟨['\u00a0'], [' '], by decide, by decide, by decide⟩
  have hname : Denotes "tls.cert+0001.\u00a0issuer " (.ofCertificate 1 .issuer) :=
    @Denotes.indexed "+0001" "\u00a0issuer " 1 .issuer hsigned (by decide) hfield
  have hsigns := (hdenoted _ _ hname).1
  have htight : Tight "subject".toList := by decide
  have hleaf := (hdenoted _ _ (.own .subject)).1
  refine ⟨⟨hname, hsigns⟩, ⟨hbare, hsigned, ?_⟩, ⟨htight, ?_, hleaf⟩, ?_⟩
  · exact (hspelled "+0001" "1" 1 hsigned hbare pairedInfo rfl "\u00a0issuer ").trans hsigns
  · exact (hown "subject" htight).symm.trans hleaf
  · obtain ⟨n, hn, hvalues⟩ := hdigits "18446744073709551616" (by decide) (by decide)
    have htext : "18446744073709551616".toList = Nat.toDigits 10 UInt64.size := by decide
    have hlarge : n = UInt64.size :=
      SignedNumeral.unique (.bare hn) (.bare (htext ▸ Numeral.toDigits UInt64.size))
    refine Option.eq_none_iff_forall_ne_some.2 fun value hvalue => ?_
    exact absurd (hvalues "subject" value hvalue).1 (by omega)

/-- Blanks around a field count where there is no index. -/
example : pairedInfo.get? "tls.cert. subject" = Option.none ∧
    pairedInfo.get? "tls.cert0. subject" = some "leaf" := by decide

end SessionInfo
end TlsTransport
