import TlsTransport.Proofs.Address.RoundTrip
import TlsTransport.Proofs.Hostname.Verification

/-! # Address entries as hosts

An address entry of a certificate has four or sixteen octets, which are those of its address. The
text of the address, in brackets or not, is a host that the entry covers.

* `IpAddress.octets`: the octets of an address, the most significant first.
* `IpAddress.octets_of_ofOctets?`: those of an entry are its own.
* `IpAddress.entry_verifies`: an entry covers the text of its address, and no other entry does.
-/

namespace TlsTransport
namespace IpAddress

/-! ## Octets -/

/-- The octets of groups. -/
def groupOctets (gs : List UInt16) : Bytes := gs.flatMap fun g => [(halves g).1, (halves g).2]

/-- The octets of an address. -/
def octets : IpAddress → Bytes
  | v4 a b c d => [a, b, c, d]
  | v6 gs => groupOctets gs.toList

theorem halves_word (hi lo : UInt8) :
    halves (.ofNat (256 * hi.toNat + lo.toNat)) = (hi, lo) := by
  have hhi := hi.toNat_lt
  have hlo := lo.toNat_lt
  have hword : (UInt16.ofNat (256 * hi.toNat + lo.toNat)).toNat = 256 * hi.toNat + lo.toNat := by
    rw [UInt16.toNat_ofNat']
    omega
  have hfirst : (256 * hi.toNat + lo.toNat) / 256 = hi.toNat := by omega
  have hsecond : (256 * hi.toNat + lo.toNat) % 256 = lo.toNat := by omega
  rw [halves, hword, hfirst, hsecond, UInt8.ofNat_toNat, UInt8.ofNat_toNat]

theorem length_words (o : Bytes) : (words o).length = o.length / 2 := by
  induction o using words.induct with
  | case1 hi lo rest ih =>
    rw [words, List.length_cons, ih]
    simp only [List.length_cons]
    omega
  | case2 o h =>
    rw [words]
    · match o, h with
      | [], _ => rfl
      | [_], _ => simp
      | hi :: lo :: rest, h => exact absurd rfl (h hi lo rest)
    · exact h

theorem groupOctets_words {o : Bytes} (h : o.length % 2 = 0) : groupOctets (words o) = o := by
  induction o using words.induct with
  | case1 hi lo rest ih =>
    have hrest := ih (by simp only [List.length_cons] at h; omega)
    rw [words, groupOctets, List.flatMap_cons, halves_word]
    exact congrArg (hi :: lo :: ·) hrest
  | case2 o hshort =>
    match o, h, hshort with
    | [], _, _ => rfl
    | [_], h, _ => cases h
    | hi :: lo :: rest, _, hshort => exact absurd rfl (hshort hi lo rest)

/-! ## Entries -/

theorem ofOctets?_of_ne {o : Bytes} (h : o.length ≠ 4) :
    ofOctets? o = if o.length = 16 then (groups? (words o)).map v6 else none := by
  match o, h with
  | [], _ | [_], _ | [_, _], _ | [_, _, _], _ => rfl
  | [_, _, _, _], h => exact absurd rfl h
  | _ :: _ :: _ :: _ :: _ :: _, _ => rfl

theorem ofOctets?_isSome_iff {o : Bytes} :
    (ofOctets? o).isSome = true ↔ o.length = 4 ∨ o.length = 16 := by
  by_cases hfour : o.length = 4
  · obtain ⟨a, b, c, d, rfl⟩ : ∃ a b c d, o = [a, b, c, d] := by
      match o, hfour with
      | [a, b, c, d], _ => exact ⟨a, b, c, d, rfl⟩
    simp [ofOctets?]
  · rw [ofOctets?_of_ne hfour]
    by_cases hsixteen : o.length = 16
    · have hlength : (words o).toArray.size = 8 := by simp [length_words, hsixteen]
      simp [hsixteen, groups?, hlength]
    · simp [hfour, hsixteen]

/-- The octets of the address of an entry are those of the entry. -/
theorem octets_of_ofOctets? {o : Bytes} {a : IpAddress} (h : ofOctets? o = some a) :
    a.octets = o := by
  by_cases hfour : o.length = 4
  · match o, hfour with
    | [b, c, d, e], _ =>
      obtain rfl := Option.some.inj h
      rfl
  · rw [ofOctets?_of_ne hfour] at h
    by_cases hsixteen : o.length = 16
    · rw [if_pos hsixteen, Option.map_eq_some_iff] at h
      obtain ⟨gs, hgs, rfl⟩ := h
      rw [octets, groups?_eq_some_iff.1 hgs, groupOctets_words (by rw [hsixteen])]
    · rw [if_neg hsixteen] at h
      cases h

/-! ## Hosts -/

theorem unbracketed_render (a : IpAddress) : Unbracketed a.render a.render := by
  refine .inr ⟨rfl, fun inner h => ?_⟩
  have hparse := parse?_render a
  rw [h, String.append_assoc, parse?_bracketed] at hparse
  cases hparse

/-- A host that is the text of an address but for brackets is covered by that address alone. -/
theorem verifyHostname_render {host : String} {a : IpAddress} (h : Unbracketed host a.render)
    (dnsNames : List String) {addresses : List IpAddress} (hne : addresses ≠ [])
    (commonName : Option String) :
    verifyHostname host dnsNames addresses commonName = decide (a ∈ addresses) := by
  rw [Bool.eq_iff_iff, decide_eq_true_iff]
  exact verifyHostname_address h (parse?_render a) hne

theorem isNumericHost_render {host : String} {a : IpAddress} (h : Unbracketed host a.render) :
    isNumericHost host = true := isNumericHost_of_address h (parse?_render a)

/-- Entries of four and of sixteen octets have an address, and no others. Its text, in brackets or
not, is an address literal that is covered exactly by the lists of addresses with that address in
them; and entries of one kind that differ have addresses with different texts. -/
theorem entry_verifies (o : Bytes) :
    ((ofOctets? o).isSome = true ↔ o.length = 4 ∨ o.length = 16) ∧
    ∀ a, ofOctets? o = some a →
      isNumericHost a.render = true ∧ isNumericHost ("[" ++ a.render ++ "]") = true ∧
      (∀ dnsNames addresses commonName, addresses ≠ [] →
        verifyHostname a.render dnsNames addresses commonName = decide (a ∈ addresses) ∧
        verifyHostname ("[" ++ a.render ++ "]") dnsNames addresses commonName =
          decide (a ∈ addresses)) ∧
      ∀ o' a', o'.length = o.length → ofOctets? o' = some a' → o' ≠ o → a'.render ≠ a.render := by
  refine ⟨ofOctets?_isSome_iff, fun a ha => ?_⟩
  have hplain := unbracketed_render a
  have hbrackets : Unbracketed ("[" ++ a.render ++ "]") a.render := .inl rfl
  refine ⟨isNumericHost_render hplain, isNumericHost_render hbrackets,
    fun dnsNames addresses commonName hne => ⟨verifyHostname_render hplain dnsNames hne commonName,
      verifyHostname_render hbrackets dnsNames hne commonName⟩, fun o' a' _ ha' hne htext => hne ?_⟩
  rw [← octets_of_ofOctets? ha', ← octets_of_ofOctets? ha, render_inj htext]

/-- An address with two runs of zeros, of which the longer one is left out. -/
theorem two_gaps_verify :
    ofOctets? [0x20, 1, 0, 0, 0, 0, 0, 1, 0, 0, 0, 0, 0, 0, 0, 1] =
      some (.v6 #v[0x2001, 0, 0, 1, 0, 0, 0, 1]) ∧
    verifyHostname "[2001:0:0:1::1]" ["example.com"] [.v6 #v[0x2001, 0, 0, 1, 0, 0, 0, 1]] none =
      true := by
  have hentry : ofOctets? [0x20, 1, 0, 0, 0, 0, 0, 1, 0, 0, 0, 0, 0, 0, 0, 1] =
      some (.v6 #v[0x2001, 0, 0, 1, 0, 0, 0, 1]) := by decide
  have htext : (v6 #v[0x2001, 0, 0, 1, 0, 0, 0, 1]).render = "2001:0:0:1::1" := by decide
  obtain ⟨-, hverifies⟩ := entry_verifies [0x20, 1, 0, 0, 0, 0, 0, 1, 0, 0, 0, 0, 0, 0, 0, 1]
  obtain ⟨-, -, hcovers, -⟩ := hverifies _ hentry
  obtain ⟨-, hbrackets⟩ := hcovers ["example.com"] [.v6 #v[0x2001, 0, 0, 1, 0, 0, 0, 1]] none (by simp)
  rw [htext] at hbrackets
  exact ⟨hentry, hbrackets.trans (by simp)⟩

end IpAddress
end TlsTransport
