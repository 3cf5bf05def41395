import TlsTransport.Proofs.Hostname.Verification
import TlsTransport.Proofs.Session.Gate

/-! # Clients without a host

A client whose caller names the empty host, or none, checks its peer against the empty name. A
certificate covers that name with a DNS name that is empty, but for a dot, and with nothing else.

* `PeerIdentity.namesNothing`: whether there is such a DNS name.
* `Session.identityFault?_eq_none_of_empty`: when the check passes.
* `Session.empty_host_checked`: which certificates connect such a client.
-/

namespace TlsTransport

variable {σ ω ε : Type}

/-- Whether a DNS name is empty or a lone dot. -/
def PeerIdentity.namesNothing (p : PeerIdentity) : Bool :=
  p.dnsNames.contains "" || p.dnsNames.contains "."

theorem PeerIdentity.covers_empty (p : PeerIdentity) : p.covers "" = p.namesNothing := by
  rw [Bool.eq_iff_iff, covers, verifyHostname_empty]
  simp [namesNothing]

namespace Session

variable [Engine σ ε]

/-- A client that has to check the empty name finds no fault in a certificate with a name that is
empty, and in no other. -/
theorem identityFault?_eq_none_of_empty {s : Session σ ω ε} (hside : s.side = .client)
    (hverify : s.verifyPeer = true) (hleaves : Engine.verifiesHostname σ = false)
    (hhost : s.hostname.getD "" = "") :
    s.identityFault? = none ↔
      ∃ identity, Engine.peerIdentity s.engine = some identity ∧ identity.namesNothing = true := by
  rw [identityFault?_eq_none_iff, hhost]
  simp only [hside, hverify, hleaves, PeerIdentity.covers_empty, true_implies]

variable [Socket ω]

/-- Which certificates cover the empty host, and what that means for clients whose engine leaves the
check to them: a finished handshake without a host fails unless an empty name is presented, and a
client that was given the empty host connects only to a peer that presents one. -/
theorem empty_host_checked :
    (∀ dnsNames addresses commonName, verifyHostname "" dnsNames addresses commonName = true ↔
      "" ∈ dnsNames ∨ "." ∈ dnsNames) ∧
    (Engine.verifiesHostname σ = false →
      (∀ s : Session σ ω ε, s.side = .client → s.verifyPeer = true → s.hostname.getD "" = "" →
        (∀ identity, Engine.peerIdentity s.engine = some identity →
          identity.namesNothing = false) →
        ∃ fault, s.finishHandshake = s.failStep (.identity fault)) ∧
      ∀ (engine : σ) (policy : CipherPolicy) (calls : List (Call ω)) (c : Call ω)
        (x y : Session σ ω ε),
        Turns c ((ofEngine engine .client true policy).run calls).2 x → Turn c x y →
        x.state ≠ .connected → y.state = .connected →
        LeftBy (ofEngine engine .client true policy : Session σ ω ε) (calls ++ [c]) "" →
        ∃ identity, Engine.peerIdentity y.engine = some identity ∧
          identity.namesNothing = true) := by
  refine ⟨fun _ _ _ => verifyHostname_empty, fun hleaves => ⟨fun s hside hverify hhost hnone => ?_,
    fun engine policy calls c x y hx hy hbefore hafter hleft => ?_⟩⟩
  · cases hfault : s.identityFault? with
    | none =>
      obtain ⟨identity, hpeer, hnames⟩ :=
        (identityFault?_eq_none_of_empty hside hverify hleaves hhost).1 hfault
      rw [hnone identity hpeer] at hnames
      cases hnames
    | some fault => exact ⟨fault, by simp only [finishHandshake, hfault]⟩
  · have hterms := (run_terms (ofEngine engine .client true policy) calls).trans hx.terms
    have hnaming := (Named.run engine .client true policy calls).turns hx
    rcases hy.entries with ⟨-, hstays⟩ | ⟨hdone, hcleared, v, -, rfl⟩
    · exact absurd (hstays hafter) hbefore
    have hclient : x.side = .client := hterms.side
    obtain ⟨host, hname, hnamed⟩ := hnaming.named hclient (by rw [hdone]; rfl)
    obtain rfl : "" = host := hnamed.unique hleft
    have hnofault := (x.identityFault?_eq_none_iff).2 hcleared.identity
    obtain ⟨identity, hpeer, hnames⟩ :=
      (identityFault?_eq_none_of_empty hclient hterms.verifyPeer hleaves (by rw [hname]; rfl)).1
        hnofault
    obtain ⟨remarks, -, hframe⟩ := x.connectedAs_frame v
    refine ⟨identity, ?_, hnames⟩
    rw [hframe]
    exact hpeer

/-- A peer whose certificate has one DNS name, a lone dot. -/
def dottedScript : EngineScript := { promptScript with identity := some ⟨["."], [], none⟩ }

/-- A client that was given the empty host. -/
def hostlessClient : Session (ScriptedEngine false) ScriptedSocket String :=
  { ((ofEngine ⟨dottedScript⟩ .client true .default).run [.init (.ofScript [] [] [])]).2 with
    hostname := some "" }

/-- That client connects to that peer, by the name. -/
theorem hostlessClient_connects : hostlessClient.step.2.step.2.state = .connected ∧
    ∃ identity, Engine.peerIdentity hostlessClient.step.2.step.2.engine = some identity ∧
      identity.namesNothing = true := by
  have hx : Turns (.connect "") ((ofEngine ⟨dottedScript⟩ .client true .default :
      Session (ScriptedEngine false) ScriptedSocket String).run [.init (.ofScript [] [] [])]).2
      hostlessClient.step.2 :=
    .head (.nameHost "" rfl rfl rfl) (.single (.step (.inr ⟨rfl, by simp⟩)))
  have hconnected : hostlessClient.step.2.step.2.state = .connected := by decide
  refine ⟨hconnected, (empty_host_checked.2 rfl).2 _ _ _ _ _ _ hx (.step (.inl rfl)) (by decide)
    hconnected ?_⟩
  exact ⟨[.init (.ofScript [] [] [])], [], rfl, by decide, by decide +kernel⟩

/-- The empty host is covered by an empty DNS name, though not by an empty common name. -/
theorem empty_name_covers :
    verifyHostname "" [""] [] none = true ∧ verifyHostname "" [] [] (some "") = false := by
  decide

end Session
end TlsTransport
