import TlsTransport.Proofs.Session.Gate
import TlsTransport.Proofs.Session.History

/-! # The name that a peer is checked against

A client starts its engine with a name and looks for its host in the identity of its peer. The two
need not be the same: the name to send in place of the host also goes to an engine that checks names
itself, and then it is what such an engine checks.

* `Session.startNames`: the names with which a session started its engine.
* `Started`: a live session started its engine once, with the name that it requests.
* `Session.checkedName`: the name that the certificate of the peer was checked against.
* `Session.checked_against`: how that name and the host of the caller relate when a client connects.
-/

namespace TlsTransport

variable {σ ω ε : Type}

/-- The name with which an engine was started. -/
def EngineCall.startName : EngineCall ε → List (Option String)
  | start name _ => [name]
  | _ => []

theorem Event.no_startName {state : SessionState} {e : Event ε} (he : e.fits state = true)
    (hs : state ≠ .initialized) : Event.ofEngine EngineCall.startName e = [] := by
  rcases e with call | _ | _
  · cases call with
    | start name answer =>
      have hstate : state = .initialized := by simpa [Event.fits] using he
      exact absurd hstate hs
    | _ => rfl
  · rfl
  · rfl

namespace Session

/-! ## Starting -/

/-- The names with which the engine was started. -/
def startNames (s : Session σ ω ε) : List (Option String) :=
  gather (Event.ofEngine EngineCall.startName) s.journal

theorem startNames_of_adds {state : SessionState} {s t : Session σ ω ε} (h : Adds state s t)
    (hs : state ≠ .initialized) : t.startNames = s.startNames := by
  obtain ⟨newer, hj, hfits⟩ := h
  have hnone : gather (Event.ofEngine EngineCall.startName) newer = [] := by
    rw [gather, List.flatMap_eq_nil_iff]
    intro e he
    exact Event.no_startName (hfits e (List.mem_reverse.1 he)) hs
  rw [startNames, startNames, hj, gather_append, hnone, List.append_nil]

theorem requestedName_of_steady {s t : Session σ ω ε} (h : Steady s t) :
    t.requestedName = s.requestedName := by
  rw [requestedName, requestedName, h.side, h.serverName, h.hostname]

variable [Engine σ ε] [Socket ω]

/-- The first step starts the engine, with the name that is requested. -/
theorem step_startNames {s : Session σ ω ε} (h : s.state = .initialized) :
    s.step.2.startNames = s.startNames ++ [s.requestedName] := by
  have hstart : s.startEngine.2.startNames = s.startNames ++ [s.requestedName] := gather_cons ..
  have hlater : ∀ {t : Session σ ω ε}, Adds .handshakeRead s.startEngine.2 t →
      t.startNames = s.startNames ++ [s.requestedName] := by
    intro t ht
    rw [startNames_of_adds ht (by simp), hstart]
  generalize hr : s.step = r
  have hcase := s.step_case
  rw [hr] at hcase
  cases hcase with
  | startFailed e => exact hlater (.silent (.fail _ _))
  | started =>
    have hready : Adds .handshakeRead s.startEngine.2
      { s.startEngine.2 with handshakeComplete := false } := .of_eq rfl
    exact hlater (hready.trans (.processHandshake _ (.inr rfl)))
  | sent hs | sendBlocked hs | sendFailed _ hs | ended hs | arrived _ hs | waits _ hs
  | receiveFailed _ hs | finish hs | agreed _ hs => rw [h] at hs; cases hs
  | refused _ _ hi => exact absurd h hi

end Session

/-! ## Turns -/

section Turning

variable [Engine σ ε] [Socket ω] {c : Call ω} {s t : Session σ ω ε}

open Session

/-- Once the handshake was begun, the name that is requested stays. -/
theorem Turn.requestedName (h : Turn c s t) (hs : s.state ≠ .initialized) :
    t.requestedName = s.requestedName := by
  cases h with
  | bind k =>
    have hbound := requestedName_of_steady (.setState { s with socket := some k } .initialized)
    exact hbound
  | nameServer _ h | nameHost _ _ h => exact absurd h hs
  | step => exact requestedName_of_steady (.step s)
  | reopen => rw [reopen_eq]; rfl
  | overrun =>
    have hfailed := requestedName_of_steady
      (.fail { s.decryptOnce.2 with renegotiations := s.renegotiations + 1 } .renegotiations)
    exact hfailed
  | resume => exact requestedName_of_steady (.processHandshake s)
  | fill => exact requestedName_of_steady (.fillRaw s _)
  | withdraw => exact requestedName_of_steady (.setState s _)
  | flush => exact requestedName_of_steady (.flushPending s)
  | fail f => exact requestedName_of_steady (.fail s f)
  | _ => rfl

/-- A turn of a session that is only bound is its first step, or the engine is not started. -/
theorem Turn.starts (h : Turn c s t) (hs : s.state = .initialized) :
    t = s.step.2 ∨ t.state.live = false ∧ t.startNames = s.startNames := by
  have hquiet : ∀ {u : Session σ ω ε}, Adds .handshakeRead s u → u.startNames = s.startNames :=
    fun hu => startNames_of_adds hu (by simp)
  have hidle : s.state.live = false := by rw [hs]; rfl
  cases h with
  | step => exact .inl rfl
  | nameServer | nameHost | outside => exact .inr ⟨hidle, rfl⟩
  | remark n => exact .inr ⟨hidle, hquiet (.silent (.note s n))⟩
  | flush => exact .inr ⟨by rwa [state_flushPending], hquiet (.flushPending s)⟩
  | fail f =>
    refine .inr ⟨?_, hquiet (.silent (.fail s f))⟩
    rw [fail_error f (by rw [hs]; simp)]
    rfl
  | bind _ h | decrypt h | reopen h | overrun h | resume h | fill h | sawEnd h | sawClose h
  | encrypt _ h | track _ h | release h | notify _ h => rw [hs] at h; cases h
  | withdraw _ h => rcases h with h | h <;> rw [hs] at h <;> cases h

end Turning

/-- The engine is not started before the handshake, and while the session is live it was started
once, with the name that is requested. -/
structure Started (s : Session σ ω ε) : Prop where
  unbegun : s.state.begun = false → s.startNames = []
  live : s.state.live = true → s.startNames = [s.requestedName]

namespace Started

open Session

variable [Engine σ ε] [Socket ω] {c : Call ω} {s t : Session σ ω ε}

theorem turn (h : Started s) (ht : Turn c s t) : Started t := by
  by_cases hs : s.state = .initialized
  · have hnone := h.unbegun (by rw [hs]; rfl)
    rcases ht.starts hs with rfl | ⟨hidle, hsame⟩
    · refine ⟨fun hb => ?_, fun _ => ?_⟩
      · rw [step_begun] at hb
        cases hb
      · rw [step_startNames hs, hnone, requestedName_of_steady (.step s)]
        rfl
    · refine ⟨fun _ => hsame.trans hnone, fun hl => ?_⟩
      rw [hidle] at hl
      cases hl
  · have hsame := startNames_of_adds ht.adds hs
    refine ⟨fun hb => ?_, fun hl => ?_⟩
    · refine hsame.trans (h.unbegun ?_)
      cases hbegun : s.state.begun with
      | false => rfl
      | true => rwa [ht.begun hbegun] at hb
    · obtain ⟨-, hlive | ⟨hinit, -⟩⟩ := ht.live hl
      · rw [hsame, ht.requestedName hs]
        exact h.live hlive
      · exact absurd hinit hs

theorem turns (h : Started s) (ht : Turns c s t) : Started t := by
  induction ht with
  | refl => exact h
  | tail _ hlast ih => exact ih.turn hlast

theorem perform (h : Started s) (c : Call ω) : Started (s.perform c).2 := by
  obtain ⟨t, ht, hout⟩ := s.perform_turns c
  have hend := h.turns ht
  rw [hout.frame]
  exact ⟨hend.unbegun, hend.live⟩

theorem run (h : Started s) (calls : List (Call ω)) : Started (s.run calls).2 := by
  induction calls generalizing s with
  | nil => exact h
  | cons c calls ih => exact ih (h.perform c)

end Started

namespace Session

variable [Engine σ ε]

/-! ## What is checked -/

/-- The name that the certificate of the peer is checked against. An engine that checks names itself
has only the one with which it was started; for any other one the session looks for its host. -/
def checkedName (s : Session σ ω ε) : Option String :=
  if Engine.verifiesHostname σ then s.startNames.getLast?.join else s.hostname

variable [Socket ω]

/-- When a client that verifies its peer connects, there is one host that counts, and an engine that
leaves names to the session showed an identity for it. The engine was started once, with the name
set in place of the host if there is one. So the name that was checked is the host exactly if the
session checks it, or if no other name was set. -/
theorem checked_against (engine : σ) (policy : CipherPolicy) (calls : List (Call ω)) (c : Call ω)
    {x y : Session σ ω ε} (hx : Turns c ((ofEngine engine .client true policy).run calls).2 x)
    (hy : Turn c x y) (hbefore : x.state ≠ .connected) (hafter : y.state = .connected) :
    ∃ host, LeftBy (ofEngine engine .client true policy : Session σ ω ε) (calls ++ [c]) host ∧
      (∀ other, LeftBy (ofEngine engine .client true policy : Session σ ω ε) (calls ++ [c]) other →
        other = host) ∧
      (Engine.verifiesHostname σ = false → ∃ identity,
        Engine.peerIdentity y.engine = some identity ∧ identity.covers host = true) ∧
      y.startNames = [some (y.serverName.getD host)] ∧
      (y.checkedName = some host ↔
        Engine.verifiesHostname σ = false ∨ y.serverName = none ∨ y.serverName = some host) := by
  have hterms := (run_terms (ofEngine engine .client true policy) calls).trans hx.terms
  have hnaming := (Named.run engine .client true policy calls).turns hx
  have hfresh : Started (ofEngine engine .client true policy : Session σ ω ε) :=
    ⟨fun _ => rfl, fun hl => by cases hl⟩
  have hstarted := ((hfresh.run calls).turns hx).turn hy
  rcases hy.entries with ⟨-, hstays⟩ | ⟨hdone, hcleared, v, -, rfl⟩
  · exact absurd (hstays hafter) hbefore
  have hclient : x.side = .client := hterms.side
  obtain ⟨host, hname, hleft⟩ := hnaming.named hclient (by rw [hdone]; rfl)
  have hsteady := Steady.connectedAs x v
  have hhost : (x.connectedAs v).hostname = some host := hsteady.hostname.trans hname
  have hnames : (x.connectedAs v).startNames = [some ((x.connectedAs v).serverName.getD host)] := by
    rw [hstarted.live (by rw [hafter]; rfl), requestedName, hsteady.side, hclient, hhost]
    cases (x.connectedAs v).serverName <;> rfl
  refine ⟨host, hleft, fun other => hleft.unique, fun hleaves => ?_, hnames, ?_⟩
  · obtain ⟨identity, hpeer, hcovers⟩ := hcleared.identity hclient hterms.verifyPeer hleaves
    obtain ⟨remarks, -, hframe⟩ := x.connectedAs_frame v
    refine ⟨identity, ?_, by rwa [hname] at hcovers⟩
    rw [hframe]
    exact hpeer
  · unfold checkedName
    rw [hnames, hhost]
    cases hverifies : Engine.verifiesHostname σ with
    | false => simp
    | true => cases hset : (x.connectedAs v).serverName <;> simp

/-- A client with an engine that checks names itself, where another name was set in place of the
host `localhost`. -/
def renamedClient : Session (ScriptedEngine true) ScriptedSocket String :=
  { ((ofEngine ⟨promptScript⟩ .client true .default).run
      [.init (.ofScript [] [] []), .setServerName "cdn.example.net"]).2 with
    hostname := some "localhost" }

/-- The handshake of that client connects it, and its engine was started with the other name. -/
theorem renamedClient_checked : ∃ host,
    LeftBy (ofEngine ⟨promptScript⟩ .client true .default :
      Session (ScriptedEngine true) ScriptedSocket String)
      [.init (.ofScript [] [] []), .setServerName "cdn.example.net", .connect "localhost"] host ∧
    renamedClient.step.2.step.2.startNames = [some "cdn.example.net"] ∧
    (renamedClient.step.2.step.2.checkedName = some host ↔ host = "cdn.example.net") := by
  have hx : Turns (.connect "localhost") ((ofEngine ⟨promptScript⟩ .client true .default :
      Session (ScriptedEngine true) ScriptedSocket String).run
        [.init (.ofScript [] [] []), .setServerName "cdn.example.net"]).2 renamedClient.step.2 :=
    .head (.nameHost "localhost" rfl rfl rfl) (.single (.step (.inr ⟨rfl, by simp⟩)))
  obtain ⟨host, hleft, -, -, hnames, hchecked⟩ :=
    checked_against _ _ _ _ hx (.step (.inl rfl)) (by decide) (by decide)
  have hset : renamedClient.step.2.step.2.serverName = some "cdn.example.net" := by decide
  refine ⟨host, hleft, by rw [hnames, hset]; rfl, hchecked.trans ?_⟩
  rw [hset]
  simp [Engine.verifiesHostname, eq_comm]

/-- That client connects with a certificate that was checked against another name than its host. -/
theorem renamedClient_host_unchecked :
    let fresh : Session (ScriptedEngine true) ScriptedSocket String :=
      ofEngine ⟨promptScript⟩ .client true .default
    let calls := [.init (.ofScript [] [] []), .setServerName "cdn.example.net"]
    let s := (fresh.run (calls ++ [.connect "localhost"])).2
    s.state = .connected ∧ LeftBy fresh (calls ++ [.connect "localhost"]) "localhost" ∧
      s.checkedName = some "cdn.example.net" := by
  intro fresh calls s
  refine ⟨by decide +kernel, ⟨calls, [], rfl, by decide +kernel, by decide +kernel⟩,
    by decide +kernel⟩

end Session
end TlsTransport
