import TlsTransport.Bytes
import TlsTransport.Version

/-! # Flights

A handshake is an exchange of flights: each side says in one go all that it can say before it hears
from the other. A client greets, the server chooses and presents itself, the client finishes. In the
older versions the server confirms; in the newest it hands out a ticket for a later connection.

* `Flight.encode`, `Flight.split?`: flights as bytes.
-/

namespace TlsTransport

/-- One flight of a handshake. Versions and suites are told by their numbers. -/
inductive Flight where
  | hello (versions suites : List Nat)
  /-- The server's choice, whether it asks for a certificate, and its own chain. -/
  | choice (version suite : Nat) (asks : Bool) (chain : List Bytes)
  /-- The chain of the client, empty when it has none. -/
  | finish (chain : List Bytes)
  | confirmation
  | ticket
  deriving DecidableEq, Repr

/-- The number of a version. -/
def TlsVersion.number (v : TlsVersion) : Nat := 0x0300 + v.rank

/-- The version of a number. -/
def TlsVersion.ofNumber? (n : Nat) : Option TlsVersion := TlsVersion.all.find? fun v => v.number = n

namespace Flight

/-! ## Writing -/

/-- A byte string behind its length. -/
def block (width : Nat) (bytes : Bytes) : Bytes := Bytes.ofNat width bytes.length ++ bytes

/-- A list of numbers. -/
def numbers (ns : List Nat) : Bytes := block 2 (ns.flatMap (Bytes.ofNat 2))

/-- A chain of certificates. -/
def certificates (chain : List Bytes) : Bytes := block 3 (chain.flatMap (block 3))

/-- Room for the values that decide nothing here: nonces, key shares and signatures. -/
def filler (n : Nat) : Bytes := List.replicate n 0

/-- The number of a kind of flight. -/
def kind : Flight → UInt8
  | hello .. => 1
  | choice .. => 2
  | finish _ => 20
  | confirmation => 14
  | ticket => 4

/-- What a flight says. -/
def content : Flight → Bytes
  | hello versions suites => numbers versions ++ numbers suites ++ filler 180
  | choice version suite asks chain =>
    numbers [version, suite, if asks then 1 else 0] ++ certificates chain ++ filler 200
  | finish chain => certificates chain ++ filler 48
  | confirmation => filler 12
  | ticket => filler 158

/-- A flight as it is sent. -/
def encode (f : Flight) : Bytes := f.kind :: block 3 f.content

/-! ## Reading -/

/-- A byte string behind its length, and what follows. -/
def readBlock? (width : Nat) (bytes : Bytes) : Option (Bytes × Bytes) :=
  let n := Bytes.toNat (bytes.take width)
  let rest := bytes.drop width
  if bytes.length < width ∨ rest.length < n then none else some (rest.take n, rest.drop n)

/-- Numbers of two bytes each. -/
def readPairs? : Bytes → Option (List Nat)
  | [] => some []
  | a :: b :: rest => (readPairs? rest).map (Bytes.toNat [a, b] :: ·)
  | _ => none

/-- A list of numbers, and what follows. -/
def readNumbers? (bytes : Bytes) : Option (List Nat × Bytes) := do
  let (body, rest) ← readBlock? 2 bytes
  return (← readPairs? body, rest)

theorem length_readBlock? {width : Nat} {bytes body rest : Bytes} (hw : 0 < width)
    (h : readBlock? width bytes = some (body, rest)) : rest.length < bytes.length := by
  simp only [readBlock?, Option.ite_none_left_eq_some, Option.some.injEq, Prod.mk.injEq,
    List.length_drop, not_or, Nat.not_lt] at h
  rw [← h.2.2]
  simp only [List.length_drop]
  omega

/-- The certificates of a chain. -/
def readCertificates? (bytes : Bytes) : Option (List Bytes) :=
  if bytes.isEmpty then some []
  else
    match _h : readBlock? 3 bytes with
    | none => none
    | some (c, rest) => (readCertificates? rest).map (c :: ·)
termination_by bytes.length
decreasing_by exact length_readBlock? (Nat.succ_pos 2) ‹_›

/-- A chain, and what follows. -/
def readChain? (bytes : Bytes) : Option (List Bytes) := do
  let (body, _) ← readBlock? 3 bytes
  readCertificates? body

/-- A flight of a kind. -/
def decode? (kind : UInt8) (content : Bytes) : Option Flight :=
  if kind = 1 then do
    let (versions, rest) ← readNumbers? content
    let (suites, _) ← readNumbers? rest
    return hello versions suites
  else if kind = 2 then do
    match ← readNumbers? content with
    | ([version, suite, asks], rest) => return choice version suite (asks = 1) (← readChain? rest)
    | _ => none
  else if kind = 20 then (readChain? content).map finish
  else if kind = 14 then some confirmation
  else if kind = 4 then some ticket
  else none

/-- The first flight of a byte string and what follows it; `none` while it is not all there. -/
def split? (bytes : Bytes) : Option (Option Flight × Bytes) :=
  match bytes with
  | [] => none
  | kind :: rest => (readBlock? 3 rest).map fun (content, rest) => (decode? kind content, rest)

theorem length_split? {bytes rest : Bytes} {f : Option Flight}
    (h : split? bytes = some (f, rest)) : rest.length < bytes.length := by
  unfold split? at h
  split at h
  · simp at h
  · obtain ⟨⟨content, r⟩, hr, he⟩ := Option.map_eq_some_iff.mp h
    simp only [Prod.mk.injEq] at he
    have := length_readBlock? (Nat.succ_pos 2) hr
    simp only [List.length_cons, ← he.2]
    omega

end Flight
end TlsTransport
