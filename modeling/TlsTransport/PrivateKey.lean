import TlsTransport.Curve
import TlsTransport.X509.Basic

/-! # Private keys

The three forms in which private keys are written, and the public keys that belong to them.

* `PrivateKey.ofPkcs8?`, `PrivateKey.ofRsa?`, `PrivateKey.ofEc?`: the forms.
* `PrivateKey.publicInfo?`: the public key as it stands in certificates.
-/

namespace TlsTransport

open Asn1

/-! ## Algorithms -/

namespace Algorithm

def rsaId : Bytes := [0x2a, 0x86, 0x48, 0x86, 0xf7, 0x0d, 0x01, 0x01, 0x01]
def ecId : Bytes := [0x2a, 0x86, 0x48, 0xce, 0x3d, 0x02, 0x01]
def ed25519Id : Bytes := [0x2b, 0x65, 0x70]
def p256Id : Bytes := [0x2a, 0x86, 0x48, 0xce, 0x3d, 0x03, 0x01, 0x07]
def p384Id : Bytes := [0x2b, 0x81, 0x04, 0x00, 0x22]

/-- The algorithm of RSA keys. -/
def rsa : Algorithm := ⟨rsaId, write nullTag []⟩

/-- The algorithm of keys on a curve with a name. -/
def ec (curve : Bytes) : Algorithm := ⟨ecId, write identifierTag curve⟩

/-- The algorithm of Ed25519 keys. -/
def ed25519 : Algorithm := ⟨ed25519Id, []⟩

/-- The name of the curve in an algorithm. -/
def curveId? (a : Algorithm) : Option Bytes :=
  if a.id = ecId then Parser.parse? .relaxed a.parameters Parser.identifier else none

/-- An algorithm as it is written. -/
def encode (a : Algorithm) : Bytes := write sequenceTag (write identifierTag a.id ++ a.parameters)

end Algorithm

/-- A public key as it stands in certificates. -/
def PublicKeyInfo.ofKey (a : Algorithm) (key : Bytes) : PublicKeyInfo :=
  ⟨a, key, writeSequence [a.encode, write bitStringTag (0 :: key)]⟩

/-- The curve of a name. -/
def Curve.ofId? (id : Bytes) : Option Curve :=
  if id = Algorithm.p256Id then some .p256
  else if id = Algorithm.p384Id then some .p384
  else none

/-! ## Private keys -/

/-- A private key. -/
inductive PrivateKey where
  | rsa (modulus exponent secret factor cofactor : Nat)
  /-- On a curve: its name, the scalar and, if it is stated, the public point. -/
  | ec (curve : Bytes) (scalar : Bytes) (point : Option Bytes)
  | ed25519 (seed : Bytes)
  deriving DecidableEq, Repr

namespace PrivateKey

/-- The fields of an RSA key. -/
def rsaParser : Parser PrivateKey :=
  Parser.sequence do
    let version ← Parser.natural
    if version ≠ 0 then throw .badValue
    let modulus ← Parser.natural
    let exponent ← Parser.natural
    let secret ← Parser.natural
    let factor ← Parser.natural
    let cofactor ← Parser.natural
    let _ ← Parser.natural
    let _ ← Parser.natural
    let _ ← Parser.natural
    return .rsa modulus exponent secret factor cofactor

/-- The fields of a key on a curve, whose name may be stated outside. -/
def ecParser (curve : Option Bytes) : Parser PrivateKey :=
  Parser.sequence do
    let version ← Parser.natural
    if version ≠ 1 then throw .badValue
    let scalar ← Parser.octetString
    let stated ← Parser.explicit? 0 Parser.identifier
    let point ← Parser.explicit? 1 Parser.bitString
    match curve <|> stated with
    | some id => return .ec id scalar point
    | none => throw .badValue

/-- The fields of a key with its algorithm. -/
def pkcs8Parser : Parser (Algorithm × Bytes) :=
  Parser.sequence do
    let version ← Parser.natural
    if 1 < version then throw .badValue
    let a ← X509.algorithm
    let key ← Parser.octetString
    let _ ← Parser.optional (fieldTag 0)
    let _ ← Parser.optional (contextTag 1)
    return (a, key)

/-- Reads an RSA key. -/
def ofRsa? (rules : Rules) (der : Bytes) : Option PrivateKey := Parser.parse? rules der rsaParser

/-- Reads a key on a curve that states its name. -/
def ofEc? (rules : Rules) (der : Bytes) : Option PrivateKey :=
  Parser.parse? rules der (ecParser none)

/-- Reads a key with its algorithm. -/
def ofPkcs8? (rules : Rules) (der : Bytes) : Option PrivateKey := do
  let (a, key) ← Parser.parse? rules der pkcs8Parser
  if a.id = Algorithm.rsaId then ofRsa? rules key
  else if a.id = Algorithm.ecId then
    Parser.parse? rules key (ecParser (some (← a.curveId?)))
  else if a.id = Algorithm.ed25519Id then
    let seed ← Parser.parse? rules key Parser.octetString
    if seed.length = 32 then some (.ed25519 seed) else none
  else none

/-! ## Public keys -/

/-- A whole number as a field. -/
def writeNatural (n : Nat) : Bytes :=
  let digits := (Bytes.ofNat (n.log2 / 8 + 2) n).dropWhile (· == 0)
  write integerTag (if digits.head?.any (· < 0x80) then digits else 0 :: digits)

/-- The point of a scalar on a curve of a name. -/
def point? (curve scalar : Bytes) : Option Bytes :=
  (Curve.ofId? curve).bind fun c => c.publicPoint? (Bytes.toNat scalar)

/-- The public key, as it is stated or else as it follows. -/
def publicInfo? : PrivateKey → Option PublicKeyInfo
  | rsa n e _ _ _ => some (.ofKey .rsa (writeSequence [writeNatural n, writeNatural e]))
  | ec curve scalar point =>
    (point <|> point? curve scalar).map fun p => .ofKey (.ec curve) p
  | ed25519 seed => some (.ofKey .ed25519 (Edwards.publicKey seed))

end PrivateKey

/-- The modulus of an RSA key in a certificate. -/
def PublicKeyInfo.modulus? (k : PublicKeyInfo) : Option Nat :=
  if k.algorithm.id = Algorithm.rsaId then
    Parser.parse? .relaxed k.key <| Parser.sequence do
      let n ← Parser.natural
      let _ ← Parser.natural
      return n
  else none

end TlsTransport
