import TlsTransport.Digest.Sha512

/-! # Elliptic curves

The curves of the keys: two in short Weierstrass form, whose points are kept in Jacobian coordinates
so that only their final form needs a division, and the twisted Edwards curve of Ed25519.

* `Curve.publicPoint?`: the point that belongs to a private scalar.
* `Curve.verify`: whether a signature of a digest belongs to a public point.
* `Edwards.publicKey`: the public key that belongs to a seed.
-/

namespace TlsTransport

/-! ## Arithmetic modulo a number -/

/-- A power modulo a number. -/
def powMod (m base exponent : Nat) : Nat :=
  if exponent = 0 then 1 % m
  else
    let half := powMod m (base * base % m) (exponent / 2)
    if exponent % 2 = 1 then base * half % m else half
termination_by exponent
decreasing_by omega

/-- The inverse of a number modulo a prime. -/
def inverseMod (p a : Nat) : Nat := powMod p a (p - 2)

/-- A difference modulo a number; both terms are below it. -/
def subMod (m a b : Nat) : Nat := (a + (m - b)) % m

/-! ## Short Weierstrass form -/

/-- A curve over a prime field whose linear coefficient is minus three. -/
structure Curve where
  /-- Order of the field. -/
  prime : Nat
  constant : Nat
  /-- Order of the generator. -/
  order : Nat
  generatorX : Nat
  generatorY : Nat
  /-- Bytes of a coordinate. -/
  width : Nat

namespace Curve

/-- The curve with a prime field of 256 bits. -/
def p256 : Curve where
  prime := 0xffffffff00000001000000000000000000000000ffffffffffffffffffffffff
  constant := 0x5ac635d8aa3a93e7b3ebbd55769886bc651d06b0cc53b0f63bce3c3e27d2604b
  order := 0xffffffff00000000ffffffffffffffffbce6faada7179e84f3b9cac2fc632551
  generatorX := 0x6b17d1f2e12c4247f8bce6e563a440f277037d812deb33a0f4a13945d898c296
  generatorY := 0x4fe342e2fe1a7f9b8ee7eb4a7c0f9e162bce33576b315ececbb6406837bf51f5
  width := 32

/-- The curve with a prime field of 384 bits. -/
def p384 : Curve where
  prime := 0xfffffffffffffffffffffffffffffffffffffffffffffffffffffffffffffffeffffffff0000000000000000ffffffff
  constant := 0xb3312fa7e23ee7e4988e056be3f82d19181d9c6efe8141120314088f5013875ac656398d8a2ed19d2a85c8edd3ec2aef
  order := 0xffffffffffffffffffffffffffffffffffffffffffffffffc7634d81f4372ddf581a0db248b0a77aecec196accc52973
  generatorX := 0xaa87ca22be8b05378eb1c71ef320ad746e1d3b628ba79b9859f741e082542a385502f25dbf55296c3a545e3872760ab7
  generatorY := 0x3617de4a96262c6f5d9e98bf9292dc29f8f41dbd289a147ce9da3113b5f0b8c00a60b1ce1d7e819d7a431d7c90ea0e5f
  width := 48

/-- A point in Jacobian coordinates; the neutral one has a third coordinate of zero. -/
structure Point where
  x : Nat
  y : Nat
  z : Nat
  deriving DecidableEq, Repr

/-- The neutral point. -/
def zero : Point := ⟨1, 1, 0⟩

/-- Twice a point. -/
def double (c : Curve) (a : Point) : Point :=
  let p := c.prime
  if a.z = 0 ∨ a.y = 0 then zero
  else
    let delta := a.z * a.z % p
    let gamma := a.y * a.y % p
    let beta := a.x * gamma % p
    let alpha := 3 * (subMod p a.x delta * (a.x + delta)) % p
    let x := subMod p (alpha * alpha % p) (8 * beta % p)
    let sum := (a.y + a.z) % p
    let z := subMod p (subMod p (sum * sum % p) gamma) delta
    let y := subMod p (alpha * subMod p (4 * beta % p) x % p) (8 * gamma * gamma % p)
    ⟨x, y, z⟩

/-- The sum of two points. -/
def add (c : Curve) (a b : Point) : Point :=
  let p := c.prime
  if a.z = 0 then b
  else if b.z = 0 then a
  else
    let za := a.z * a.z % p
    let zb := b.z * b.z % p
    let u := a.x * zb % p
    let v := b.x * za % p
    let s := a.y * (b.z * zb % p) % p
    let t := b.y * (a.z * za % p) % p
    let h := subMod p v u
    let r := subMod p t s
    if h = 0 then (if r = 0 then c.double a else zero)
    else
      let hh := h * h % p
      let hhh := h * hh % p
      let w := u * hh % p
      let x := subMod p (subMod p (r * r % p) hhh) (2 * w % p)
      let y := subMod p (r * subMod p w x % p) (s * hhh % p)
      ⟨x, y, a.z * b.z % p * h % p⟩

/-- A multiple of a point. -/
def multiply (c : Curve) (n : Nat) (a : Point) : Point :=
  if n = 0 then zero
  else
    let half := c.multiply (n / 2) (c.double a)
    if n % 2 = 1 then c.add a half else half
termination_by n
decreasing_by omega

/-- The generator. -/
def generator (c : Curve) : Point := ⟨c.generatorX, c.generatorY, 1⟩

/-- The plain coordinates of a point; the neutral one has none. -/
def coordinates? (c : Curve) (a : Point) : Option (Nat × Nat) :=
  if a.z = 0 then none
  else
    let i := inverseMod c.prime a.z
    let ii := i * i % c.prime
    some (a.x * ii % c.prime, a.y * (i * ii % c.prime) % c.prime)

/-- Whether plain coordinates are those of a point of the curve. -/
def contains (c : Curve) (x y : Nat) : Bool :=
  x < c.prime && y < c.prime &&
    y * y % c.prime == (x * x % c.prime * x + (c.prime - 3) * x + c.constant) % c.prime

/-- The uncompressed form of a point. -/
def encode (c : Curve) (x y : Nat) : Bytes := 4 :: Bytes.ofNat c.width x ++ Bytes.ofNat c.width y

/-- Reads the uncompressed form of a point of the curve. -/
def decode? (c : Curve) (bytes : Bytes) : Option Point :=
  match bytes with
  | 4 :: rest =>
    if rest.length = 2 * c.width then
      let x := Bytes.toNat (rest.take c.width)
      let y := Bytes.toNat (rest.drop c.width)
      if c.contains x y then some ⟨x, y, 1⟩ else none
    else none
  | _ => none

/-- The point that belongs to a private scalar, in uncompressed form. -/
def publicPoint? (c : Curve) (scalar : Nat) : Option Bytes :=
  if 0 < scalar ∧ scalar < c.order then
    (c.coordinates? (c.multiply scalar c.generator)).map fun (x, y) => c.encode x y
  else none

/-- Whether a signature of a digest belongs to a public point. -/
def verify (c : Curve) (key : Point) (digest : Bytes) (r s : Nat) : Bool :=
  if 0 < r ∧ r < c.order ∧ 0 < s ∧ s < c.order then
    let e := Bytes.toNat (digest.take c.width)
    let w := inverseMod c.order s
    let sum := c.add (c.multiply (e * w % c.order) c.generator) (c.multiply (r * w % c.order) key)
    match c.coordinates? sum with
    | some (x, _) => x % c.order == r
    | none => false
  else false

end Curve

/-! ## The curve of Ed25519 -/

namespace Edwards

/-- Order of the field. -/
def prime : Nat := Nat.pow 2 255 - 19

/-- The coefficient of the curve. -/
def coefficient : Nat := 37095705934669439343138083508754565189542113879843219016388785533085940283555

/-- A point in extended coordinates: `x = X / Z`, `y = Y / Z`, `x * y = T / Z`. -/
structure Point where
  x : Nat
  y : Nat
  z : Nat
  t : Nat

/-- The neutral point. -/
def zero : Point := ⟨0, 1, 1, 0⟩

/-- The base point. -/
def base : Point :=
  let x := 15112221349535400772501151409588531511454012693041857206046113283949847762202
  let y := 46316835694926478169428394003475163141307993866256225615783033603165251855960
  ⟨x, y, 1, x * y % prime⟩

/-- The sum of two points. -/
def add (a b : Point) : Point :=
  let p := prime
  let e := subMod p a.y a.x * subMod p b.y b.x % p
  let f := (a.y + a.x) * (b.y + b.x) % p
  let g := 2 * a.t * coefficient % p * b.t % p
  let d := 2 * a.z * b.z % p
  let h := subMod p f e
  let i := subMod p d g
  let j := (d + g) % p
  let k := (f + e) % p
  ⟨h * i % p, j * k % p, i * j % p, h * k % p⟩

/-- A multiple of a point. -/
def multiply (n : Nat) (a : Point) : Point :=
  if n = 0 then zero
  else
    let half := multiply (n / 2) (add a a)
    if n % 2 = 1 then add a half else half
termination_by n
decreasing_by omega

/-- The number written by a byte string, least significant byte first. -/
def littleEndian (bytes : Bytes) : Nat := Bytes.toNat bytes.reverse

/-- The encoding of a point: its second coordinate and the parity of the first. -/
def encode (a : Point) : Bytes :=
  let i := inverseMod prime a.z
  let x := a.x * i % prime
  let y := a.y * i % prime
  (Bytes.ofNat 32 (y + Nat.pow 2 255 * (x % 2))).reverse

/-- The scalar of a seed: half of its digest, with the lowest three bits cleared and the second
highest the highest that is set. -/
def scalar (seed : Bytes) : Nat :=
  let h := littleEndian ((Digest.sha512 seed).take 32)
  Nat.pow 2 254 + (h % Nat.pow 2 254) / 8 * 8

/-- The public key that belongs to a seed. -/
def publicKey (seed : Bytes) : Bytes := encode (multiply (scalar seed) base)

end Edwards
end TlsTransport
