import TlsTransport.Bytes

/-! # Internet addresses

IPv4 and IPv6 addresses and the socket addresses made of them, with their text form.

* `IpAddress.parse?`, `SocketAddress.parse?`: readers that accept the text form and nothing around
  it.
* `IpAddress.render`, `SocketAddress.render`: the canonical text. The longest run of at least two
  zero groups is left out, the first one when there are several.
* `IpAddress.ofOctets?`: the address in a certificate entry of four or sixteen octets.
-/

namespace TlsTransport

/-- An address of either family. -/
inductive IpAddress where
  | v4 (a b c d : UInt8)
  | v6 (groups : Vector UInt16 8)
  deriving DecidableEq, Repr

/-! ## Reading numbers -/

/-- The value of a digit in a radix of at most sixteen. -/
def digitValue? (radix : Nat) (c : Char) : Option Nat :=
  (hexValue? c).filter (· < radix)

/-- The leading digits of a text, as values, and what follows them. -/
def leadingDigits (radix : Nat) : List Char → List Nat × List Char
  | [] => ([], [])
  | c :: rest =>
    match digitValue? radix c with
    | some d => let (ds, tail) := leadingDigits radix rest; (d :: ds, tail)
    | none => ([], c :: rest)

/-- How a number is written in an address. -/
structure NumberFormat where
  radix : Nat
  /-- The most digits there may be. -/
  maxDigits : Option Nat
  /-- The largest value. -/
  bound : Nat
  /-- Whether a number of several digits may start with zero. -/
  zeroFirst : Bool

namespace NumberFormat

/-- One part of an IPv4 address. -/
def octet : NumberFormat := ⟨10, some 3, 255, false⟩

/-- One group of an IPv6 address. -/
def group : NumberFormat := ⟨16, some 4, 65535, true⟩

/-- A port. -/
def port : NumberFormat := ⟨10, none, 65535, true⟩

/-- The number of a network interface. -/
def scope : NumberFormat := ⟨10, none, 4294967295, true⟩

/-- Reads a number from the front of a text. All digits that stand there belong to it. -/
def read? (f : NumberFormat) (text : List Char) : Option (Nat × List Char) :=
  let (digits, rest) := leadingDigits f.radix text
  let value := digits.foldl (fun n d => f.radix * n + d) 0
  if digits.isEmpty then none
  else if f.maxDigits.any (· < digits.length) then none
  else if !f.zeroFirst && digits.head? == some 0 && 1 < digits.length then none
  else if f.bound < value then none
  else some (value, rest)

end NumberFormat

/-- Drops one given character from the front of a text. -/
def expect? (c : Char) : List Char → Option (List Char)
  | [] => none
  | d :: rest => if d = c then some rest else none

namespace IpAddress

/-! ## Reading addresses -/

/-- Reads an IPv4 address from the front of a text. -/
def readV4? (text : List Char) : Option ((UInt8 × UInt8 × UInt8 × UInt8) × List Char) := do
  let (a, text) ← NumberFormat.octet.read? text
  let (b, text) ← NumberFormat.octet.read? (← expect? '.' text)
  let (c, text) ← NumberFormat.octet.read? (← expect? '.' text)
  let (d, text) ← NumberFormat.octet.read? (← expect? '.' text)
  return ((.ofNat a, .ofNat b, .ofNat c, .ofNat d), text)

/-- What stands before a group: nothing before the first, a colon before every other. -/
def groupStart? (first : Bool) (text : List Char) : Option (List Char) :=
  if first then some text else expect? ':' text

/-- Reads at most `limit` groups from the front of a text. Where two or more may still come, an
IPv4 address stands for two of them and ends the list. Answers the groups, whether an IPv4 address
ended them, and what is left. -/
def readGroups : Nat → Bool → List Char → List UInt16 × Bool × List Char
  | 0, _, text => ([], false, text)
  | limit + 1, first, text =>
    let embedded := if limit = 0 then none else (groupStart? first text).bind readV4?
    match embedded with
    | some ((a, b, c, d), rest) =>
      ([.ofNat (256 * a.toNat + b.toNat), .ofNat (256 * c.toNat + d.toNat)], true, rest)
    | none =>
      match (groupStart? first text).bind NumberFormat.group.read? with
      | none => ([], false, text)
      | some (g, rest) =>
        let (gs, embedded, rest) := readGroups limit false rest
        (.ofNat g :: gs, embedded, rest)

/-- Eight groups, if there are eight of them. -/
def groups? (gs : List UInt16) : Option (Vector UInt16 8) :=
  if h : gs.toArray.size = 8 then some ⟨gs.toArray, h⟩ else none

/-- Reads an IPv6 address from the front of a text. Two colons stand for at least one zero group,
and an IPv4 address may stand only at the end. -/
def readV6? (text : List Char) : Option (Vector UInt16 8 × List Char) :=
  let (front, embedded, rest) := readGroups 8 true text
  if front.length = 8 then (groups? front).map (·, rest)
  else if embedded then none
  else do
    let rest ← expect? ':' rest
    let rest ← expect? ':' rest
    let (back, _, rest) := readGroups (7 - front.length) true rest
    let zeros := List.replicate (8 - front.length - back.length) 0
    (groups? (front ++ zeros ++ back)).map (·, rest)

/-- Reads an address of either family from the front of a text. -/
def read? (text : List Char) : Option (IpAddress × List Char) :=
  match readV4? text with
  | some ((a, b, c, d), rest) => some (v4 a b c d, rest)
  | none => (readV6? text).map fun (gs, rest) => (v6 gs, rest)

/-- Reads a text that is an address and nothing else. -/
def parse? (text : String) : Option IpAddress :=
  match read? text.toList with
  | some (a, []) => some a
  | _ => none

/-! ## Writing addresses -/

/-- Four octets with dots between them. -/
def renderV4 (a b c d : UInt8) : String := s!"{a.toNat}.{b.toNat}.{c.toNat}.{d.toNat}"

/-- A group in hexadecimal, without leading zeros. -/
def renderGroup (g : UInt16) : String := String.ofList (Nat.toDigits 16 g.toNat)

/-- Groups with colons between them. -/
def renderGroups (gs : List UInt16) : String := ":".intercalate (gs.map renderGroup)

/-- The length of the run of zeros at the front. -/
def zeroRun : List UInt16 → Nat
  | [] => 0
  | g :: gs => if g = 0 then zeroRun gs + 1 else 0

/-- The place and the length of the longest run of zeros, the first of several; `at_` counts the
groups already passed. -/
def longestZeros (at_ : Nat) : List UInt16 → Nat × Nat
  | [] => (at_, 0)
  | g :: gs =>
    let here := zeroRun (g :: gs)
    let later := longestZeros (at_ + 1) gs
    if later.2 ≤ here then (at_, here) else later

/-- The text of an IPv6 address. -/
def renderV6 (groups : Vector UInt16 8) : String :=
  match groups.toList with
  | [0, 0, 0, 0, 0, 0xffff, x, y] =>
    let hi (g : UInt16) := UInt8.ofNat (g.toNat / 256)
    let lo (g : UInt16) := UInt8.ofNat (g.toNat % 256)
    s!"::ffff:{renderV4 (hi x) (lo x) (hi y) (lo y)}"
  | gs =>
    let (start, len) := longestZeros 0 gs
    if 1 < len then
      s!"{renderGroups (gs.take start)}::{renderGroups (gs.drop (start + len))}"
    else renderGroups gs

/-- The canonical text of an address. -/
def render : IpAddress → String
  | v4 a b c d => renderV4 a b c d
  | v6 gs => renderV6 gs

/-! ## Addresses in certificates -/

/-- The big-endian sixteen-bit words of a byte string. -/
def words : Bytes → List UInt16
  | hi :: lo :: rest => .ofNat (256 * hi.toNat + lo.toNat) :: words rest
  | _ => []

/-- The address of a certificate entry, which has four or sixteen octets. -/
def ofOctets? : Bytes → Option IpAddress
  | [a, b, c, d] => some (v4 a b c d)
  | octets => if octets.length = 16 then (groups? (words octets)).map v6 else none

end IpAddress

/-! ## Socket addresses -/

/-- An address with a port, and for IPv6 the number of the interface it belongs to. -/
structure SocketAddress where
  ip : IpAddress
  port : UInt16
  scope : UInt32
  deriving DecidableEq, Repr

namespace SocketAddress

/-- Whether the address is an IPv6 address. -/
def isV6 (a : SocketAddress) : Bool :=
  match a.ip with
  | .v4 .. => false
  | .v6 _ => true

/-- Reads the port at the end of a text. -/
def readPort? (text : List Char) : Option UInt16 :=
  match (expect? ':' text).bind NumberFormat.port.read? with
  | some (p, []) => some (.ofNat p)
  | _ => none

/-- The number of an interface behind a percent sign, zero when there is none. -/
def readScope (text : List Char) : UInt32 × List Char :=
  match (expect? '%' text).bind NumberFormat.scope.read? with
  | some (n, rest) => (.ofNat n, rest)
  | none => (0, text)

/-- Reads `address:port`, the IPv6 address in brackets. -/
def parse? (text : String) : Option SocketAddress :=
  let v4 := do
    let ((a, b, c, d), rest) ← IpAddress.readV4? text.toList
    return ⟨.v4 a b c d, ← readPort? rest, 0⟩
  v4 <|> do
    let (gs, rest) ← IpAddress.readV6? (← expect? '[' text.toList)
    let (scope, rest) := readScope rest
    return ⟨.v6 gs, ← readPort? (← expect? ']' rest), scope⟩

/-- The text of a socket address. -/
def render (a : SocketAddress) : String :=
  match a.ip with
  | .v4 .. => s!"{a.ip.render}:{a.port.toNat}"
  | .v6 _ =>
    if a.scope = 0 then s!"[{a.ip.render}]:{a.port.toNat}"
    else s!"[{a.ip.render}%{a.scope.toNat}]:{a.port.toNat}"

end SocketAddress
end TlsTransport
