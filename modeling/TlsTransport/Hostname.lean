import TlsTransport.Address
import TlsTransport.Text.Place

/-! # Certificate names

Whether a certificate covers a host. Address literals are compared with the addresses of the
certificate, other names with its DNS names, and the common name counts only when the certificate
has no entry of the relevant kind.

* `matchesPattern`: one pattern against one name. A wildcard covers a non-empty part of one label.
* `verifyHostname`: all names of a certificate against one host.

Patterns are taken apart at places, that is at numbers of bytes; `matchesPattern?` and its parts
answer nothing where a place is no boundary of the text.
-/

namespace TlsTransport

/-! ## Comparing without case -/

/-- A byte with a capital ASCII letter made small. -/
def lowerByte (b : UInt8) : UInt8 := if 65 ≤ b ∧ b ≤ 90 then b + 32 else b

/-- Equality of bytes up to the case of ASCII letters. -/
def eqIgnoreCase (a b : Bytes) : Bool := a.map lowerByte == b.map lowerByte

/-- Whether a text starts with another, up to the case of ASCII letters. -/
def startsWithIgnoreCase? (text start : List Char) : Option Bool :=
  if (utf8 start).length ≤ (utf8 text).length then do
    let (front, _) ← (utf8 text).cut? (utf8 start).length
    return eqIgnoreCase front (utf8 start)
  else some false

/-- Whether a text ends with another, up to the case of ASCII letters. -/
def endsWithIgnoreCase? (text ending : List Char) : Option Bool :=
  if (utf8 ending).length ≤ (utf8 text).length then do
    let (_, back) ← (utf8 text).cut? ((utf8 text).length - (utf8 ending).length)
    return eqIgnoreCase back (utf8 ending)
  else some false

/-! ## Patterns -/

/-- Whether the star at a place of a pattern is a wildcard. It must stand in the first label, a
second dot must follow the first one, and the label must not be an encoded international name. -/
def isWildcard? (pattern : List Char) (star : Nat) : Option Bool :=
  match placeOf? '.' pattern with
  | none => some false
  | some labelEnd => do
    let (_, rest) ← cut? pattern (labelEnd + 1)
    if rest.contains '.' && star < labelEnd then
      (startsWithIgnoreCase? pattern ['x', 'n', '-', '-']).map (!·)
    else some false

/-- Matches a pattern with a wildcard at a place. What follows the first label must be the same; the
label of the host must be as long as that of the pattern, so that the wildcard covers at least one
byte, and must start and end like it. -/
def matchesAround? (pattern host : List Char) (star : Nat) : Option Bool := do
  let labelEnd := (placeOf? '.' pattern).getD (utf8 pattern).length
  let hostEnd := (placeOf? '.' host).getD (utf8 host).length
  let (patternLabel, patternRest) ← cut? pattern labelEnd
  let (label, rest) ← cut? host hostEnd
  if !eqIgnoreCase (utf8 patternRest) (utf8 rest) then some false
  else if (utf8 label).length < labelEnd then some false
  else do
    let (before, _) ← cut? pattern star
    if ← startsWithIgnoreCase? label before then do
      let (_, after) ← cut? patternLabel (star + 1)
      endsWithIgnoreCase? label after
    else some false

/-- Matches a pattern against a name, up to the case of ASCII letters. -/
def matchesPattern? (pattern host : List Char) : Option Bool :=
  match placeOf? '*' pattern with
  | none => some (eqIgnoreCase (utf8 pattern) (utf8 host))
  | some star => do
    if ← isWildcard? pattern star then matchesAround? pattern host star
    else some (eqIgnoreCase (utf8 pattern) (utf8 host))

/-- Whether a pattern matches a name. -/
def matchesPattern (pattern host : String) : Bool :=
  (matchesPattern? pattern.toList host.toList).getD false

/-! ## Hosts -/

/-- A host without one enclosing pair of brackets. -/
def bareHost (host : String) : String :=
  match host.toList with
  | '[' :: rest =>
    if rest.getLast? = some ']' then String.ofList rest.dropLast else host
  | _ => host

/-- Whether a host is an address literal, in brackets or not. -/
def isNumericHost (host : String) : Bool := (IpAddress.parse? (bareHost host)).isSome

/-- A name without one dot at its end. -/
def withoutFinalDot (name : String) : String :=
  if name.toList.getLast? = some '.' then String.ofList name.toList.dropLast else name

/-- Whether the names of a certificate cover a host. -/
def verifyHostname (host : String) (dnsNames : List String) (addresses : List IpAddress)
    (commonName : Option String) : Bool :=
  let commonName := (commonName.map withoutFinalDot).filter (· ≠ "")
  if isNumericHost host then
    if addresses.isEmpty then commonName.any (· = bareHost host)
    else
      match IpAddress.parse? (bareHost host) with
      | some address => addresses.contains address
      | none => false
  else if dnsNames.isEmpty then commonName.any (matchesPattern · host)
  else dnsNames.any fun name => matchesPattern (withoutFinalDot name) host

end TlsTransport
