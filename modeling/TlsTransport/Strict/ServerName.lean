import TlsTransport.Address
import TlsTransport.Bytes
import TlsTransport.Text.Character

/-! # Server names

The strict provider takes the name of a server apart before it uses it: a DNS name in its exact
form, or an address.

* `ServerName.parse?`: the name in a text.
* `ServerName.isMatchedBy`: whether a DNS name in a certificate covers that of a server.
-/

namespace TlsTransport.Strict

/-- The name under which a client looks for its server. -/
inductive ServerName where
  | dns (name : String)
  | address (ip : IpAddress)
  deriving DecidableEq, Repr

/-- The octets of an address. -/
def octets : IpAddress → Bytes
  | .v4 a b c d => [a, b, c, d]
  | .v6 groups => groups.toList.flatMap fun g => Bytes.ofNat 2 g.toNat

/-! ## DNS names -/

/-- The most bytes of a name, and of one of its labels. -/
def maxNameLength : Nat := 253
def maxLabelLength : Nat := 63

/-- The parts of a name between its dots. -/
def labels : List Char → List (List Char)
  | [] => [[]]
  | c :: rest =>
    match labels rest with
    | [] => [[c]]
    | l :: ls => if c = '.' then [] :: l :: ls else (c :: l) :: ls

/-- Whether a character may stand in a label. -/
def isLabelChar (c : Char) : Bool := c.isAlphanum || c == '-' || c == '_'

/-- Whether a label is well formed. -/
def isLabel (label : List Char) : Bool :=
  !label.isEmpty && label.length ≤ maxLabelLength && label.all isLabelChar &&
    label.head? != some '-' && label.getLast? != some '-'

/-- Whether labels form a name; the last one must not look like a number. -/
def areLabels (ls : List (List Char)) : Bool :=
  ls.all isLabel && !(ls.getLast?.getD []).all Char.isDigit

/-- Whether a text is a DNS name, which one dot may end. -/
def isDnsName (name : String) : Bool :=
  let chars := name.toList
  let relative := if chars.getLast? = some '.' then chars.dropLast else chars
  name.utf8ByteSize ≤ maxNameLength && areLabels (labels relative)

namespace ServerName

/-- The server name in a text. -/
def parse? (text : String) : Option ServerName :=
  if isDnsName text then some (dns text) else (IpAddress.parse? text).map address

/-- A server name as it stands in texts. -/
def render : ServerName → String
  | dns name => s!"DnsName({quoted name})"
  | address ip =>
    let bytes := bracketed ((octets ip).map fun b => toString b.toNat)
    match ip with
    | .v4 .. => s!"IpAddress(V4(Ipv4Addr({bytes})))"
    | .v6 _ => s!"IpAddress(V6(Ipv6Addr({bytes})))"

/-! ## Names in certificates -/

/-- Whether a name in a certificate is one that counts. In place of its first label it may have a
star, before at least two others. -/
def isPresentable (name : List Char) : Bool :=
  name.length ≤ maxNameLength &&
    match name with
    | '*' :: '.' :: rest => 2 ≤ (labels rest).length && areLabels (labels rest)
    | _ => areLabels (labels name)

/-- Whether a name in a certificate covers the name of a server, whatever their case. A star stands
for one label, and a dot at the end of the server's name does not matter. -/
def isMatchedBy (name : String) (presented : List Char) : Bool :=
  let lower := name.toList.map Char.toLower
  let server := if lower.getLast? = some '.' then lower.dropLast else lower
  isPresentable presented &&
    match presented.map Char.toLower with
    | '*' :: rest => server.dropWhile (· != '.') == rest
    | chars => server == chars

end ServerName
end TlsTransport.Strict
