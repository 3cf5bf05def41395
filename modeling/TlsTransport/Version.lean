/-! # Protocol versions

The versions of the protocol, oldest first, and the spellings by which they are named.
-/

namespace TlsTransport

/-- A protocol version. -/
inductive TlsVersion where
  | ssl3 | tls10 | tls11 | tls12 | tls13
  deriving DecidableEq, Repr

namespace TlsVersion

/-- The name of a version. -/
def name : TlsVersion → String
  | ssl3 => "SSLv3"
  | tls10 => "TLSv1.0"
  | tls11 => "TLSv1.1"
  | tls12 => "TLSv1.2"
  | tls13 => "TLSv1.3"

/-- The short form of a version, for descriptions of settings. -/
def label : TlsVersion → String
  | ssl3 => "Ssl3"
  | tls10 => "Tls10"
  | tls11 => "Tls11"
  | tls12 => "Tls12"
  | tls13 => "Tls13"

/-- The place of a version in the order of age. -/
def rank : TlsVersion → Nat
  | ssl3 => 0
  | tls10 => 1
  | tls11 => 2
  | tls12 => 3
  | tls13 => 4

/-- Every version, oldest first. -/
def all : List TlsVersion := [ssl3, tls10, tls11, tls12, tls13]

/-- The versions newer than a given one, oldest first. -/
def newer (v : TlsVersion) : List TlsVersion := all.filter fun w => v.rank < w.rank

/-- The upper case of a character, in full where it consists of ASCII letters. Letters whose upper
case lies outside ASCII stay as they are: no spelling of a version has them. -/
def upperCase (c : Char) : List Char :=
  match c with
  | 'ı' => ['I']
  | 'ſ' => ['S']
  | 'ß' => ['S', 'S']
  | 'ﬀ' => ['F', 'F']
  | 'ﬁ' => ['F', 'I']
  | 'ﬂ' => ['F', 'L']
  | 'ﬃ' => ['F', 'F', 'I']
  | 'ﬄ' => ['F', 'F', 'L']
  | 'ﬅ' | 'ﬆ' => ['S', 'T']
  | c => [c.toUpper]

/-- Reads the name of a version; case does not matter, and the `v` may be left out. -/
def parse? (text : String) : Option TlsVersion :=
  let upper := String.ofList (text.toList.flatMap upperCase)
  if upper = "SSLV3" ∨ upper = "SSL3" then some ssl3
  else if upper = "TLSV1.0" ∨ upper = "TLS1.0" ∨ upper = "TLSV1" ∨ upper = "TLS1" then some tls10
  else if upper = "TLSV1.1" ∨ upper = "TLS1.1" then some tls11
  else if upper = "TLSV1.2" ∨ upper = "TLS1.2" then some tls12
  else if upper = "TLSV1.3" ∨ upper = "TLS1.3" then some tls13
  else none

end TlsVersion
end TlsTransport
