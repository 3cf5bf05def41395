import TlsTransport.Classic.Reason
import TlsTransport.CipherPolicy
import TlsTransport.Text.Character

/-! # Cipher rules of the classic provider

A cipher rule picks suites of the versions before the newest by keywords, and suites of the newest
version are not touched by it. What matters is whether a rule leaves any suite.

* `CipherRule.check`: accepts a rule that leaves one.
-/

namespace TlsTransport.Classic.CipherRule

/-! ## Suites and their keywords -/

/-- A way to agree on keys, with the keywords for it and for the keys that sign. -/
inductive KeyExchange where
  | ecdheEcdsa | ecdheRsa | dheRsa | dheDss | rsa
  | psk | rsaPsk | dhePsk | ecdhePsk
  | srpRsa | srpDss
  deriving DecidableEq, Repr

/-- The keywords that select a way to agree on keys. -/
def KeyExchange.keywords : KeyExchange → List String
  | ecdheEcdsa => ["kECDHE", "kEECDH", "ECDHE", "EECDH", "ECDH", "aECDSA", "ECDSA"]
  | ecdheRsa => ["kECDHE", "kEECDH", "ECDHE", "EECDH", "ECDH", "aRSA"]
  | dheRsa => ["kDHE", "kEDH", "DHE", "EDH", "DH", "aRSA"]
  | dheDss => ["kDHE", "kEDH", "DHE", "EDH", "DH", "aDSS", "DSS"]
  | rsa => ["kRSA", "aRSA", "RSA"]
  | psk => ["kPSK", "PSK", "aPSK"]
  | rsaPsk => ["kRSAPSK", "PSK", "aRSA"]
  | dhePsk => ["kDHEPSK", "PSK", "aPSK"]
  | ecdhePsk => ["kECDHEPSK", "PSK", "aPSK"]
  | srpRsa => ["kSRP", "SRP", "aRSA"]
  | srpDss => ["kSRP", "SRP", "aDSS", "DSS"]

/-- A cipher with keys of two lengths, each with more keywords of its own. -/
def bothLengths (name : String) (short long : List String) : List (List String) :=
  [name :: s!"{name}128" :: short, name :: s!"{name}256" :: long]

/-- The ciphers that authenticate, by kind. -/
def gcm : List (List String) := bothLengths "AES" ["AESGCM"] ["AESGCM"]
def ccm : List (List String) :=
  bothLengths "AES" ["AESCCM"] ["AESCCM"] ++
    bothLengths "AES" ["AESCCM", "AESCCM8"] ["AESCCM", "AESCCM8"]
def chaCha : List (List String) := [["CHACHA20"]]
def aria : List (List String) := bothLengths "ARIA" ["ARIAGCM"] ["ARIAGCM"]

/-- A cipher that does not authenticate, with a digest for each length of its key. -/
def chained (name : String) (short long : List String) : List (List String) :=
  bothLengths name ("CBC" :: short) ("CBC" :: long)

/-- The keywords of the oldest digest. -/
def sha1 : List String := ["SHA", "SHA1"]

/-- The chained ciphers of the older ways: both with the oldest digest and with one of the second
family. -/
def olderChained : List (List String) :=
  ["AES", "CAMELLIA"].flatMap fun name =>
    chained name sha1 sha1 ++ chained name ["SHA256"] ["SHA256"]

/-- The chained ciphers of the newer ways, which take the digest by the length of the key. -/
def newerChained : List (List String) :=
  chained "AES" sha1 sha1 ++ chained "AES" ["SHA256"] ["SHA384"] ++
    chained "CAMELLIA" ["SHA256"] ["SHA384"]

/-- The ciphers that go with a way to agree on keys. -/
def KeyExchange.ciphers : KeyExchange → List (List String)
  | ecdheEcdsa | psk | dhePsk => gcm ++ ccm ++ chaCha ++ aria ++ newerChained
  | ecdheRsa | rsaPsk => gcm ++ chaCha ++ aria ++ newerChained
  | ecdhePsk => chaCha ++ newerChained
  | dheRsa => gcm ++ ccm ++ chaCha ++ aria ++ olderChained
  | rsa => gcm ++ ccm ++ aria ++ olderChained
  | dheDss => gcm ++ aria ++ olderChained
  | srpRsa | srpDss => chained "AES" sha1 sha1

/-- The suites that every rule starts from, each as the keywords that exclude it. -/
def strongSuites : List (List String) :=
  let exchanges : List KeyExchange :=
    [.ecdheEcdsa, .ecdheRsa, .dheRsa, .dheDss, .rsa, .psk, .rsaPsk, .dhePsk, .ecdhePsk, .srpRsa,
      .srpDss]
  exchanges.flatMap fun x => x.ciphers.map fun c => "ALL" :: "HIGH" :: x.keywords ++ c

/-! ## Rules -/

/-- Whether the rule of a policy leaves no suite. -/
def leavesNothing (p : CipherPolicy) : Bool :=
  strongSuites.all fun keywords => p.blocked.any fun f => keywords.contains f

/-- Accepts the rule of a policy, if it leaves a suite. -/
def check (p : CipherPolicy) : Except SetupError Unit :=
  if leavesNothing p then
    .error (.invalidConfig s!"cipher list {quoted p.rule}: {Reason.noCipherMatch.text}")
  else .ok ()

end TlsTransport.Classic.CipherRule
