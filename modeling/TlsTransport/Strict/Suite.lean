import TlsTransport.PrivateKey
import TlsTransport.Version

/-! # Cipher suites of the strict provider

Suites of the newest version name a cipher only. Older ones also name the kind of key with which the
server signs.
-/

namespace TlsTransport.Strict

/-- A cipher that also authenticates. -/
inductive BulkCipher where
  | aes256 | aes128 | chaCha20
  deriving DecidableEq, Repr

/-- The name of a cipher and of the digest used with it. -/
def BulkCipher.name : BulkCipher → String
  | aes256 => "AES_256_GCM_SHA384"
  | aes128 => "AES_128_GCM_SHA256"
  | chaCha20 => "CHACHA20_POLY1305_SHA256"

/-- A kind of key with which a server signs. -/
inductive SignerKind where
  | ecdsa | rsa
  deriving DecidableEq, Repr

/-- The kind of a public key. All keys but those of RSA count as one. -/
def SignerKind.ofKey (key : PublicKeyInfo) : SignerKind :=
  if key.algorithm.id = Algorithm.rsaId then rsa else ecdsa

/-- The name of a kind of key. -/
def SignerKind.name : SignerKind → String
  | ecdsa => "ECDSA"
  | rsa => "RSA"

/-- A cipher suite. -/
inductive Suite where
  /-- Of the newest version. -/
  | modern (cipher : BulkCipher)
  /-- Of the version before. -/
  | signed (signer : SignerKind) (cipher : BulkCipher)
  deriving DecidableEq, Repr

namespace Suite

/-- Every suite, the preferred ones first. -/
def all : List Suite :=
  let ciphers : List BulkCipher := [.aes256, .aes128, .chaCha20]
  ciphers.map modern ++ ciphers.map (signed .ecdsa) ++ ciphers.map (signed .rsa)

/-- The name of a suite. -/
def name : Suite → String
  | modern c => s!"TLS13_{c.name}"
  | signed k c => s!"TLS_ECDHE_{k.name}_WITH_{c.name}"

/-- The number of a suite. -/
def number : Suite → Nat
  | modern .aes128 => 0x1301
  | modern .aes256 => 0x1302
  | modern .chaCha20 => 0x1303
  | signed .ecdsa .aes128 => 0xc02b
  | signed .ecdsa .aes256 => 0xc02c
  | signed .ecdsa .chaCha20 => 0xcca9
  | signed .rsa .aes128 => 0xc02f
  | signed .rsa .aes256 => 0xc030
  | signed .rsa .chaCha20 => 0xcca8

/-- The suite of a number. -/
def ofNumber? (n : Nat) : Option Suite := all.find? fun s => s.number == n

/-- The version to which a suite belongs. -/
def version : Suite → TlsVersion
  | modern _ => .tls13
  | signed .. => .tls12

/-- Whether a server with a key of some kind can use a suite. -/
def isUsableBy (kind : SignerKind) : Suite → Bool
  | modern _ => true
  | signed k _ => k = kind

end Suite
end TlsTransport.Strict
