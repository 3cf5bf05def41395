import TlsTransport.Cipher.Aes
import TlsTransport.Classic.Credential
import TlsTransport.Digest.Hmac

/-! # Key containers

A container holds certificates and a private key in bags, some of them encrypted, and a keyed digest
of them all. Here the password is empty.

* `Classic.importContainer`: the credential in a container.
* `Classic.credentialFormat`: how contexts read credentials.
-/

namespace TlsTransport.Classic

open Asn1

namespace Container

/-! ## Identifiers -/

/-- Identifiers of the kinds of content, from the third number on. -/
def contentId (n : UInt8) : Bytes := [0x2a, 0x86, 0x48, 0x86, 0xf7, 0x0d, 0x01, 0x07, n]

def plainId : Bytes := contentId 1
def encryptedId : Bytes := contentId 6

/-- The identifier of a kind of bag. -/
def bagId (n : UInt8) : Bytes := [0x2a, 0x86, 0x48, 0x86, 0xf7, 0x0d, 0x01, 0x0c, 0x0a, 0x01, n]

def keyBag : Bytes := bagId 1
def encryptedKeyBag : Bytes := bagId 2
def certificateBag : Bytes := bagId 3
def nestedBag : Bytes := bagId 6

def x509Id : Bytes := [0x2a, 0x86, 0x48, 0x86, 0xf7, 0x0d, 0x01, 0x09, 0x16, 0x01]

def passwordSchemeId : Bytes := [0x2a, 0x86, 0x48, 0x86, 0xf7, 0x0d, 0x01, 0x05, 0x0d]
def stretchId : Bytes := [0x2a, 0x86, 0x48, 0x86, 0xf7, 0x0d, 0x01, 0x05, 0x0c]
def hmacSha256Id : Bytes := [0x2a, 0x86, 0x48, 0x86, 0xf7, 0x0d, 0x02, 0x09]

/-- The length of an AES key by the last number of its identifier. -/
def aesKeyLength? (id : Bytes) : Option Nat :=
  if id.dropLast = [0x60, 0x86, 0x48, 0x01, 0x65, 0x03, 0x04, 0x01] then
    match id.getLast? with
    | some 2 => some 16
    | some 22 => some 24
    | some 42 => some 32
    | _ => none
  else none

/-- The digest of an identifier. -/
def digestOfId? (id : Bytes) : Option HashAlgorithm :=
  if id = [0x2b, 0x0e, 0x03, 0x02, 0x1a] then some .sha1
  else if id.dropLast = [0x60, 0x86, 0x48, 0x01, 0x65, 0x03, 0x04, 0x02] then
    match id.getLast? with
    | some 1 => some .sha256
    | some 2 => some .sha384
    | some 3 => some .sha512
    | some 4 => some .sha224
    | _ => none
  else none

/-! ## Fields -/

/-- A kind of content and what is there of it. -/
structure Content where
  id : Bytes
  body : Option Item

/-- A content. -/
def content : Parser Content :=
  Parser.sequence do
    let id ← Parser.identifier
    return ⟨id, ← Parser.explicit? 0 Parser.any⟩

/-- What protects a container against changes. -/
structure Mac where
  algorithm : Algorithm
  digest : Bytes
  salt : Bytes
  rounds : Nat

/-- The protection of a container. -/
def mac : Parser Mac :=
  Parser.sequence do
    let (algorithm, digest) ← Parser.sequence do
      return (← X509.algorithm, ← Parser.octetString)
    let salt ← Parser.octetString
    let rounds ← if ← Parser.atEnd then pure 1 else Parser.natural
    return ⟨algorithm, digest, salt, rounds⟩

/-- A container. -/
def parser : Parser (Content × Option Mac) :=
  Parser.sequence do
    let _ ← Parser.integerBytes
    let body ← content
    return (body, ← if ← Parser.atEnd then pure none else some <$> mac)

/-- An encrypted content: its algorithm and the bytes. -/
def encryptedContent : Parser (Algorithm × Bytes) :=
  Parser.sequence do
    let _ ← Parser.integerBytes
    Parser.sequence do
      let _ ← Parser.identifier
      let a ← X509.algorithm
      return (a, (← Parser.expect (contextTag 0)).content)

/-- How a key is made from a password: salt and rounds, and whether the digest is the one that is
known. -/
def stretchFields : Parser (Bytes × Nat × Bool) :=
  Parser.sequence do
    let salt ← Parser.octetString
    let rounds ← Parser.natural
    let _ ← Parser.optional integerTag
    let known ← if ← Parser.atEnd then pure false
      else (fun a : Algorithm => a.id == hmacSha256Id) <$> X509.algorithm
    return (salt, rounds, known)

/-- The two algorithms of the password scheme. -/
def schemeFields : Parser (Algorithm × Algorithm) :=
  Parser.sequence do return (← X509.algorithm, ← X509.algorithm)

/-- A reader's answer, with the reason why it failed. -/
def readAll {α : Type} (bytes : Bytes) (p : Parser α) : Except Reason α :=
  match Parser.run .relaxed bytes p with
  | .ok (a, _) => .ok a
  | .error fault => .error (.asn1 fault)

/-! ## Decryption -/

/-- What was encrypted with an empty password. -/
def decrypt (a : Algorithm) (text : Bytes) : Except Reason Bytes := do
  if a.id ≠ passwordSchemeId then .error .unsupported
  let (kdf, cipher) ← readAll a.parameters schemeFields
  match aesKeyLength? cipher.id with
  | none => .error .unsupported
  | some length =>
    if kdf.id ≠ stretchId then .error .unsupported
    let (salt, rounds, known) ← readAll kdf.parameters stretchFields
    if !known then .error .unsupported
    let start ← readAll cipher.parameters Parser.octetString
    match Aes.decryptChain? (Digest.stretch [] salt rounds length) start text with
    | some bytes => .ok bytes
    | none => .error .badDecrypt

/-- Whether the keyed digest of a content is the stated one. The empty password is written in two
ways. -/
def isProtected (m : Mac) (body : Bytes) : Bool :=
  match digestOfId? m.algorithm.id with
  | none => false
  | some h => [[], [0, 0]].any fun password =>
      Digest.hmac h (Digest.containerKey h password m.salt m.rounds) body == m.digest

/-! ## Bags -/

/-- What was found in the bags of a container. -/
structure Found where
  key : Option (Algorithm × Bytes)
  certificates : List X509

/-- The kind and the value of a bag. -/
def bag : Parser (Bytes × Item) :=
  Parser.sequence do
    let id ← Parser.identifier
    let value ← Parser.within (← Parser.expect (fieldTag 0)).content Parser.any
    let _ ← Parser.rest
    return (id, value)

/-- The bags in a byte string. -/
def bags (bytes : Bytes) : Except Reason (List (Bytes × Item)) :=
  readAll bytes (Parser.sequence (Parser.many bag))

/-- An encrypted key. -/
def encryptedKey : Parser (Algorithm × Bytes) :=
  Parser.sequence do return (← X509.algorithm, ← Parser.octetString)

/-- A certificate in its bag. -/
def boxedCertificate : Parser (Bytes × Option Bytes) :=
  Parser.sequence do
    let id ← Parser.identifier
    return (id, ← Parser.explicit? 0 Parser.octetString)

/-- Takes a key, unless there is one already. -/
def takeKey (f : Found) (der : Unit → Except Reason Bytes) : Except Reason Found :=
  match f.key with
  | some _ => .ok f
  | none => do
    let key ← readAll (← der ()) PrivateKey.pkcs8Parser
    return { f with key := some key }

/-- Takes the content of a bag, and of the bags in it to a depth. -/
def takeBag (depth : Nat) (f : Found) (b : Bytes × Item) : Except Reason Found :=
  if b.1 = keyBag then takeKey f fun _ => .ok b.2.encoding
  else if b.1 = encryptedKeyBag then
    takeKey f fun _ => do
      let (a, text) ← readAll b.2.encoding encryptedKey
      decrypt a text
  else if b.1 = certificateBag then do
    match ← readAll b.2.encoding boxedCertificate with
    | (id, some der) =>
      if id = x509Id then
        return { f with certificates := f.certificates ++ [← readCertificate der] }
      else return f
    | _ => return f
  else if b.1 = nestedBag then
    match depth with
    | 0 => .ok f
    | depth + 1 => do (← bags b.2.encoding).foldlM (takeBag depth) f
  else .ok f
termination_by depth

/-- The most levels of bags in bags. -/
def maxDepth : Nat := 16

/-- Takes the bags of a content. -/
def takeContent (f : Found) (c : Content) : Except Reason Found :=
  match c.body with
  | none => .ok f
  | some body =>
    if c.id = plainId then do (← bags body.content).foldlM (takeBag maxDepth) f
    else if c.id = encryptedId then do
      let (a, text) ← readAll body.encoding encryptedContent
      (← bags (← decrypt a text)).foldlM (takeBag maxDepth) f
    else .ok f

/-- What is in a container. -/
def read (der : Bytes) : Except Reason Found := do
  let (outer, mac?) ← readAll der parser
  match outer.id == plainId, outer.body with
  | true, some body =>
    if mac?.any fun m => !isProtected m body.content then .error .macVerifyFailure
    let contents ← readAll body.content (Parser.sequence (Parser.many content))
    contents.foldlM takeContent ⟨none, []⟩
  | _, _ => .error .notData

end Container

/-! ## Credentials -/

/-- The key in a container, as a key of its algorithm. -/
def keyOf? (k : Algorithm × Bytes) : Option PrivateKey :=
  PrivateKey.ofPkcs8? .relaxed
    (writeSequence [PrivateKey.writeNatural 0, k.1.encode, write octetStringTag k.2])

/-- What stands for a key behind its algorithm. A key on a curve states its point. -/
def keyBody (k : PrivateKey) (written : Bytes) : Bytes :=
  match k with
  | .ec curve scalar point =>
    match point <|> PrivateKey.point? curve scalar with
    | some p =>
      writeSequence [PrivateKey.writeNatural 1, write octetStringTag scalar,
        write (fieldTag 1) (write bitStringTag (0 :: p))]
    | none => written
  | _ => written

/-- A private key as text. -/
def writeKey (k : PrivateKey) (a : Algorithm) (written : Bytes) : Bytes :=
  PemSection.encode ⟨Bytes.ofString "PRIVATE KEY",
    writeSequence [PrivateKey.writeNatural 0, a.encode,
      write octetStringTag (keyBody k written)]⟩

/-- A certificate as text. -/
def writeCertificate (c : X509) : Bytes :=
  PemSection.encode ⟨Bytes.ofString "CERTIFICATE", c.encoding⟩

/-- The certificate of a key, and the others, in their order. -/
def splitChain (key : PublicKeyInfo) (certificates : List X509) : Option (X509 × List X509) :=
  let (before, from_) := certificates.span fun c => (mismatch? c key).isSome
  match from_ with
  | leaf :: after => some (leaf, before ++ after)
  | [] => none

/-- The credential in a container. -/
def importContainer (der : Bytes) : Except SetupError Credential :=
  match Container.read der with
  | .error reason => .error (.certificate s!"Not a valid PKCS12 file: {reason.text}")
  | .ok found =>
    let chain := do
      let written ← found.key
      let key ← keyOf? written
      let (leaf, others) ← splitChain (← key.publicInfo?) found.certificates
      return (writeKey key written.1 written.2, leaf :: others)
    match chain with
    | none => .error (.certificate "PKCS12 file does not contain certificates")
    | some (key, certificates) => .ok ⟨certificates.flatMap writeCertificate, key⟩

/-- How the classic provider reads credentials. -/
def credentialFormat : CredentialFormat where
  parseCertificates text :=
    ((readCertificates text).map fun cs => cs.map X509.encoding).mapError Reason.error
  check c := (Identity.ofCredential c).map fun _ => ()
  importContainer := importContainer

end TlsTransport.Classic
