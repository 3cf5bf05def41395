import TlsTransport.Credential
import TlsTransport.Fingerprint
import TlsTransport.Status

/-! # Identity stores

A store holds identities, and a credential may be named by the fingerprint of its certificate.

* `IdentityStore.directory`: the identities kept as files of one directory, in the order of their
  names.
* `findIdentity`: the first identity whose certificate has a fingerprint.
-/

namespace TlsTransport

/-- An identity as a store holds it. -/
inductive StoredIdentity where
  /-- A text with a chain and its key. -/
  | text (bytes : Bytes)
  /-- A key container without a password. -/
  | container (bytes : Bytes)
  deriving DecidableEq, Repr

/-- A source of identities. -/
structure IdentityStore where
  /-- What the log calls it. -/
  description : String
  identities : Except SetupError (List StoredIdentity)

namespace IdentityStore

/-! ## Directories -/

/-- A letter in lower case; only ASCII letters change. -/
def lower (b : UInt8) : UInt8 := if 0x41 ≤ b ∧ b ≤ 0x5a then b + 0x20 else b

/-- What follows the last dot of a name, when something stands before that dot. -/
def extension? (name : FileName) : Option Bytes :=
  let ext := (name.reverse.takeWhile (· != 0x2e)).reverse
  if ext.length + 1 < name.length then some ext else none

/-- The identity in a directory entry: a file whose extension is that of a text or a container. -/
def ofEntry? (e : DirectoryEntry) : Option StoredIdentity :=
  match e.content, (extension? e.name).map (·.map lower) with
  | some bytes, some ext =>
    if ext = Bytes.ofString "pem" then some (.text bytes)
    else if ext = Bytes.ofString "p12" ∨ ext = Bytes.ofString "pfx" then some (.container bytes)
    else none
  | _, _ => none

/-- The identities among the entries of a directory, by name, whatever the order of the entries. -/
def ofEntries (entries : List DirectoryEntry) : List StoredIdentity :=
  (entries.mergeSort fun a b => decide (a.name ≤ b.name)).filterMap ofEntry?

/-- The store of the files directly in a directory. -/
def directory (files : FileTree) (root : String) : IdentityStore where
  description := s!"identity directory {root}"
  identities := ((files.list root).mapError .io).map ofEntries

/-! ## Fixed stores -/

/-- A store that always lists the same. -/
def fixed (identities : Except SetupError (List StoredIdentity)) : IdentityStore :=
  ⟨"list", identities⟩

end IdentityStore

/-! ## Looking identities up -/

/-- The credential of an identity. -/
def StoredIdentity.credential (format : CredentialFormat) :
    StoredIdentity → Except SetupError Credential
  | text bytes => .ok (.ofBundle bytes)
  | container bytes => format.importContainer bytes

/-- The credential of an identity and its first certificate; for an identity that cannot be used,
what the log says of it, if anything. -/
def StoredIdentity.open (format : CredentialFormat) (i : StoredIdentity) :
    Except (Option LogLine) (Credential × Bytes) :=
  match i.credential format with
  | .error e => .error (some ⟨.debug, s!"skipping unreadable PKCS#12 identity: {e.message}"⟩)
  | .ok credential =>
    match format.parseCertificates credential.chain with
    | .ok (leaf :: _) => .ok (credential, leaf)
    | .ok [] => .error none
    | .error e =>
      .error (some ⟨.debug, s!"skipping identity without certificates: {e.message}"⟩)

/-- The first identity of a list whose certificate has a fingerprint, with what is logged of those
before it. It has to pass the check. -/
def findIdentityIn (format : CredentialFormat) (fingerprint : String) :
    List StoredIdentity → Except SetupError (Option Credential) × List LogLine
  | [] => (.ok none, [])
  | i :: rest =>
    match i.open format with
    | .error line =>
      let (answer, lines) := findIdentityIn format fingerprint rest
      (answer, line.toList ++ lines)
    | .ok (credential, leaf) =>
      if fingerprintMatches leaf fingerprint then
        ((format.check credential).map fun _ => some credential, [])
      else findIdentityIn format fingerprint rest

/-- The credential in a store whose certificate has a fingerprint. -/
def findIdentity (format : CredentialFormat) (store : IdentityStore) (fingerprint : String) :
    Except SetupError (Option Credential) × List LogLine :=
  match store.identities with
  | .error e => (.error e, [])
  | .ok identities => findIdentityIn format fingerprint identities

end TlsTransport
