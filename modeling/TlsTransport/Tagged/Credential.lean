import TlsTransport.Credential
import TlsTransport.Text.Utf8

/-! # Credentials of the tagged-record protocol

Certificates and keys are lines of text: `cert:` and the bytes in hexadecimal, `key:` and anything.
A key container is such a text behind a line of its own.
-/

namespace TlsTransport.Tagged

/-- The lines of a text. -/
def lines (text : Bytes) : List String := (Bytes.toText text).splitOn "\n"

/-- What follows a label at the start of a line. -/
def after? (label line : String) : Option String :=
  if label.toList.isPrefixOf line.toList then
    some (String.ofList (line.toList.drop label.toList.length))
  else none

/-- The certificate on a line, if it is one. -/
def certificate? (line : String) : Except SetupError (Option Bytes) :=
  match after? "cert:" line with
  | none => .ok none
  | some text =>
    match Bytes.ofHex? text with
    | some der => .ok (some der)
    | none => .error (.certificate s!"bad line {line}")

/-- The line that opens a key container. -/
def containerHeader : Bytes := Bytes.ofString "P12\n"

/-- How the tagged-record protocol reads credentials. -/
def credentialFormat : CredentialFormat where
  parseCertificates text := (·.filterMap id) <$> (lines text).mapM certificate?
  check c :=
    if (lines c.key).any fun line => (after? "key:" line).isSome then .ok ()
    else .error (.certificate "private key not found")
  importContainer bytes :=
    if containerHeader.isPrefixOf bytes then .ok (.ofBundle (bytes.drop containerHeader.length))
    else .error (.certificate "Not a valid PKCS12 file")

end TlsTransport.Tagged
