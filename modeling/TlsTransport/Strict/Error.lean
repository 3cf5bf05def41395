import TlsTransport.Protocol.Record
import TlsTransport.SetupError
import TlsTransport.Strict.ServerName

/-! # Failures of the strict provider

* `CertificateFault`: what is wrong with a certificate or its chain.
* `Strict.Error`: why a connection or a configuration failed.
-/

namespace TlsTransport.Strict

/-- What is wrong with a certificate or its chain. -/
inductive CertificateFault where
  | badEncoding
  | unknownIssuer
  | badSignature
  | expired
  | notYetValid
  /-- It is valid for other names only, each in its written form. -/
  | otherNames (expected : ServerName) (presented : List String)
  | caUsedAsEndEntity
  | endEntityUsedAsCa
  | unsupportedVersion
  | unsupportedCriticalExtension
  | extensionValueInvalid
  | signatureAlgorithmMismatch
  | pathTooLong
  | purposeNotIncluded
  | unsupportedSignatureAlgorithm
  deriving DecidableEq, Repr

/-- A fault as it stands in texts. -/
def CertificateFault.render : CertificateFault → String
  | badEncoding => "BadEncoding"
  | unknownIssuer => "UnknownIssuer"
  | badSignature => "BadSignature"
  | expired => "Expired"
  | notYetValid => "NotValidYet"
  | otherNames expected presented =>
    let names := bracketed (presented.map quoted)
    s!"NotValidForNameContext \x7b expected: {expected.render}, presented: {names} \x7d"
  | caUsedAsEndEntity => "Other(OtherError(CaUsedAsEndEntity))"
  | endEntityUsedAsCa => "Other(OtherError(EndEntityUsedAsCa))"
  | unsupportedVersion => "Other(OtherError(UnsupportedCertVersion))"
  | unsupportedCriticalExtension => "Other(OtherError(UnsupportedCriticalExtension))"
  | extensionValueInvalid => "Other(OtherError(ExtensionValueInvalid))"
  | signatureAlgorithmMismatch => "Other(OtherError(SignatureAlgorithmMismatch))"
  | pathTooLong => "Other(OtherError(PathLenConstraintViolated))"
  | purposeNotIncluded => "InvalidPurpose"
  | unsupportedSignatureAlgorithm => "UnsupportedSignatureAlgorithm"

/-- What is wrong with a record. -/
inductive RecordFault where
  | contentType
  | version
  | emptyPayload
  | length
  /-- A handshake message makes no sense. -/
  | message
  deriving DecidableEq, Repr

/-- A fault of a record as it stands in texts. -/
def RecordFault.render : RecordFault → String
  | contentType => "InvalidContentType"
  | version => "UnknownProtocolVersion"
  | emptyPayload => "InvalidEmptyPayload"
  | length => "MessageTooLarge"
  | message => "MessageTooShort"

/-- A kind of records as it stands in texts. -/
def kindName (kind : UInt8) : String :=
  if kind = Record.cipherChange then "ChangeCipherSpec"
  else if kind = Record.alert then "Alert"
  else if kind = Record.handshake then "Handshake"
  else if kind = Record.data then "ApplicationData"
  else "Heartbeat"

/-- Why a connection or a configuration failed. -/
inductive Error where
  | certificate (fault : CertificateFault)
  /-- With the code of the alert. -/
  | alert (code : UInt8)
  /-- A record cannot be read. -/
  | corrupt (fault : RecordFault)
  | undecryptable
  /-- A record of a kind that does not belong to a handshake. -/
  | unexpectedRecord (kind : UInt8)
  | tooManyWarnings
  | noCommonVersion
  | noCommonSuite
  | noCertificates
  | keyMismatch
  | unusableKey
  | noUsableSuites
  deriving DecidableEq, Repr

/-- The name of an alert. -/
def alertName (code : UInt8) : String :=
  match code.toNat with
  | 0 => "CloseNotify"
  | 10 => "UnexpectedMessage"
  | 20 => "BadRecordMac"
  | 21 => "DecryptionFailed"
  | 22 => "RecordOverflow"
  | 30 => "DecompressionFailure"
  | 40 => "HandshakeFailure"
  | 41 => "NoCertificate"
  | 42 => "BadCertificate"
  | 43 => "UnsupportedCertificate"
  | 44 => "CertificateRevoked"
  | 45 => "CertificateExpired"
  | 46 => "CertificateUnknown"
  | 47 => "IllegalParameter"
  | 48 => "UnknownCA"
  | 49 => "AccessDenied"
  | 50 => "DecodeError"
  | 51 => "DecryptError"
  | 60 => "ExportRestriction"
  | 70 => "ProtocolVersion"
  | 71 => "InsufficientSecurity"
  | 80 => "InternalError"
  | 86 => "InappropriateFallback"
  | 90 => "UserCanceled"
  | 100 => "NoRenegotiation"
  | 109 => "MissingExtension"
  | 110 => "UnsupportedExtension"
  | 111 => "CertificateUnobtainable"
  | 112 => "UnrecognisedName"
  | 113 => "BadCertificateStatusResponse"
  | 114 => "BadCertificateHashValue"
  | 115 => "UnknownPSKIdentity"
  | 116 => "CertificateRequired"
  | 120 => "NoApplicationProtocol"
  | 121 => "EncryptedClientHelloRequired"
  | _ =>
    let digits := Bytes.toHex [code]
    s!"AlertDescription(0x{digits})"

namespace Error

/-- The text of a failure. -/
def message : Error → String
  | certificate fault => s!"invalid peer certificate: {fault.render}"
  | alert code => s!"received fatal alert: {alertName code}"
  | corrupt fault => s!"received corrupt message of type {fault.render}"
  | undecryptable => "cannot decrypt peer's message"
  | unexpectedRecord kind =>
    s!"received unexpected message: got {kindName kind} when expecting Handshake"
  | tooManyWarnings => "peer misbehaved: TooManyWarningAlertsReceived"
  | noCommonVersion => "peer is incompatible: Tls12NotOfferedOrEnabled"
  | noCommonSuite => "peer is incompatible: NoCipherSuitesInCommon"
  | noCertificates => "peer sent no certificates"
  | keyMismatch => "keys may not be consistent: KeyMismatch"
  | unusableKey => "unexpected error: failed to parse private key as RSA, ECDSA, or EdDSA"
  | noUsableSuites => "unexpected error: no usable cipher suites configured"

/-- The alert that tells the peer of a failure. -/
def alertCode? : Error → Option UInt8
  | certificate .badEncoding | certificate (.otherNames ..) => some 42
  | certificate .purposeNotIncluded => some 43
  | certificate .expired | certificate .notYetValid => some 45
  | certificate .unknownIssuer => some 48
  | certificate .badSignature | certificate .unsupportedSignatureAlgorithm => some 51
  | certificate _ => some 46
  | unexpectedRecord _ => some 10
  | undecryptable => some 20
  | noCommonSuite => some 40
  | corrupt _ => some 50
  | noCommonVersion => some 70
  | noCertificates => some 116
  | alert _ | tooManyWarnings | keyMismatch | unusableKey | noUsableSuites => none

/-- A failure of a configuration. -/
def setup (e : Error) : SetupError := .provider .strict e.message

end Error
end TlsTransport.Strict
