import TlsTransport.Asn1
import TlsTransport.SetupError

/-! # Reasons of the classic provider

The classic provider gives one reason for each of its refusals, which stands in brackets in every
text. Some refusals come without one.
-/

namespace TlsTransport.Classic

/-- Why the classic provider refuses something. -/
inductive Reason where
  | asn1 (fault : Asn1.Fault)
  | badBase64
  | badEndLine
  | notProcType
  | unsupported
  | macVerifyFailure
  | notData
  | badDecrypt
  | keyValuesMismatch
  | noCertificateAssigned
  | leafKeyTooSmall
  | caKeyTooSmall
  | caDigestTooWeak
  | noCipherMatch
  | invalidServerName
  /-- A fatal alert of the peer, by its code. -/
  | alert (code : UInt8)
  | invalidAlert
  | unknownAlertType
  | tooManyWarnings
  | noRenegotiation
  | unexpectedMessage
  | wrongVersion
  | httpRequest
  | httpsProxyRequest
  | packetTooLong
  | bodyTooLong
  | contentTooLong
  | badRecordKind
  | badCipherChange
  | undecryptable
  | peerWithoutCertificate
  | shutdownTooEarly
  | alreadyShutDown
  | unnamed
  deriving DecidableEq, Repr

/-- The words for a fault in an encoding. -/
def asn1Text : Asn1.Fault → String
  | .tooSmall => "too small"
  | .headerTooLong => "header too long"
  | .tooLong => "too long"
  | .badHeader => "bad object header"
  | .wrongTag => "wrong tag"
  | .fieldMissing => "field missing"
  | .unexpectedEnd => "unexpected eoc"
  | .lengthMismatch => "sequence length mismatch"
  | .notConstructed => "sequence not constructed"
  | .emptyNumber => "illegal zero content"
  | .paddedNumber => "illegal padding"
  | .badBits => "invalid bit string bits left"
  | .badIdentifier => "invalid object encoding"
  | .badTime => "invalid time format"
  | .badText => "invalid utf8string"
  | .badValue => "invalid value"

/-- The words for an alert. -/
def alertText (code : UInt8) : String :=
  match code.toNat with
  | 10 => "sslv3 alert unexpected message"
  | 20 => "sslv3 alert bad record mac"
  | 21 => "tlsv1 alert decryption failed"
  | 22 => "tlsv1 alert record overflow"
  | 30 => "sslv3 alert decompression failure"
  | 40 => "sslv3 alert handshake failure"
  | 41 => "sslv3 alert no certificate"
  | 42 => "sslv3 alert bad certificate"
  | 43 => "sslv3 alert unsupported certificate"
  | 44 => "sslv3 alert certificate revoked"
  | 45 => "sslv3 alert certificate expired"
  | 46 => "sslv3 alert certificate unknown"
  | 47 => "sslv3 alert illegal parameter"
  | 48 => "tlsv1 alert unknown ca"
  | 49 => "tlsv1 alert access denied"
  | 50 => "tlsv1 alert decode error"
  | 51 => "tlsv1 alert decrypt error"
  | 60 => "tlsv1 alert export restriction"
  | 70 => "tlsv1 alert protocol version"
  | 71 => "tlsv1 alert insufficient security"
  | 80 => "tlsv1 alert internal error"
  | 86 => "tlsv1 alert inappropriate fallback"
  | 90 => "tlsv1 alert user cancelled"
  | 100 => "tlsv1 alert no renegotiation"
  | 109 => "tlsv13 alert missing extension"
  | 110 => "tlsv1 unsupported extension"
  | 111 => "tlsv1 certificate unobtainable"
  | 112 => "tlsv1 unrecognized name"
  | 113 => "tlsv1 bad certificate status response"
  | 114 => "tlsv1 bad certificate hash value"
  | 115 => "tlsv1 alert unknown psk identity"
  | 116 => "tlsv13 alert certificate required"
  | 120 => "tlsv1 alert no application protocol"
  | n => s!"reason({1000 + n})"

/-- A reason as it stands in a text. -/
def Reason.text : Reason → String
  | asn1 fault => s!"[{asn1Text fault}]"
  | badBase64 => "[bad base64 decode]"
  | badEndLine => "[bad end line]"
  | notProcType => "[not proc type]"
  | unsupported => "[unsupported]"
  | macVerifyFailure => "[mac verify failure]"
  | notData => "[content type not data]"
  | badDecrypt => "[bad decrypt]"
  | keyValuesMismatch => "[key values mismatch]"
  | noCertificateAssigned => "[no certificate assigned]"
  | leafKeyTooSmall => "[ee key too small]"
  | caKeyTooSmall => "[ca key too small]"
  | caDigestTooWeak => "[ca md too weak]"
  | noCipherMatch => "[no cipher match]"
  | invalidServerName => "[ssl3 ext invalid servername]"
  | alert code => s!"[{alertText code}]"
  | invalidAlert => "[invalid alert]"
  | unknownAlertType => "[unknown alert type]"
  | tooManyWarnings => "[too many warn alerts]"
  | noRenegotiation => "[no renegotiation]"
  | unexpectedMessage => "[unexpected message]"
  | wrongVersion => "[wrong version number]"
  | httpRequest => "[http request]"
  | httpsProxyRequest => "[https proxy request]"
  | packetTooLong => "[packet length too long]"
  | bodyTooLong => "[encrypted length too long]"
  | contentTooLong => "[data length too long]"
  | badRecordKind => "[bad record type]"
  | badCipherChange => "[bad change cipher spec]"
  | undecryptable => "[decryption failed or bad record mac]"
  | peerWithoutCertificate => "[peer did not return a certificate]"
  | shutdownTooEarly => "[shutdown while in init]"
  | alreadyShutDown => "[protocol is shutdown]"
  | unnamed => "OpenSSL error"

/-- A refusal on its own. -/
def Reason.error (r : Reason) : SetupError := .provider .classic r.text

end TlsTransport.Classic
