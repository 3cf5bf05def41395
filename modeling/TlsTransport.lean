import TlsTransport.Resolve
import TlsTransport.Script.Engine
import TlsTransport.Script.Socket
import TlsTransport.Tagged.Credential
import TlsTransport.Tagged.Engine
import TlsTransport.Pair
import TlsTransport.TcpHost
import TlsTransport.Context
import TlsTransport.X509.Identity
import TlsTransport.Strict.Engine
import TlsTransport.Classic.Engine
import TlsTransport.Proofs.Session.Steps
import TlsTransport.Proofs.Session.Turns
import TlsTransport.Proofs.Session.Journal
import TlsTransport.Proofs.Session.Ledger
import TlsTransport.Proofs.Session.Gate
import TlsTransport.Proofs.Session.Resumption
import TlsTransport.Proofs.Tagged.Peers
import TlsTransport.Proofs.Pair.Handshake
import TlsTransport.Proofs.Pair.Joined
import TlsTransport.Proofs.Pair.Delivery
import TlsTransport.Proofs.Session.Terminal
import TlsTransport.Proofs.Session.Truncation
import TlsTransport.Proofs.Session.PeerName
import TlsTransport.Proofs.Session.Rounds
import TlsTransport.Proofs.Session.Farewell
import TlsTransport.Proofs.Tagged.Cutting
import TlsTransport.Proofs.Stream.Feed
import TlsTransport.Proofs.Stream.Drive
import TlsTransport.Proofs.Tagged.Fate
import TlsTransport.Proofs.Stream.Heading
import TlsTransport.Proofs.Stream.Course
import TlsTransport.Proofs.Stream.Segments
import TlsTransport.Proofs.Session.Renegotiation
import TlsTransport.Proofs.Session.Advance
import TlsTransport.Proofs.Session.Agreement
import TlsTransport.Proofs.Session.Discipline
import TlsTransport.Proofs.Context.Coherence
import TlsTransport.Proofs.Session.Loops
import TlsTransport.Proofs.Session.Effort
import TlsTransport.Proofs.Session.Direction
import TlsTransport.Proofs.Session.StreamEnd
import TlsTransport.Proofs.Socket.Interruption
import TlsTransport.Proofs.Session.Interruption
import TlsTransport.Proofs.Session.Repetition
import TlsTransport.Proofs.Session.Payload
import TlsTransport.Proofs.Connection.Interruption
import TlsTransport.Proofs.Hostname.Verification
import TlsTransport.Proofs.Session.EmptyHost
import TlsTransport.Proofs.Address.Entries
import TlsTransport.Proofs.CipherPolicy.Filtering
import TlsTransport.Proofs.Identity.Lookup
import TlsTransport.Proofs.CipherPolicy.Rule
import TlsTransport.Proofs.Buffer.Queue
import TlsTransport.Proofs.Session.Cause
import TlsTransport.Proofs.Connection.Waiting
import TlsTransport.Proofs.Identity.Directory
import TlsTransport.Proofs.SessionInfo.Grammar
