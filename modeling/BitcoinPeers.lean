import BitcoinPeers.Foundation.Machine
import BitcoinPeers.Foundation.Simulation
import BitcoinPeers.Foundation.Sequences
import BitcoinPeers.Foundation.Text
import BitcoinPeers.Foundation.Process
import BitcoinPeers.Foundation.Filling
import BitcoinPeers.Error
import BitcoinPeers.Peer
import BitcoinPeers.Transport.V1
import BitcoinPeers.Transport.Framing
import BitcoinPeers.Transport.Replay
import BitcoinPeers.Transport.RoundTrip
import BitcoinPeers.Transport.Allocation
import BitcoinPeers.Transport.Arrival
import BitcoinPeers.Transport.V2
import BitcoinPeers.Connection.Message
import BitcoinPeers.Connection.Configuration
import BitcoinPeers.Connection.State
import BitcoinPeers.Connection.Handshake
import BitcoinPeers.Connection.UserAgent
import BitcoinPeers.Connection.UserAgentGrammar
import BitcoinPeers.Connection.Transcript
import BitcoinPeers.Connection.Outcome
import BitcoinPeers.Connection.Lifetime
import BitcoinPeers.Connection.Duplex
import BitcoinPeers.Connection.Agreement
import BitcoinPeers.Connection.Wire
import BitcoinPeers.Connection.WireRefinement
import BitcoinPeers.Connection.WireAgreement
import BitcoinPeers.Connection.WireTermination
import BitcoinPeers.Connection.SelfConnection
import BitcoinPeers.Connection.Tcp
import BitcoinPeers.Connection.Failure
import BitcoinPeers.Connection.Conversation
import BitcoinPeers.Connection.Outbound
import BitcoinPeers.Connection.Stream
import BitcoinPeers.Connection.Torn
import BitcoinPeers.Connection.Script
import BitcoinPeers.Connection.Packets
import BitcoinPeers.Connection.Usage
import BitcoinPeers.Crawler.Harvest
import BitcoinPeers.Connection.Inbound
import BitcoinPeers.Connection.Accept
import BitcoinPeers.Crawler.Session
import BitcoinPeers.Crawler.Transitions
import BitcoinPeers.Crawler.Accounting
import BitcoinPeers.Crawler.History
import BitcoinPeers.Crawler.Completeness
import BitcoinPeers.Crawler.HangUp
import BitcoinPeers.Crawler.AfterHangUp
import BitcoinPeers.Crawler.Provenance
import BitcoinPeers.Crawler.Causality
import BitcoinPeers.Crawler.Termination
import BitcoinPeers.Crawler.Unfiltered
import BitcoinPeers.Crawler.FilterRelation
import BitcoinPeers.Crawler.FilterLag
import BitcoinPeers.Crawler.FilterLead
import BitcoinPeers.Crawler.Connection
import BitcoinPeers.Crawler.Exchange
import BitcoinPeers.Crawler.Reporting
import BitcoinPeers.Crawler.Shutdown
import BitcoinPeers.Crawler.Endpoints
import BitcoinPeers.Crawler.Closure
import BitcoinPeers.Crawler.Duplicates
import BitcoinPeers.Crawler.Builder
import BitcoinPeers.Crawler.Delivery
import BitcoinPeers.Crawler.Backpressure
import BitcoinPeers.Crawler.Evidence
