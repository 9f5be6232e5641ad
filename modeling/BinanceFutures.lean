import BinanceFutures.Gateway.Controller
import BinanceFutures.Gateway.Correlation
import BinanceFutures.Gateway.DropCopy
import BinanceFutures.Gateway.Fills
import BinanceFutures.Gateway.Oms
import BinanceFutures.Gateway.Request
import BinanceFutures.Gateway.RestMemory
import BinanceFutures.Gateway.RestSlots
import BinanceFutures.Gateway.RestStream
import BinanceFutures.Gateway.Session
import BinanceFutures.Gateway.Settings
import BinanceFutures.Gateway.SocketMemory
import BinanceFutures.Gateway.Startup
import BinanceFutures.Gateway.UserStream
import BinanceFutures.Gateway.WebSocket
import BinanceFutures.Protocol.Json
import BinanceFutures.Protocol.WsapiParser
import BinanceFutures.Schemes.Desk
import BinanceFutures.Schemes.Family
import BinanceFutures.Schemes.Ledger
import BinanceFutures.Schemes.Latch
import BinanceFutures.Schemes.Machine
import BinanceFutures.Schemes.Octets
import BinanceFutures.Tools.Throttle
import BinanceFutures.Gateway.ListenKeys
import BinanceFutures.Gateway.Routing
import BinanceFutures.Gateway.CancelAll
import BinanceFutures.Gateway.Lifecycle
import BinanceFutures.Gateway.Verdicts
import BinanceFutures.Gateway.Logon
import BinanceFutures.Schemes.Stages
import BinanceFutures.Schemes.Trace
import BinanceFutures.Gateway.Instruments
import BinanceFutures.Schemes.Watermark
import BinanceFutures.Gateway.RateLimits
import BinanceFutures.Schemes.Tray
import BinanceFutures.Schemes.Slices
import BinanceFutures.Schemes.Row
import BinanceFutures.Gateway.ReferenceData
import BinanceFutures.Gateway.MarketData
import BinanceFutures.Gateway.Market
import BinanceFutures.Gateway.Symbols
import BinanceFutures.Gateway.Subscriptions
import BinanceFutures.Gateway.Assets
import BinanceFutures.Gateway.TimeSeries
import BinanceFutures.Schemes.Form
import BinanceFutures.Protocol.Encoder
import BinanceFutures.Protocol.OrderRequests
import BinanceFutures.Protocol.WsapiRequest
import BinanceFutures.Gateway.Outcomes
import BinanceFutures.Gateway.RestFrames
import BinanceFutures.Gateway.Coherence
import BinanceFutures.Gateway.CancelReports
import BinanceFutures.Gateway.Batches
import BinanceFutures.Gateway.Trades
import BinanceFutures.Schemes.Scan
import BinanceFutures.Protocol.StreamParsers
import BinanceFutures.Protocol.WsapiMessages
import BinanceFutures.Protocol.UnknownMessages
import BinanceFutures.Gateway.Holdings
import BinanceFutures.Tools.Crypto
import BinanceFutures.Gateway.SignedRequests
import BinanceFutures.Gateway.Api
import BinanceFutures.Schemes.Books
import BinanceFutures.Gateway.Rest
import BinanceFutures.Gateway.Snapshots
import BinanceFutures.Schemes.Settling
import BinanceFutures.Gateway.Bars
import BinanceFutures.Gateway.Deadlines
import BinanceFutures.Schemes.Document
import BinanceFutures.Protocol.Envelope
import BinanceFutures.Gateway.Outgoing
import BinanceFutures.Gateway.Wire
import BinanceFutures.Gateway.Streams
import BinanceFutures.Gateway.Feeds
import BinanceFutures.Gateway.Downloads
import BinanceFutures.Gateway.Received
import BinanceFutures.Gateway.Serving
import BinanceFutures.Gateway.Advance
import BinanceFutures.Gateway.Completion
import BinanceFutures.Gateway.SocketServing
import BinanceFutures.Gateway.Blocked
import BinanceFutures.Gateway.SocketCompletion
import BinanceFutures.Gateway.Readiness
import BinanceFutures.Gateway.LogonProgress
