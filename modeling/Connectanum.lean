import Connectanum.Auth.Patterns
import Connectanum.Auth.Precedence
import Connectanum.Boss.Outbound
import Connectanum.Client.Chunks
import Connectanum.Client.FileTransfer
import Connectanum.Client.Handlers
import Connectanum.Client.Handshakes
import Connectanum.Client.Interrupts
import Connectanum.Client.MetaConvergence
import Connectanum.Flat.Dictionaries
import Connectanum.Flat.Grammar
import Connectanum.Handshake.Conduct
import Connectanum.Handshake.FailureTable
import Connectanum.Handshake.Identity
import Connectanum.Handshake.LockoutKept
import Connectanum.Http.AuthBody
import Connectanum.Http.RateLimit
import Connectanum.Http.RouteSelection
import Connectanum.Message.LazyRuns
import Connectanum.Message.PackedView
import Connectanum.Mqtt.Broker
import Connectanum.Mqtt.Delivery
import Connectanum.Mqtt.Framing
import Connectanum.Mqtt.GatewayQueue
import Connectanum.Mqtt.Outbound
import Connectanum.Mqtt.Stream
import Connectanum.Mqtt.TopicUris
import Connectanum.Native.Agreement
import Connectanum.Native.ExternalLeases
import Connectanum.Native.MessageHandles
import Connectanum.Native.MsgPackValues
import Connectanum.Native.TlsAccepts
import Connectanum.Router.Cancels
import Connectanum.Router.Relay
import Connectanum.Router.Replies
import Connectanum.Router.Topics
import Connectanum.Serializer.CborSkip
import Connectanum.Serializer.JsonBinary
import Connectanum.Serializer.MsgPackSkip
import Connectanum.State.BestMatch
import Connectanum.State.MetaMatch
import Connectanum.State.Rejections
import Connectanum.State.Replay
import Connectanum.State.RoundRobin
import Connectanum.State.Timers
import Connectanum.State.Versions
import Connectanum.Wire.FrameHeaders
import Connectanum.Wire.Negotiation
import Connectanum.Wire.SentFrames
