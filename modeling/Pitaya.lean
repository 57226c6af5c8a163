import Pitaya.Connection.Batching
import Pitaya.Connection.Builds
import Pitaya.Connection.Events
import Pitaya.Connection.HandshakeAck
import Pitaya.Connection.Heartbeat
import Pitaya.Connection.MessageRoundTrip
import Pitaya.Connection.Recovery
import Pitaya.Connection.RequestContents
import Pitaya.Connection.ResponseOrder
import Pitaya.Connection.Watchdog
import Pitaya.Connection.Wire
import Pitaya.Stream.Link
import Pitaya.Stream.ParserProgress
import Pitaya.Stream.SendOrder
import Pitaya.Utils.Compress
