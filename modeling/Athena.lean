import Athena.ForStd.BinaryHeap
import Athena.ForStd.Block
import Athena.ForStd.BoundedQueue
import Athena.ForStd.Calls
import Athena.ForStd.Chain
import Athena.ForStd.Cyclic
import Athena.ForStd.Framing
import Athena.ForStd.NamedFields
import Athena.ForStd.Precedence
import Athena.ForStd.ProducerQueue
import Athena.ForStd.Reader
import Athena.ForStd.Run
import Athena.ForStd.Slots
import Athena.ForStd.Smear
import Athena.ForStd.SortedMap
import Athena.ForStd.Traced
import Athena.ForStd.UvLoop
import Athena.Native.Actor
import Athena.Native.ActorLife
import Athena.Native.ActorSystem
import Athena.Native.BsonCodegen
import Athena.Native.ByteBuf
import Athena.Native.ByteConverter
import Athena.Native.CfgBean
import Athena.Native.CfgSchema
import Athena.Native.CfgTables
import Athena.Native.Channel
import Athena.Native.ChannelIds
import Athena.Native.ClientPort
import Athena.Native.Cluster
import Athena.Native.CsvParser
import Athena.Native.CxxBlocks
import Athena.Native.CxxMethods
import Athena.Native.DBThreadPool
import Athena.Native.Decoder
import Athena.Native.Discovery
import Athena.Native.EventLoop
import Athena.Native.ExprText
import Athena.Native.GameActor
import Athena.Native.GameLogin
import Athena.Native.GamePlayer
import Athena.Native.GatewaySession
import Athena.Native.Generate
import Athena.Native.GenerateLua
import Athena.Native.Heap
import Athena.Native.IdlEvents
import Athena.Native.IdlParser
import Athena.Native.IdleStateHandler
import Athena.Native.Json
import Athena.Native.JsonObjects
import Athena.Native.JsonReader
import Athena.Native.LoginService
import Athena.Native.LoopWake
import Athena.Native.MessagePool
import Athena.Native.MongodbDAO
import Athena.Native.NetworkWire
import Athena.Native.ObjectPool
import Athena.Native.ParserRun
import Athena.Native.PeerConn
import Athena.Native.PeerLinks
import Athena.Native.PlayerOnlineService
import Athena.Native.PoolThreads
import Athena.Native.RedisResult
import Athena.Native.RingByteBuf
import Athena.Native.RingSpsc
import Athena.Native.RouteMgr
import Athena.Native.ServerEventLoop
import Athena.Native.Snowflake
import Athena.Native.SqlPrepare
import Athena.Native.SqlResultSet
import Athena.Native.Timer
import Athena.Native.Token
import Athena.Spec.ActorMailbox
import Athena.Spec.ActorShutdown
import Athena.Spec.ByteBufQueue
import Athena.Spec.ByteBufWire
import Athena.Spec.CfgBytes
import Athena.Spec.CfgLoad
import Athena.Spec.CfgTruncation
import Athena.Spec.ChannelFlags
import Athena.Spec.ChannelIdWrap
import Athena.Spec.ChannelLife
import Athena.Spec.ChannelLifecycle
import Athena.Spec.ClientIsolation
import Athena.Spec.ClusterHandshake
import Athena.Spec.ClusterIdentity
import Athena.Spec.CodecAgreement
import Athena.Spec.CommentBlanks
import Athena.Spec.Connection
import Athena.Spec.ConnectionDelivery
import Athena.Spec.ConnectionOrder
import Athena.Spec.ConnectionProgress
import Athena.Spec.CsvCells
import Athena.Spec.CxxLists
import Athena.Spec.DBRouting
import Athena.Spec.DiscoveryNodes
import Athena.Spec.ExprAgreement
import Athena.Spec.ExprTrees
import Athena.Spec.Frame
import Athena.Spec.FrameDelivery
import Athena.Spec.FrameRoundTrip
import Athena.Spec.GatewayProxy
import Athena.Spec.GatewaySteps
import Athena.Spec.GhostSession
import Athena.Spec.HandleSafety
import Athena.Spec.Handoff
import Athena.Spec.HandshakeSteps
import Athena.Spec.HeaderCheck
import Athena.Spec.HeapShape
import Athena.Spec.HeartBeats
import Athena.Spec.IdlNames
import Athena.Spec.IdlObjects
import Athena.Spec.IdlRoundTrip
import Athena.Spec.IdlRuns
import Athena.Spec.IdlTypes
import Athena.Spec.IfChains
import Athena.Spec.IfStatements
import Athena.Spec.JsonAccepts
import Athena.Spec.JsonBounds
import Athena.Spec.JsonContainers
import Athena.Spec.JsonDeviations
import Athena.Spec.JsonErrors
import Athena.Spec.JsonGrammar
import Athena.Spec.JsonNodes
import Athena.Spec.JsonRoundTrip
import Athena.Spec.KeepAlive
import Athena.Spec.LoginAgreement
import Athena.Spec.LoginResponse
import Athena.Spec.LoopHandles
import Athena.Spec.LoopInv
import Athena.Spec.LoopSteps
import Athena.Spec.LoopStop
import Athena.Spec.LoopWakeUp
import Athena.Spec.LuaMethods
import Athena.Spec.MessageReturn
import Athena.Spec.MethodAgreement
import Athena.Spec.MethodLoops
import Athena.Spec.MethodRuns
import Athena.Spec.MethodSteps
import Athena.Spec.OnePlayer
import Athena.Spec.OnlineTable
import Athena.Spec.ParamBuffers
import Athena.Spec.Parse
import Athena.Spec.ParserHalts
import Athena.Spec.ParserSteps
import Athena.Spec.PeerIndex
import Athena.Spec.PeerLists
import Athena.Spec.PeerRegistry
import Athena.Spec.PlayerInv
import Athena.Spec.PoolInvariants
import Athena.Spec.RecordSafety
import Athena.Spec.RedisCursor
import Athena.Spec.ResultFields
import Athena.Spec.RingCapacity
import Athena.Spec.RingContents
import Athena.Spec.RingQueue
import Athena.Spec.RingSafety
import Athena.Spec.RouteTransfer
import Athena.Spec.ScannedTokens
import Athena.Spec.Segmentation
import Athena.Spec.SendPath
import Athena.Spec.SnowflakeIds
import Athena.Spec.TimerClock
import Athena.Spec.TimerHeap
import Athena.Spec.TwoBackends
import Athena.Spec.TypedefChains
