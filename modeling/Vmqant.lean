import Vmqant.Common.ByteStream
import Vmqant.Common.VarInt
import Vmqant.Gate.Mqtt.Pack
import Vmqant.Gate.Mqtt.Read
import Vmqant.Gate.Mqtt.Grammar
import Vmqant.Gate.Mqtt.ReadSpec
import Vmqant.Gate.Mqtt.Decode
import Vmqant.Gate.Mqtt.Write
import Vmqant.Gate.Mqtt.RoundTrip
import Vmqant.Gate.Mqtt.FrameDiscipline
import Vmqant.Common.Chan
import Vmqant.Common.Lts
import Vmqant.Rpc.NatsClient
import Vmqant.Rpc.Correlation
import Vmqant.Rpc.ReplyLoop
import Vmqant.Registry.Etcdv3Watcher
import Vmqant.Common.Keyed
import Vmqant.Selector.Cache
import Vmqant.Selector.CacheModel
import Vmqant.Registry.ConsulWatcher
import Vmqant.Selector.ConsulTracking
import Vmqant.Timer.OnTime
import Vmqant.Common.GoMap
import Vmqant.Gate.Session
import Vmqant.Gate.Handler
import Vmqant.Gate.HandlerRefinement
import Vmqant.Selector.Get
import Vmqant.Selector.Freshness
import Vmqant.Rpc.PendingTable
import Vmqant.Rpc.NatsServer
import Vmqant.Rpc.Shutdown
import Vmqant.Common.Counts
import Vmqant.Rpc.GracefulDone
import Vmqant.Common.Panic
import Vmqant.Rpc.RpcServer
import Vmqant.Rpc.OneCallback
import Vmqant.Gate.SessionAgent
import Vmqant.Gate.SessionTransport
import Vmqant.Gate.BindStorage
import Vmqant.Gate.MqttAgent
import Vmqant.Gate.OneAnswer
import Vmqant.Gate.SetPush
import Vmqant.Service.Service
import Vmqant.Service.Deregistered
import Vmqant.App.ServerList
import Vmqant.App.OneClient
import Vmqant.Selector.Announce
import Vmqant.Common.BufWriter
import Vmqant.Gate.Mqtt.Frame
import Vmqant.Gate.Mqtt.PackQueue
import Vmqant.Gate.Mqtt.WireOrder
import Vmqant.Gate.Mqtt.NoLostFlush
import Vmqant.Common.Script
import Vmqant.Gate.Mqtt.Client
import Vmqant.Gate.Mqtt.WaitPack
import Vmqant.Gate.Mqtt.Acks
import Vmqant.Gate.ReadLoop
import Vmqant.Gate.URIRoute
import Vmqant.Gate.OwnTopic
import Vmqant.Gate.Mutators
import Vmqant.Gate.AgentRun
import Vmqant.Gate.AgentNum
import Vmqant.Selector.Outage
import Vmqant.Network.TCPServer
import Vmqant.Module.ModuleManager
import Vmqant.Module.Teardown
import Vmqant.Common.Hex
import Vmqant.Common.ByteCodec
import Vmqant.Registry.Encoding
import Vmqant.Common.Endian
import Vmqant.Utils.ParamsBytes
import Vmqant.Rpc.ArgsUtil
import Vmqant.Rpc.Arguments
import Vmqant.Common.Utf8
import Vmqant.Common.Printf
import Vmqant.HttpGateway.Errors
import Vmqant.Rpc.Reply
import Vmqant.HttpGateway.Verbatim
import Vmqant.Registry.KubernetesWatcher
import Vmqant.Registry.KubernetesTracking
import Vmqant.Common.LeaseStore
import Vmqant.Common.Path
import Vmqant.Registry.Etcdv3Registry
import Vmqant.Registry.KeepAlive
import Vmqant.Registry.Etcdv3Calls
import Vmqant.Registry.GetService
import Vmqant.Registry.Isolation
import Vmqant.Gate.Mqtt.WriteLock
import Vmqant.Gate.Mqtt.PublishGrammar
import Vmqant.Gate.Mqtt.TopicRoundTrip
import Vmqant.Gate.Mqtt.Truncation
import Vmqant.Registry.TagSafety
import Vmqant.Rpc.ReplySafety
import Vmqant.Gate.IsConnect
import Vmqant.App.RouteServer
import Vmqant.Timer.RemoveTask
import Vmqant.Common.GoInt
import Vmqant.Timer.Positions
import Vmqant.HttpGateway.RequestToProto
import Vmqant.Utils.RealIP
import Vmqant.Gate.SettingsWritable
import Vmqant.Selector.Select
import Vmqant.Utils.Queue
import Vmqant.Utils.Base62
import Vmqant.Utils.Minifmt
import Vmqant.Conf.Config
import Vmqant.Gate.Mqtt.RemainingLength
import Vmqant.Timer.SlotIndex
import Vmqant.Timer.SlotRefinement
import Vmqant.Common.Disk
import Vmqant.Log.AsyncLogger
import Vmqant.Log.FileBounds
import Vmqant.Log.FlushProtocol
import Vmqant.Log.FlushReturns
import Vmqant.Log.Rotation
import Vmqant.Common.Disk
import Vmqant.Log.FileLog
import Vmqant.Log.Rotation
import Vmqant.Log.FileBounds
import Vmqant.Log.AsyncLogger
import Vmqant.Log.FlushProtocol
import Vmqant.Log.FlushReturns
import Vmqant.Rpc.RemoteCall
import Vmqant.Common.HealthAgent
import Vmqant.Registry.ConsulRegistry
import Vmqant.Registry.ConsulDiscovery
import Vmqant.Registry.KubernetesRegistry
import Vmqant.Registry.KubernetesTable
import Vmqant.HttpGateway.ServeHTTP
import Vmqant.HttpGateway.Transparent
import Vmqant.Selector.Lifecycle
import Vmqant.Selector.Closing
import Vmqant.Common.Replica
import Vmqant.Selector.Etcdv3Cache
import Vmqant.Selector.Etcdv3Tracking
import Vmqant.Registry.KubernetesStream
