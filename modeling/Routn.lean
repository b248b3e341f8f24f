import Routn.Address.Ipv6Text
import Routn.Address.Lookup
import Routn.Address.Ordering
import Routn.Address.Subnet
import Routn.Address.Uri.Dump
import Routn.ByteArray.File
import Routn.ByteArray.NullNode
import Routn.ByteArray.ScatterWrite
import Routn.ByteArray.Zigzag64
import Routn.ChatRoom.ChatServlet
import Routn.Config.ConfigVar
import Routn.Config.LoadFromYaml
import Routn.Db.Leases
import Routn.Db.RedisReply
import Routn.Db.Sqlite
import Routn.Dns
import Routn.Ds.HashTimedCache
import Routn.FiberSync.Handover
import Routn.Hook.NonBlocking
import Routn.Hook.Timeouts
import Routn.Hook.UniqueCtx
import Routn.Http.ContentEncoding
import Routn.Http.ContentLength
import Routn.Http.Fragments
import Routn.Http.KeepAlive
import Routn.Http.LengthSafety
import Routn.Http.Params
import Routn.Http.PoolAccounting
import Routn.Http.RoundTrip
import Routn.Http.ServletDispatch
import Routn.IoManager.DoIo
import Routn.IoManager.Growth
import Routn.IoManager.Timeout
import Routn.JsonUtil
import Routn.LoadBalance.InFlight
import Routn.LoadBalance.LatestView
import Routn.LoadBalance.Proportional
import Routn.LoadBalance.Window
import Routn.Log.LogIniter
import Routn.Modules.ModuleManager
import Routn.Ns.ClientView
import Routn.Ns.Registry
import Routn.Orm.Dao
import Routn.Rpc.Answers
import Routn.Rpc.GzipBody
import Routn.Rpc.RockCodec
import Routn.Schedular.Sharing
import Routn.Schedular.Stopping
import Routn.Streams.SendQueue
import Routn.Timer.EarlyFiring
import Routn.Timer.Expired
import Routn.Util.Base64
import Routn.Util.Replace
import Routn.WorkerGroup.Permits
