import XLN.Lib.Transition
import XLN.Lib.Height
import XLN.Lib.Before
import XLN.Utility.Pool
import XLN.Utility.PoolThreads
import XLN.Utility.PoolLifetime
import XLN.Utility.RTTI
import XLN.Foundation.ServiceMgr.Basic
import XLN.Foundation.ServiceMgr.BuildDep
import XLN.Foundation.ServiceMgr.Order
import XLN.Foundation.ServiceMgr.Init
import XLN.Foundation.ServiceMgr.Errors
import XLN.Foundation.ServiceMgr.Missing
import XLN.Foundation.ServiceMgr.Session
import XLN.Foundation.ServiceMgr.Lifecycle
import XLN.Foundation.ServiceMgr.ShutDown
import XLN.Foundation.Log
import XLN.Foundation.Task.Basic
import XLN.Foundation.Task.TaskAllocator
import XLN.Foundation.Task.BlockingQueue
import XLN.Foundation.Task.QueueCalls
import XLN.Foundation.Task.TaskBarrier
import XLN.Foundation.Task.TaskConsumer
import XLN.Foundation.Task.PostOrder
import XLN.Foundation.Task.FrameRunner
import XLN.Foundation.Task.Frames
import XLN.Foundation.Task.MPMCTaskRunner
import XLN.Foundation.Task.Runners
import XLN.Foundation.ThreadedExecutor
import XLN.Foundation.Task.TaskThread
import XLN.Foundation.Task.Ownership
import XLN.Foundation.Task.Stop
import XLN.Lib.Tape
import XLN.Lib.Trim
import XLN.Foundation.DataStream
import XLN.Foundation.ReadLine
import XLN.Utility.StringTool
import XLN.Lib.Tokens
import XLN.Utility.Split
import XLN.Lib.Glob
import XLN.Utility.Match
import XLN.Foundation.GetLine
import XLN.Foundation.StreamCopies
import XLN.Foundation.ByteOrder
import XLN.Utility.UniqueID
import XLN.Lib.Hex
import XLN.Utility.SetUID
import XLN.Foundation.Message.BaseMessage
import XLN.Foundation.Message.IMessage
import XLN.Foundation.Message.RoundTrip
import XLN.Foundation.Message.Malformed
import XLN.Foundation.Task.EventDispatcher
import XLN.Foundation.Task.Broadcast
import XLN.Lib.Cells
import XLN.Foundation.Task.TaskHandler
import XLN.Lib.LinkedList
import XLN.DebugHelper.Memory.AllocHashTable
import XLN.DebugHelper.Memory.MemTrackAllocator
import XLN.DebugHelper.Memory.Tracking
import XLN.DebugHelper.Memory.Threads
import XLN.DebugHelper.Memory.Peaks
import XLN.DebugHelper.Memory.LeakReport
import XLN.DebugHelper.MemoryMgr
import XLN.Network.GrpcService
import XLN.Network.GrpcServer
import XLN.Client.Task
import XLN.Client.DownloaderEventCurl
import XLN.Client.Transfer
import XLN.Client.DownloadService
import XLN.Client.DownloaderExit
import XLN.Lib.Owned
import XLN.Client.SocketEvents
import XLN.Foundation.ThreadPool
import XLN.Lib.BinarySearch
import XLN.Foundation.ThreadList
import XLN.Foundation.FrameExecutor
import XLN.Foundation.Executor.CPUThreadPoolExecutor
import XLN.Foundation.Executor.StopAllThread
import XLN.Foundation.Executor.SetMaxThread
import XLN.Foundation.Executor.IOThreadPoolExecutor
import XLN.Server.ServerExecutorService
import XLN.Server.Thrift.ThriftMuxService
import XLN.Lib.Base64
import XLN.Utility.Base64
import XLN.Lib.Http
import XLN.Server.Thrift.ThriftApplication
import XLN.Lib.LexicalPath
import XLN.Platform.PlatformService
import XLN.Lib.Reading
import XLN.Platform.JniSignature
import XLN.Platform.Jni
import XLN.Platform.PlatformServiceAndroid
import XLN.Framework.ConfigService
import XLN.Framework.System
