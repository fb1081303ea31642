import CoreServer.Types
import CoreServer.Lib.StepMachine
import CoreServer.Lib.Circular
import CoreServer.Lib.BoundedQueue
import CoreServer.Lib.Leases
import CoreServer.Lib.LittleEndian
import CoreServer.Lib.MapUpdates
import CoreServer.Lib.Stores
import CoreServer.Network.RecvBufferFifo
import CoreServer.Network.RecvBufferOps
import CoreServer.Network.RecvBufferReads
import CoreServer.Network.SendStream
import CoreServer.RecvJob
import CoreServer.RecvDelivery
import CoreServer.Network.SlotReuse
import CoreServer.WorkerThreadPool
import CoreServer.Server
import CoreServer.ServerMoves
import CoreServer.SendThread
import CoreServer.Network.SessionHistory
import CoreServer.Network.SlotOwnership
import CoreServer.ExclusiveJobs
import CoreServer.ServerRun
import CoreServer.SessionLife
import CoreServer.DisconnectThreads
import CoreServer.ReceiveEnd
import CoreServer.DisconnectOnce
import CoreServer.ClosedSession
import CoreServer.ConnectFirst
import CoreServer.SendOwner
import CoreServer.StrandedOutput
import CoreServer.SendOrder
import CoreServer.DeleteRun
import CoreServer.Registrations
import CoreServer.Network.SessionNumber
import CoreServer.Network.Endpoint
import CoreServer.IdleStack
import CoreServer.PoolStop
import CoreServer.JobDispatch
import CoreServer.PartialWrite
import CoreServer.ServerStop
import CoreServer.SendRight
import CoreServer.SendCopy
import CoreServer.Descriptors
import CoreServer.SendTarget
import CoreServer.WritevLength
import CoreServer.DisconnectClose
import CoreServer.ServerLifecycle
import CoreServer.StressTest.Session
import CoreServer.StressTest.Framing
import CoreServer.StressTest.Replies
import CoreServer.StressTest.PollThread
import CoreServer.StressTest.ConnectClients
import CoreServer.Game.GameWindow
import CoreServer.Lib.Simulation
import CoreServer.Lock
import CoreServer.LockedPool
import CoreServer.Network.LockedSlots
import CoreServer.EchoServer
import CoreServer.StressTest.PingLoop
import CoreServer.Lib.Delimited
import CoreServer.Logger
import CoreServer.LogRun
import CoreServer.ServerReceive
import CoreServer.ServerStreams
import CoreServer.LockedServer
import CoreServer.ServerSections
import CoreServer.ServerMutexes
import CoreServer.TestServerRun
import CoreServer.TestServerEcho
import CoreServer.TestServerClose
