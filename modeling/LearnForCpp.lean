import LearnForCpp.Lib.Outcome
import LearnForCpp.Lib.Transition
import LearnForCpp.Lib.History
import LearnForCpp.Lib.Bitmask
import LearnForCpp.Lib.Copy
import LearnForCpp.Lib.Word
import LearnForCpp.Lib.SortedSet
import LearnForCpp.Lib.Binary64
import LearnForCpp.Lib.Wakeup
import LearnForCpp.Lib.LinkedList
import LearnForCpp.Lib.Calendar
import LearnForCpp.Lib.Numeral
import LearnForCpp.Lib.AssocList
import LearnForCpp.Lib.SharedMutex
import LearnForCpp.Fault
import LearnForCpp.Reactor.Buffer
import LearnForCpp.Reactor.BufferQueue
import LearnForCpp.Reactor.BufferRoom
import LearnForCpp.Reactor.EventLoop
import LearnForCpp.Reactor.LostWakeup
import LearnForCpp.Reactor.EventLoopThread
import LearnForCpp.Reactor.EventLoopThreadJoin
import LearnForCpp.Reactor.Channel
import LearnForCpp.Reactor.Epoller
import LearnForCpp.Reactor.EpollSystem
import LearnForCpp.Reactor.TcpConnection
import LearnForCpp.Reactor.OutputStream
import LearnForCpp.Reactor.ConnSystem
import LearnForCpp.Reactor.ClosedConnection
import LearnForCpp.Reactor.SendQueue
import LearnForCpp.Reactor.CloseOnce
import LearnForCpp.Reactor.GracefulShutdown
import LearnForCpp.Reactor.Timer
import LearnForCpp.Reactor.TimerQueue
import LearnForCpp.Reactor.TimerOwnership
import LearnForCpp.Reactor.TimerBatch
import LearnForCpp.Reactor.TimerArmed
import LearnForCpp.Reactor.TimerSchedule
import LearnForCpp.Reactor.TcpServer
import LearnForCpp.Reactor.ServerSystem
import LearnForCpp.Reactor.QuietCalls
import LearnForCpp.Reactor.ServerBookkeeping
import LearnForCpp.Reactor.Connector
import LearnForCpp.Reactor.ConnectorSystem
import LearnForCpp.Reactor.ConnectorBackoff
import LearnForCpp.Reactor.SocketOwnership
import LearnForCpp.Reactor.ClientSystem
import LearnForCpp.Reactor.ClientOrder
import LearnForCpp.Reactor.ClientHistory
import LearnForCpp.Reactor.OneAttempt
import LearnForCpp.Reactor.ReconnectLoop
import LearnForCpp.Reactor.ConnectorLifetime
import LearnForCpp.Reactor.OwnerSystem
import LearnForCpp.Reactor.OwnerRecords
import LearnForCpp.Reactor.ChannelLifetime
import LearnForCpp.Logging.LoggingStream
import LearnForCpp.Logging.StreamContent
import LearnForCpp.Logging.Rendering
import LearnForCpp.Logging.Logging
import LearnForCpp.Logging.LogRecord
import LearnForCpp.Logging.LogFile
import LearnForCpp.Logging.LogHeader
import LearnForCpp.Logging.LogStatement
import LearnForCpp.Logging.LogRolling
import LearnForCpp.Reactor.Startup
import LearnForCpp.Reactor.FailStop
import LearnForCpp.Thread.HierarchicalMutex
import LearnForCpp.Thread.MutexHierarchy
import LearnForCpp.Thread.BlockingQueue
import LearnForCpp.Thread.ThreadsafeQueue
import LearnForCpp.Thread.QueueOrder
import LearnForCpp.Thread.QueueWakeup
import LearnForCpp.Thread.ThreadPool
import LearnForCpp.Thread.PoolTasks
import LearnForCpp.Thread.PoolShutdown
import LearnForCpp.Thread.LookupTable
import LearnForCpp.Lib.Rotation
import LearnForCpp.Reactor.LoopSender
import LearnForCpp.Reactor.EchoConnection
import LearnForCpp.Reactor.PingPong
import LearnForCpp.Thread.Atomic
import LearnForCpp.Lib.SharedCell
import LearnForCpp.Lib.FixedWidth
import LearnForCpp.Logging.TimeText
import LearnForCpp.Logging.LogPipeline
import LearnForCpp.Thread.Thread
import LearnForCpp.Reactor.PingPongSessions
import LearnForCpp.Reactor.InetAddress
import LearnForCpp.Reactor.LoopBalance
import LearnForCpp.Thread.SharedPtr
import LearnForCpp.Reactor.EchoServer
import LearnForCpp.Reactor.EchoRounds
