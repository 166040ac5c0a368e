import FileMonitor.Library.Coroutine
import FileMonitor.Library.EventMachine
import FileMonitor.Domain.Equiv.Planning
import FileMonitor.Services.Equiv.Registry
import FileMonitor.Services.Equiv.Atomicity
import FileMonitor.Main.Equiv.Incoming
import FileMonitor.Ipc.Equiv.Uds
import FileMonitor.Ipc.Equiv.PeerTable
import FileMonitor.Main.Core
import FileMonitor.Main.Equiv.Core
import FileMonitor.Main.Equiv.Tracking
import FileMonitor.Main.Equiv.Service
import FileMonitor.Adapters.Blake3Hasher
import FileMonitor.Adapters.Equiv.Blake3Hasher
import FileMonitor.Services.Watcher
import FileMonitor.Services.Equiv.Watcher
import FileMonitor.Supervision.Supervisor
import FileMonitor.Supervision.Equiv.Shutdown
import FileMonitor.Supervision.Equiv.Restart
import FileMonitor.Domain.Equiv.BlockPlans
import FileMonitor.Domain.Equiv.Shards
import FileMonitor.Services.Equiv.Expiry
import FileMonitor.Domain.Equiv.BlockCount
import FileMonitor.Services.Equiv.Filepath
import FileMonitor.Ipc.Equiv.Handshake
import FileMonitor.Services.Equiv.Ports
import FileMonitor.Config.Equiv.Written
import FileMonitor.Config.Equiv.Errors
import FileMonitor.Config.Load
import FileMonitor.Config.Equiv.Load
import FileMonitor.Library.LossyQueue
import FileMonitor.Library.Since
import FileMonitor.Library.Settles
import FileMonitor.Library.TaskGroup
import FileMonitor.Adapters.INotifyEvents
import FileMonitor.Adapters.Equiv.INotifySteps
import FileMonitor.Adapters.Equiv.INotifyOrder
import FileMonitor.Adapters.Equiv.INotifyEvents
import FileMonitor.Main.Monitor
import FileMonitor.Main.Equiv.Monitor
import FileMonitor.Main.Equiv.Rest
import FileMonitor.Main.Run
import FileMonitor.Main.Equiv.RunSteps
import FileMonitor.Main.Equiv.Run
import FileMonitor.Main.Equiv.RunEnds
import FileMonitor.Library.Conversation
import FileMonitor.Services.Equiv.Conversation
import FileMonitor.Main.Equiv.Dispatches
import FileMonitor.Main.Equiv.Alive
import FileMonitor.Ipc.Equiv.Flow
import FileMonitor.Main.Equiv.Pipeline
import FileMonitor.Main.Equiv.Messages
import FileMonitor.Main.Equiv.ServiceRest
import FileMonitor.Main.Equiv.Sessions
import FileMonitor.Supervision.Equiv.ShutdownSteps
import FileMonitor.Supervision.Equiv.Grace
import FileMonitor.Supervision.Equiv.Instances
import FileMonitor.Main.Equiv.Senders
