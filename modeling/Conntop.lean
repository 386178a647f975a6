import Conntop.Lib.SortedList
import Conntop.Connection
import Conntop.ConnectionStorage
import Conntop.Compare
import Conntop.Inet
import Conntop.ConnectionList
import Conntop.ListInvariant
import Conntop.ListStep
import Conntop.ListTop
import Conntop.Repaint
import Conntop.Json
import Conntop.Deserialize
import Conntop.Callback
import Conntop.ListDeserialize
import Conntop.UpdateLog
import Conntop.Conntrack
import Conntop.Lib.ChangeLog
import Conntop.Collector
import Conntop.Protocol
import Conntop.SocketWriter
import Conntop.Lib.GuardedRun
import Conntop.PollHandle
import Conntop.PollSystem
import Conntop.ServerSession
import Conntop.Client
import Conntop.Waiting
import Conntop.LifeCycle
import Conntop.Fallback
import Conntop.Server
import Conntop.Fidelity
import Conntop.SlottedServer
import Conntop.ServerSlots
import Conntop.Lib.LabelledPath
import Conntop.Conforming
import Conntop.Replay
import Conntop.Channel
import Conntop.Synchronization
import Conntop.ClosedSystem
import Conntop.Replication
import Conntop.ListWindow
import Conntop.ListArithmetic
import Conntop.ConnectionDetail
import Conntop.WholeMessages
import Conntop.FreeSpace
import Conntop.Speeds
import Conntop.Documents
import Conntop.Lib.Trap
import Conntop.Accessors
import Conntop.Lib.Scanner
import Conntop.Reader
import Conntop.ReaderChunks
import Conntop.MessageParser
import Conntop.CompactJson
import Conntop.TokenPath
import Conntop.ReceivedMessages
import Conntop.Attempts
import Conntop.Resolution
import Conntop.CmdLine
import Conntop.ArgumentRoles
import Conntop.Log
import Conntop.PollRounds
import Conntop.PollArming
import Conntop.Lib.NodeTable
import Conntop.Pointers
import Conntop.Interning
import Conntop.ReceiveBuffer
import Conntop.AlikeClients
import Conntop.Leftovers
import Conntop.Reconnect
import Conntop.Lib.ProducerQueue
import Conntop.EventSystem
import Conntop.Resolver
import Conntop.Lib.Pad
import Conntop.ScreenGeometry
import Conntop.Columns
import Conntop.ListRows
import Conntop.StorageAfter
import Conntop.ListScreen
import Conntop.Lib.Painter
import Conntop.Curses
import Conntop.Details
import Conntop.DetailsUpdate
import Conntop.DetailsRun
