import SysDetector.Bpf.ExecHistory
import SysDetector.Bpf.ProgramRuns
import SysDetector.Proc.Lifetimes
import SysDetector.Proc.SwitchHistory
import SysDetector.Proc.Relevance
import SysDetector.Proc.Bursts
import SysDetector.Proc.EntryHistory
import SysDetector.Proc.Threads
import SysDetector.Proc.ConfigBlanks
import SysDetector.Proc.ConfigDirectory
import SysDetector.Proc.Anomalies
import SysDetector.Proc.Periods
import SysDetector.Proc.ArgumentBuffer
import SysDetector.Proc.RecoveryCycles
import SysDetector.Proc.CheckSpacing
import SysDetector.Fs.WatchTable
import SysDetector.Fs.Descriptors
import SysDetector.Fs.Dispatch
import SysDetector.Fs.EventQueue
import SysDetector.Fs.ReadBuffer
import SysDetector.Fs.RoundTrip
import SysDetector.Fs.Rewriting
import SysDetector.Fs.Identifiers
import SysDetector.Fs.Loading
import SysDetector.RepeatedKeys
import SysDetector.Rpc.Matching
import SysDetector.Rpc.Messages
import SysDetector.Rpc.Listings
import SysDetector.Rpc.Replies
import SysDetector.Rpc.Lag
import SysDetector.Proc.MonitorPass
import SysDetector.Library.Refinement
import SysDetector.Proc.Unread
import SysDetector.Proc.Atomicity
import SysDetector.Fs.SwitchStore
import SysDetector.Fs.CrashStore
import SysDetector.Fs.SwitchedEvents
import SysDetector.Library.Provenance
import SysDetector.Library.Chronicles
import SysDetector.Rpc.Connections
import SysDetector.Rpc.Isolation
import SysDetector.Rpc.SwitchOrder
import SysDetector.Rpc.Polling
import SysDetector.Fs.Operations
import SysDetector.Library.TextTables
import SysDetector.Proc.Columns
import SysDetector.Library.NamedQueues
import SysDetector.Library.Restarts
import SysDetector.Library.RestartViews
import SysDetector.Library.RestartOrder
import SysDetector.Library.RestartLosses
import SysDetector.Library.RestartHangs
import SysDetector.Rpc.Restarts
import SysDetector.Library.Reservations
import SysDetector.Proc.Pipeline
import SysDetector.ListedTables
