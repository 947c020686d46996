import Osaka.Time.Announcements
import Osaka.Runtime.Session
import Osaka.Runtime.Progress
import Osaka.Runtime.Polls
import Osaka.Runtime.Halts
import Osaka.Runtime.Turns
import Osaka.Runtime.Accounting
import Osaka.Runtime.BlockOn
import Osaka.Runtime.HandleContext
import Osaka.Runtime.TimeBracket
import Osaka.Runtime.NestedRun
import Osaka.Shared.PackedWord
import Osaka.Task.Snapshot
import Osaka.Shared.Transitions
import Osaka.Task.Cell
import Osaka.Task.Invariant
import Osaka.Task.Steps
import Osaka.Task.Handles
import Osaka.Task.Counting
import Osaka.Task.Lifecycle
import Osaka.Task.Wakeups
import Osaka.Sync.BatchSemaphore
import Osaka.Sync.SemaphoreInvariant
import Osaka.Sync.SemaphoreSteps
import Osaka.Sync.SemaphoreRuns
import Osaka.Sync.SemaphoreFairness
import Osaka.Sync.SemaphoreWakeups
import Osaka.Sync.RwLock
import Osaka.Sync.RwLockExclusion
import Osaka.Sync.Mpsc.BlockList
import Osaka.Sync.Mpsc.Growth
import Osaka.Sync.Mpsc.Sending
import Osaka.Sync.Mpsc.BlockListRuns
import Osaka.Sync.Mpsc.Chan
import Osaka.Sync.Mpsc.ChanSemaphores
import Osaka.Sync.Mpsc.ChanSteps
import Osaka.Sync.Mpsc.ChannelSteps
import Osaka.Sync.Mpsc.ChannelRuns
import Osaka.Sync.Mpsc.ChannelClosing
import Osaka.Sync.Mpsc.ChannelWakeups
import Osaka.Runtime.Shutdown
import Osaka.Task.Effects
import Osaka.Runtime.ShutdownInvariant
import Osaka.Runtime.ShutdownSteps
import Osaka.Runtime.ShutdownProgress
import Osaka.Runtime.RuntimeDrop
import Osaka.Sync.RwLockFairness
import Osaka.Sync.Mutex
import Osaka.Sync.Notify
import Osaka.Sync.NotifySteps
import Osaka.Sync.NotifyRuns
import Osaka.Sync.NotifyOne
import Osaka.Sync.NotifyWaiters
import Osaka.Sync.Broadcast
import Osaka.Sync.BroadcastRing
import Osaka.Sync.BroadcastSteps
import Osaka.Sync.BroadcastSending
import Osaka.Sync.BroadcastReceiving
import Osaka.Sync.BroadcastRuns
import Osaka.Sync.BroadcastSlots
import Osaka.Sync.BroadcastClosing
import Osaka.Sync.BroadcastDelivery
import Osaka.Shared.GuardedCell
import Osaka.Sync.Oneshot
import Osaka.Sync.OneshotReceiving
import Osaka.Sync.OneshotRuns
import Osaka.Sync.OneshotDelivery
import Osaka.Sync.OneshotTasks
import Osaka.Sync.Watch
import Osaka.Sync.WatchRooms
import Osaka.Sync.WatchSteps
import Osaka.Sync.WatchSoundness
import Osaka.Sync.WatchReceiving
import Osaka.Sync.WatchRuns
import Osaka.Sync.WatchUpdates
import Osaka.Sync.OnceCell
import Osaka.Sync.OnceCellSteps
import Osaka.Sync.OnceCellRuns
import Osaka.Sync.OnceCellTurns
import Osaka.Sync.Barrier
import Osaka.Sync.BarrierSteps
import Osaka.Sync.BarrierGenerations
import Osaka.Task.Cancellation
import Osaka.Task.Abort
import Osaka.Task.JoinWakers
import Osaka.Task.JoinPolls
import Osaka.Time.Interval
import Osaka.Time.Registrations
import Osaka.Time.IntervalLimits
import Osaka.Time.Timeout
import Osaka.Time.TimeoutRuns
import Osaka.Runtime.Starvation
import Osaka.Runtime.EnterGuards
import Osaka.Sync.SemaphoreCeiling
import Osaka.Sync.SemaphorePermits
import Osaka.Sync.BroadcastLength
import Osaka.Runtime.Executor
import Osaka.Runtime.ExecutorWakes
import Osaka.Runtime.ExecutorPolls
import Osaka.Shared.DoublyLinked
import Osaka.Util.LinkedList
import Osaka.Util.Lists
import Osaka.Time.Sleepers
import Osaka.Task.TaskLocal
import Osaka.Runtime.OwnedTasks
import Osaka.Runtime.Closing
import Osaka.Sync.AtomicWaker
import Osaka.Sync.AtomicWakerSteps
import Osaka.Sync.AtomicWakerPlaces
import Osaka.Sync.AtomicWakerCalls
import Osaka.Sync.AtomicWakerRuns
import Osaka.Park.Thread
import Osaka.Park.ThreadSteps
import Osaka.Park.ThreadRuns
import Osaka.Park.BlockOn
import Osaka.Park.BlockOnRuns
import Osaka.Sync.Mpsc.SharedList
import Osaka.Sync.Mpsc.SharedListPlaces
import Osaka.Sync.Mpsc.SharedListSteps
import Osaka.Sync.Mpsc.SharedListFrames
import Osaka.Sync.Mpsc.SharedListSending
import Osaka.Sync.Mpsc.SharedListReceiving
import Osaka.Sync.Mpsc.SharedListCalls
import Osaka.Sync.Mpsc.SharedListRuns
import Osaka.Sync.Mpsc.SharedListAnswers
import Osaka.Sync.Mpsc.SharedListProgress
import Osaka.Sync.Mpsc.SharedListAlone
import Osaka.Sync.Mpsc.SharedListTraffic
