import Libdebug.Cffi.Armed
import Libdebug.Cffi.GhostTraps
import Libdebug.Cffi.FirstInstruction
import Libdebug.Cffi.MemoryWrites
import Libdebug.Cffi.OtherThreads
import Libdebug.Cffi.PostMortem
import Libdebug.Cffi.StopTheWorld
import Libdebug.Cffi.StepUntil
import Libdebug.Cffi.SteppingFinish
import Libdebug.Cffi.Opcodes
import Libdebug.Ptrace.BreakpointHits
import Libdebug.Ptrace.SyscallPhases
import Libdebug.Ptrace.Statuses
import Libdebug.Ptrace.Signals
import Libdebug.Ptrace.SyscallToggles
import Libdebug.Ptrace.HardwareAgreement
import Libdebug.Ptrace.SoftwareAgreement
import Libdebug.InternalDebugger.Deadlock
import Libdebug.InternalDebugger.Stepping
import Libdebug.Data.MemoryView
import Libdebug.Data.AlignedAccess
import Libdebug.Data.MemoryKeys
import Libdebug.Architectures.StackUnwinder
import Libdebug.Ptrace.FailedWrites
import Libdebug.Ptrace.TrapCauses
import Libdebug.Ptrace.Watchpoints
import Libdebug.Utils.Accounts
import Libdebug.Utils.Framing
import Libdebug.Data.BackingFiles
import Libdebug.Architectures.Backtraces
import Libdebug.Architectures.SubRegisters
import Libdebug.Ptrace.ThreadRegistries
import Libdebug.InternalDebugger.InstanceManager
import Libdebug.InternalDebugger.PrettyPrint
import Libdebug.Ptrace.SentSignals
import Libdebug.Ptrace.SignalForwarding
import Libdebug.Ptrace.Detach
import Libdebug.InternalDebugger.RaisingCallbacks
import Libdebug.InternalDebugger.FailedCont
import Libdebug.InternalDebugger.GdbMigration
import Libdebug.InternalDebugger.FinishStops
import Libdebug.InternalDebugger.LifecycleRuns
import Libdebug.InternalDebugger.InterruptRace
import Libdebug.InternalDebugger.ResolutionCache
import Libdebug.Utils.DebuggingUtils
import Libdebug.Utils.SymbolLevels
import Libdebug.Utils.LibContext
import Libdebug.Utils.DwarfWalk
import Libdebug.Data.ProcessMaps
import Libdebug.Ptrace.Launcher
import Libdebug.Ptrace.GdbReturn
import Libdebug.Ptrace.SignalCursor
import Libdebug.Ptrace.StopDecision
import Libdebug.Builtin.AntidebugSyscallHandler
import Libdebug.Cffi.BreakpointList
import Libdebug.Ptrace.DetachOrder
import Libdebug.InternalDebugger.Answers
import Libdebug.Ptrace.StandardStreams
import Libdebug.Ptrace.MarkedText
import Libdebug.Ptrace.Superposition
import Libdebug.Cffi.WriteBack
import Libdebug.Ptrace.LibraryCalls
import Libdebug.Cffi.Processor
import Libdebug.Cffi.LoneThread
import Libdebug.Ptrace.Observation
import Libdebug.Ptrace.Resumption
import Libdebug.InternalDebugger.NativeSession
