import Dmsk.ThreadPoolSound
import Dmsk.ThreadPoolSchedule
import Dmsk.ThreadPoolSize
import Dmsk.LinkedListRuns
import Dmsk.ProcessCollectorRuns
import Dmsk.StackTraceSound
import Dmsk.FilterSound
import Dmsk.MonitorSound
import Dmsk.CppRuntimeSound
import Dmsk.IoctlSound
import Dmsk.IrpForwarding
import Dmsk.MinifilterSound
import Dmsk.FltPortRuns
import Dmsk.FltPortMessages
import Dmsk.ConsoleSound
import Dmsk.LinkedListMisuse
import Dmsk.LinkedListFlush
import Dmsk.StackTraceDisplaced
import Dmsk.NtImageBaseSound
import Dmsk.ProcessDumpSound
import Dmsk.StackTraceBuffer
import Dmsk.BaselineUnload
import Dmsk.ProcessQuery
import Dmsk.ConsoleCommands
import Dmsk.ThreadPoolProgress
import Dmsk.ThreadPoolOrder
import Dmsk.ThreadPoolClient
import Dmsk.ThreadPoolTests
import Dmsk.Locked
import Dmsk.ProcessCollectorLocked
import Dmsk.Resources
import Dmsk.ConsoleHandles
import Dmsk.ConsoleHandlesSound
import Dmsk.DriverObjects
import Dmsk.DriverObjectsSound
import Dmsk.ConsoleProtection
import Dmsk.MinifilterLife
import Dmsk.NotificationCallbacks
import Dmsk.MonitorLinear
import Dmsk.ProcessProtectionLocked
import Dmsk.FilterRefinement
