import Dmsk.Console
import Dmsk.Resources

/-!
# The handles of the console application

What the commands open and close: the pool with its events and threads, the
snapshot and the processes that are dumped, the device, the process and the
threads of `CreateRemoteThread`, and the module that `GlobalData` loads. The
system lets each call and each allocation of a command fail as it likes. The
memory itself and what is printed are left out, and so is an exception outside
of the commands, which ends the process.
-/

namespace Dmsk.Console.Handles

open Resources Resources.Routine

inductive Kind
  | module
  | event
  | poolThread
  | device
  | snapshot
  | process
  | thread
  | remoteThread
deriving DecidableEq, Repr

abbrev HANDLE := Resource Kind

/-- What a call returns, and the pids that it lists. Where memory is asked for,
whether there is some. -/
structure Reply where
  value : BitVec 32
  processIds : List (BitVec 32) := []
  memory : Bool := true
deriving DecidableEq, Repr

abbrev Code (α : Type) := Routine Kind Reply Exception α

def invalidHandleValue : BitVec 32 := .allOnes 32

/-- `new`, and the buffer of a string or a vector. -/
def allocate : Code Unit := require Reply.memory "bad allocation"

/-! ## `ThreadPool` -/

/-- The handles in the two vectors that are not null. -/
structure ThreadPool where
  events : List HANDLE
  threads : List HANDLE
deriving DecidableEq, Repr

def waitThreads : List HANDLE → Code Unit
  | [] => return
  | thread :: threads => do
    use thread
    close thread
    waitThreads threads

def disposeEvents : List HANDLE → Code Unit
  | [] => return
  | event :: events => do
    close event
    disposeEvents events

def ThreadPool.cleanupThreadPool (pool : ThreadPool) : Code Unit := do
  waitThreads pool.threads
  disposeEvents pool.events

/-- The event `TERMINATION_SIGNALED_EVENT` is the first of the vector. -/
def ThreadPool.shutdown (pool : ThreadPool) : Code ThreadPool := do
  match pool.events with
  | event :: _ => use event
  | [] => pure ()
  waitThreads pool.threads
  return { pool with threads := [] }

def ThreadPool.destruct (pool : ThreadPool) : Code Unit := do
  (← pool.shutdown).cleanupThreadPool

def createEvents : ℕ → ThreadPool → Code ThreadPool
  | 0, pool => return pool
  | n + 1, pool => do
    if (← call).value = 0 then
      pool.cleanupThreadPool
      throw "CreateEvent has failed"
    else createEvents n { pool with events := pool.events ++ [← create .event] }

def createThreads : ℕ → ThreadPool → Code ThreadPool
  | 0, pool => return pool
  | n + 1, pool => do
    if (← call).value = 0 then
      (← pool.shutdown).cleanupThreadPool
      throw "CreateThread has failed"
    else createThreads n { pool with threads := pool.threads ++ [← create .poolThread] }

/-- `new ThreadPool`, for `n` threads. The vectors get their size before the
first handle. -/
def ThreadPool.construct (n : ℕ) : Code ThreadPool := do
  allocate
  createThreads n (← createEvents 2 ⟨[], []⟩)

/-! ## Dumps -/

/-- A call with the handle that returns an `NTSTATUS`. -/
def query (handle : HANDLE) : Code Bool := do
  use handle
  return ntSuccess (← call).value

/-- `ZwQueryInformationProcess` and the three reads, up to one that fails. The
last one reads into `std::wstring(CommandLine.Length, 0)`. -/
def readCommandLine (handle : HANDLE) : Code Unit := do
  if !(← query handle) then return
  if !(← query handle) then return
  if !(← query handle) then return
  allocate
  let _ ← query handle

def pupDumpProcess (_processId : BitVec 32) : Code Unit := do
  if (← call).value = 0 then return
  let handle ← create .process
  readCommandLine handle
  close handle

def dumpProcesses : List (BitVec 32) → Code Unit
  | [] => return
  | processId :: processIds => do
    pupDumpProcess processId
    dumpProcesses processIds

/-- `do { ... } while (Process32NextW(...))`, with `std::wstring(pe32.szExeFile)`
for the name. -/
def dumpEntries (snapshotHandle : HANDLE) : List (BitVec 32) → Code Unit
  | [] => return
  | processId :: processIds => do
    allocate
    pupDumpProcess processId
    use snapshotHandle
    dumpEntries snapshotHandle processIds

def puDumpActiveProcessesToolHelp32Snapshot : Code Unit := do
  if (← call).value = invalidHandleValue then throw "CreateToolhelp32Snapshot failed"
  else
    let snapshotHandle ← create .snapshot
    use snapshotHandle
    let first ← call
    if first.value ≠ 0 then dumpEntries snapshotHandle first.processIds
    close snapshotHandle

def puDumpActiveProcessesPsapi : Code Unit := do
  allocate
  let reply ← call
  if reply.value = 0 then throw "EnumProcesses failed" else dumpProcesses (reply.processIds.take 10000)

/-- The queries and the walk over their answer count as one call. -/
def puDumpActiveProcessesZwQuerySystemInformation : Code Unit := do
  allocate
  let reply ← call
  if reply.value = 0 then throw "ZwQuerySystemInformation has failed" else dumpProcesses reply.processIds

/-! ## The other commands -/

def ioctlSendIoctl : Code Unit := do
  if (← call).value = invalidHandleValue then throw "CreateFile failed"
  else
    let deviceHandle ← create .device
    use deviceHandle
    let _ ← call
    close deviceHandle

/-- `PROCESS_INFORMATION`. -/
structure ProcessInformation where
  hProcess : HANDLE
  hThread : HANDLE

def rmtpOpenCmd : Code ProcessInformation := do
  if (← call).value = 0 then throw "RmtpOpenCmd failed"
  else return ⟨← create .process, ← create .thread⟩

def rmtpCreateRemoteThread (procInfo : ProcessInformation) : Code (Option HANDLE) := do
  use procInfo.hProcess
  if (← call).value = 0 then return none else return some (← create .remoteThread)

def rmtpCleanupRemoteThread : Option HANDLE → Code Unit
  | some threadHandle => do
    use threadHandle
    close threadHandle
  | none => return

def rmtpCleanupProcess (procInfo : ProcessInformation) (threadHandle : Option HANDLE) : Code Unit := do
  use procInfo.hProcess
  rmtpCleanupRemoteThread threadHandle
  use procInfo.hProcess
  close procInfo.hProcess
  close procInfo.hThread

def rmtCreateRemoteThread : Code Unit := do
  let procInfo ← rmtpOpenCmd
  rmtpCleanupProcess procInfo (← rmtpCreateRemoteThread procInfo)

/-! ## `GlobalData` and `main` -/

structure GlobalData where
  ntDllModuleHandle : HANDLE
  threadPool : Option ThreadPool := none
  isApplicationRunning : Bool := true

def getProcAddresses (ntDllModuleHandle : HANDLE) : List String → Code Unit
  | [] => return
  | name :: names => do
    use ntDllModuleHandle
    if (← call).value = 0 then
      close ntDllModuleHandle
      throw s!"GetProcAddress {name} has failed"
    else getProcAddresses ntDllModuleHandle names

def solveImports : Code GlobalData := do
  if (← call).value = 0 then throw "LoadLibrary ntdll.dll has failed"
  else
    let ntDllModuleHandle ← create .module
    getProcAddresses ntDllModuleHandle ["ZwQueryInformationProcess", "ZwReadVirtualMemory", "ZwQuerySystemInformation"]
    return { ntDllModuleHandle := ntDllModuleHandle }

/-- `n` is the number of threads that a pool of five gets. -/
def startThreadPoolCommand (n : ℕ) (g : GlobalData) : Code GlobalData := do
  match g.threadPool with
  | some _ => return g
  | none => return { g with threadPool := some (← ThreadPool.construct n) }

def stopThreadPoolCommand (g : GlobalData) : Code GlobalData := do
  match g.threadPool with
  | some pool =>
    (← pool.shutdown).destruct
    return { g with threadPool := none }
  | none => return g

def run (n : ℕ) (g : GlobalData) : Handler → Code GlobalData
  | .printHelpCommand => return g
  | .startThreadPoolCommand => startThreadPoolCommand n g
  | .stopThreadPoolCommand => stopThreadPoolCommand g
  | .puDumpActiveProcessesToolHelp32Snapshot => do
    puDumpActiveProcessesToolHelp32Snapshot
    return g
  | .puDumpActiveProcessesPsapi => do
    puDumpActiveProcessesPsapi
    return g
  | .puDumpActiveProcessesZwQuerySystemInformation => do
    puDumpActiveProcessesZwQuerySystemInformation
    return g
  | .sendFirstIoctl | .sendSecondIoctl | .protectProcessCommand => do
    ioctlSendIoctl
    return g
  | .rmtCreateRemoteThread => do
    rmtCreateRemoteThread
    return g
  | .exitCommand => return { g with isApplicationRunning := false }

def execute (n : ℕ) (g : GlobalData) (command : String) : Code GlobalData :=
  match availableCommands.lookup command with
  | some handler => tryCatch (run n g handler) fun _ => return g
  | none => return g

def executeAll (n : ℕ) : GlobalData → List String → Code GlobalData
  | g, [] => return g
  | g, command :: commands => do
    if g.isApplicationRunning then executeAll n (← execute n g command) commands else return g

/-- From the constructor of `gGlobalData` to the end of the commands. -/
def session (n : ℕ) (commands : List String) : Code GlobalData := do
  let g ← solveImports
  executeAll n (← execute n g "Help") commands

/-- The destructor, and after it those of the members. -/
def GlobalData.destruct (g : GlobalData) : Code Unit := do
  close g.ntDllModuleHandle
  match g.threadPool with
  | some pool => pool.destruct
  | none => pure ()

def main (n : ℕ) (commands : List String) : Code Unit := do
  (← session n commands).destruct

end Dmsk.Console.Handles
