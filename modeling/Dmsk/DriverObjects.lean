import Dmsk.Nt
import Dmsk.ProcessCollector
import Dmsk.Resources

/-!
# What the device drivers create

From `DriverEntry` to the end of `DriverUnload`, with the requests and the
notifications in between, each of them over before the next one and before the
unload. A call returns an `NTSTATUS`, or a pointer that may be null. What is
written to the objects and what is logged is left out, and so is a link's name:
what stands under it is kept with the driver. The assertions do nothing, as in
a free build.
-/

namespace Dmsk.DriverObjects

open Resources Resources.Routine

inductive Kind
  | device
  | fileObject
  | symbolicLink
  | removeLockReference
  | pushLock
  /-- Memory of the pool: a `CPP_DESTRUCTOR`, a `DeviceObject`, a `Process`, a
  `StackTrace`, the modules, the text of a stack. -/
  | pool
  | processNotify
  | registryCallback
  | loadImageNotify
  | obCallbacks
  | threadNotify
  | keyName
deriving DecidableEq, Repr

abbrev Object := Resource Kind

abbrev Code (α : Type) := Routine Kind NtStatus Fault α

/-- A call that returns a status, and an object when it succeeds. -/
def request (kind : Kind) : Code (NtStatus × Option Object) := do
  let status ← call
  if ntSuccess status then return (status, some (← create kind)) else return (status, none)

/-- A call that returns a pointer. -/
def allocate : Code (Option Object) := do
  if (← call) = 0 then return none else return some (← create .pool)

/-- What is reached through a pointer. -/
def deref : Option Object → Code Unit
  | some object => use object
  | none => throw .accessViolation

/-- `if (pointer) { close(pointer); pointer = nullptr; }`. -/
def closeIf : Option Object → Code Unit
  | some object => close object
  | none => return

/-- The link, when it could not be deleted. -/
def ioDeleteSymbolicLink : Option Object → Code (Option Object)
  | some link => do
    if ntSuccess (← call) then
      close link
      return none
    else return some link
  | none => do
    let _ ← call
    return none

/-- A reference is refused once the unload waits, and so to no request here. -/
def ioAcquireRemoveLock (device : Option Object) : Code Object := do
  deref device
  create .removeLockReference

def ioReleaseRemoveLock (device : Option Object) (reference : Object) : Code Unit := do
  deref device
  close reference

/-- The requests are over: there is nobody to wait for. -/
def ioReleaseRemoveLockAndWait (device : Option Object) (reference : Object) : Code Unit := ioReleaseRemoveLock device reference

/-! ## `IOCTLSecondDriver` -/

namespace Second

def ioctlInitDeviceObject : Code (NtStatus × Option Object) := do
  let (status, gDeviceObject) ← request .device
  if !ntSuccess status then return (status, none)
  deref gDeviceObject
  return (status, gDeviceObject)

/-- A request of any kind. -/
def handle (gDeviceObject : Option Object) : Code Unit := do
  ioReleaseRemoveLock gDeviceObject (← ioAcquireRemoveLock gDeviceObject)

def ioctlUninitDeviceObject (gDeviceObject : Option Object) : Code Unit := do
  ioReleaseRemoveLockAndWait gDeviceObject (← ioAcquireRemoveLock gDeviceObject)
  closeIf gDeviceObject

def handleAll (gDeviceObject : Option Object) : ℕ → Code Unit
  | 0 => return
  | n + 1 => do
    handle gDeviceObject
    handleAll gDeviceObject n

/-- With the number of requests. -/
def life (requests : ℕ) : Code NtStatus := do
  let (status, gDeviceObject) ← ioctlInitDeviceObject
  if ntSuccess status then
    handleAll gDeviceObject requests
    ioctlUninitDeviceObject gDeviceObject
  return status

end Second

/-! ## `IOCTLFirstDriver` -/

namespace First

/-- `gFileObjectSecondDriver` keeps `gDeviceObjectSecondDriver`. -/
structure Globals where
  gDeviceObject : Option Object := none
  gFileObjectSecondDriver : Option Object := none
  symbolicLink : Option Object := none
deriving DecidableEq, Repr

def cleanUp (g : Globals) : Code Unit := do
  closeIf g.gDeviceObject
  closeIf g.gFileObjectSecondDriver

def ioctlInitDeviceObject : Code (NtStatus × Globals) := do
  let (status, device) ← request .device
  if !ntSuccess status then
    cleanUp {}
    return (status, {})
  let (status, file) ← request .fileObject
  if !ntSuccess status then
    cleanUp { gDeviceObject := device }
    return (status, {})
  deref device
  deref file
  let (status, link) ← request .symbolicLink
  if !ntSuccess status then
    cleanUp { gDeviceObject := device, gFileObjectSecondDriver := file }
    return (status, {})
  deref device
  return (status, ⟨device, file, link⟩)

/-- A request, and whether it is passed on: the completion routine releases the
reference then. -/
def handle (g : Globals) (passed : Bool) : Code Unit := do
  let reference ← ioAcquireRemoveLock g.gDeviceObject
  if passed then deref g.gFileObjectSecondDriver
  ioReleaseRemoveLock g.gDeviceObject reference

def handleAll (g : Globals) : List Bool → Code Unit
  | [] => return
  | passed :: requests => do
    handle g passed
    handleAll g requests

/-- With what is left under the name of the link. -/
def ioctlUninitDeviceObject (g : Globals) : Code (Option Object) := do
  ioReleaseRemoveLockAndWait g.gDeviceObject (← ioAcquireRemoveLock g.gDeviceObject)
  let link ← ioDeleteSymbolicLink g.symbolicLink
  closeIf g.gDeviceObject
  closeIf g.gFileObjectSecondDriver
  return link

def life (requests : List Bool) : Code (NtStatus × Option Object) := do
  let (status, g) ← ioctlInitDeviceObject
  if ntSuccess status then
    handleAll g requests
    return (status, ← ioctlUninitDeviceObject g)
  else return (status, none)

end First

/-! ## `NotificationDriver` -/

namespace Notification

structure DeviceObject where
  block : Object
  deviceObject : Option Object := none
  symbolicLink : Option Object := none
  isValid : Bool := false
deriving DecidableEq, Repr

def DeviceObject.cleanUp (d : DeviceObject) : Code (Option Object) := do
  let link ← if d.symbolicLink.isSome then ioDeleteSymbolicLink d.symbolicLink else pure none
  closeIf d.deviceObject
  return link

/-- The constructor. -/
def DeviceObject.construct (block : Object) : Code DeviceObject := do
  let (status, device) ← request .device
  if !ntSuccess status then return { block := block }
  let d : DeviceObject := { block := block, deviceObject := device }
  let (status, link) ← request .symbolicLink
  if !ntSuccess status then
    let _ ← d.cleanUp
    return { block := block }
  deref device
  return { d with symbolicLink := link, isValid := true }

/-- The destructor, and the memory. -/
def DeviceObject.delete (d : DeviceObject) : Code (Option Object) := do
  ioReleaseRemoveLockAndWait d.deviceObject (← ioAcquireRemoveLock d.deviceObject)
  let link ← d.cleanUp
  close d.block
  return link

/-- `destructor` is the entry of `gDestructorsList`, and `processes` the list
that `Records` tells of. -/
structure GlobalData (w : ℕ) where
  lock : Object
  collectorLock : Object
  destructor : Option Object
  processes : List (Object × Process w) := []
  deviceObject : Option DeviceObject := none
  processCreateGoodStackTrace : Option Object := none
  processNotify : Option Object := none
  cookie : Option Object := none
  loadImageNotify : Option Object := none
  registrationHandle : Option Object := none
  threadNotify : Option Object := none
deriving DecidableEq, Repr

variable {w : ℕ}

/-- `ExclusiveLockguard` and `SharedLockguard`. -/
def guarded {α : Type} (lock : Object) (x : Code α) : Code α := do
  use lock
  let a ← x
  use lock
  return a

/-- `~Pushlock`. -/
def destructLock (lock : Object) : Code Unit := do
  guarded lock (pure ())
  close lock

/-! ### `GlobalData.cpp` -/

/-- The constructor of `gDrvData`, and `atexit` for its destructor. -/
def construct : Code (GlobalData w) := do
  let lock ← create .pushLock
  let collectorLock ← create .pushLock
  return { lock := lock, collectorLock := collectorLock, destructor := ← allocate }

/-- Whether the loop ends within so many rounds. -/
def queryModules : ℕ → Code Bool
  | 0 => return false
  | rounds + 1 => do
    if !ntSuccess (← call) then return true
    match ← allocate with
    | none => return true
    | some modules =>
      let status ← call
      close modules
      if ntSuccess status then return true else queryModules rounds

def gdrvpInitializeNtImageBase (rounds : ℕ) : Code Bool := do
  if ntSuccess (← call) then queryModules rounds else return true

def gdrvInitGlobalData (rounds : ℕ) (g : GlobalData w) : Code (Bool × GlobalData w) := do
  match ← allocate with
  | some block =>
    let d ← DeviceObject.construct block
    return (← gdrvpInitializeNtImageBase rounds, { g with deviceObject := some d })
  | none => return (← gdrvpInitializeNtImageBase rounds, g)

/-- With what is left under the name of the link. -/
def gdrvUninitGlobalData (g : GlobalData w) : Code (Option Object) := guarded g.lock do
  match g.deviceObject with
  | some d =>
    let link ← d.delete
    closeIf g.processCreateGoodStackTrace
    return link
  | none =>
    closeIf g.processCreateGoodStackTrace
    return none

/-! ### `ProcessCollector.cpp` -/

def insertProcess (g : GlobalData w) (pid : Handle w) : Code (GlobalData w) := guarded g.collectorLock do
  match ← allocate with
  | some process => return { g with processes := g.processes ++ [(process, ⟨pid, false⟩)] }
  | none => return g

def findProcessUnsafe (pid : Handle w) : List (Object × Process w) → Code (Option (Object × Process w))
  | [] => return none
  | r :: rs => do
    use r.1
    if r.2.pid = pid then return some r else findProcessUnsafe pid rs

def terminateProcess (g : GlobalData w) (pid : Handle w) : Code (GlobalData w) := guarded g.collectorLock do
  match ← findProcessUnsafe pid g.processes with
  | some r =>
    close r.1
    return { g with processes := g.processes.erase r }
  | none => return g

def getProcess (g : GlobalData w) (pid : Handle w) : Code (Option (Object × Process w)) :=
  guarded g.collectorLock (findProcessUnsafe pid g.processes)

def setMainThreadCreated (g : GlobalData w) (process : Object) : GlobalData w :=
  { g with processes := g.processes.map fun r =>
      if r.1 = process then (r.1, { r.2 with wasMainThreadCreated := true }) else r }

def flush : List Object → Code Unit
  | [] => return
  | process :: processes => do
    close process
    flush processes

/-- `~ProcessCollector`, and the lock after it. -/
def destructCollector (g : GlobalData w) : Code Unit := do
  guarded g.collectorLock (flush (g.processes.map Prod.fst))
  destructLock g.collectorLock

/-- The members of `gDrvData`, last to first. -/
def destruct (g : GlobalData w) : Code Unit := do
  destructCollector g
  destructLock g.lock

def cppCallStaticDestructors (g : GlobalData w) : Code Unit := do
  match g.destructor with
  | some entry =>
    destruct g
    close entry
  | none => return

/-! ### `Filter.cpp` -/

def printNtStackTrace : Code Unit := do
  closeIf (← allocate)

def fltpCheckAndSetGlobalStackTrace (g : GlobalData w) : Code (GlobalData w) := guarded g.lock do
  match g.processCreateGoodStackTrace with
  | none => return { g with processCreateGoodStackTrace := ← allocate }
  | some _ => return g

/-- `hollow` is what the comparison of the traces comes to. -/
def fltpHandleThreadCreate (g : GlobalData w) (currentProcessPid processId : Handle w) (hollow : Bool) : Code (GlobalData w) := do
  if currentProcessPid = processId then return g
  match ← getProcess g processId with
  | none => return g
  | some (process, p) =>
    use process
    if p.wasMainThreadCreated then
      printNtStackTrace
      return g
    use process
    let g ← fltpCheckAndSetGlobalStackTrace (setMainThreadCreated g process)
    match g.processCreateGoodStackTrace with
    | none => return g
    | some good =>
      use good
      if hollow then printNtStackTrace
      return g

/-- `rename` says whether a key is renamed and the details are there. -/
def fltRegistryNotifyRoutine (rename : Bool) : Code Unit := do
  if !rename then return
  match (← request .keyName).2 with
  | none => return
  | some currentKeyName =>
    use currentKeyName
    close currentKeyName

inductive Event (w : ℕ)
  | processNotify (pid : Handle w) (create : Bool)
  | registryNotify (rename : Bool)
  | threadNotify (currentProcessPid processId : Handle w) (create hollow : Bool)
  /-- Whether the request is that of another process, from user mode. -/
  | preOperation (other : Bool)
  /-- Whether a process is to be protected. -/
  | deviceRequest (protect : Bool)
deriving DecidableEq, Repr

/-- A notification comes while its routine is registered, and a request while
there is a device. -/
def handle (g : GlobalData w) : Event w → Code (GlobalData w)
  | .processNotify pid create => do
    if g.processNotify.isNone then return g
    else if create then insertProcess g pid else terminateProcess g pid
  | .registryNotify rename => do
    if g.cookie.isSome then fltRegistryNotifyRoutine rename
    return g
  | .threadNotify currentProcessPid processId create hollow => do
    if g.threadNotify.isSome && create then fltpHandleThreadCreate g currentProcessPid processId hollow else return g
  | .preOperation other => do
    if g.registrationHandle.isSome && other then guarded g.lock (pure ())
    return g
  | .deviceRequest protect => do
    match g.deviceObject.bind (·.deviceObject) with
    | some device =>
      let reference ← ioAcquireRemoveLock (some device)
      if protect then guarded g.lock (pure ())
      ioReleaseRemoveLock (some device) reference
      return g
    | none => return g

def handleAll (g : GlobalData w) : List (Event w) → Code (GlobalData w)
  | [] => return g
  | event :: events => do handleAll (← handle g event) events

/-! ### `DriverEntry.cpp` -/

/-- Whether it returns, which it does with `STATUS_SUCCESS`. -/
def driverEntry (rounds : ℕ) : Code (Bool × GlobalData w) := do
  let (returns, g) ← gdrvInitGlobalData rounds (← construct)
  if !returns then return (false, g)
  let (_, processNotify) ← request .processNotify
  let (_, cookie) ← request .registryCallback
  let (_, loadImageNotify) ← request .loadImageNotify
  let (_, registrationHandle) ← request .obCallbacks
  let (_, threadNotify) ← request .threadNotify
  return (true, { g with
    processNotify := processNotify
    cookie := cookie
    loadImageNotify := loadImageNotify
    registrationHandle := registrationHandle
    threadNotify := threadNotify })

/-- What was not registered is not removed; `ObUnRegisterCallbacks` reads what
the handle points to. -/
def driverUnload (g : GlobalData w) : Code (Option Object) := do
  closeIf g.processNotify
  closeIf g.cookie
  closeIf g.loadImageNotify
  closeIf g.threadNotify
  deref g.registrationHandle
  closeIf g.registrationHandle
  let link ← gdrvUninitGlobalData g
  cppCallStaticDestructors g
  return link

/-- Up to `DriverUnload`. -/
def run (rounds : ℕ) (events : List (Event w)) : Code (Bool × GlobalData w) := do
  let (returns, g) ← driverEntry rounds
  if returns then return (true, ← handleAll g events) else return (false, g)

end Notification

end Dmsk.DriverObjects
