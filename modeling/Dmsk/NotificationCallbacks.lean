import Dmsk.Callbacks

/-!
# The callbacks of the NotificationDriver

What `DriverEntry`, `DriverUnload` and the five callbacks of Filter.cpp do with
the fields of `gDrvData`, in the order of the source. A callback is given with
what decides its branches; the loops over records and frames may take any
number of turns. The routines that remove a callback wait until no call of it
is running, as the kernel documents them. The build is the free one, which goes
on where a registration failed. Requests to the device are not among the calls,
and the query of the modules is one step.
-/

namespace Dmsk.NotificationCallbacks

open Callbacks

/-- The fields of `gDrvData`; the collector is its lock and its list. -/
inductive Object where
  | cookie
  | altitude
  | registrationHandle
  | deviceObject
  | obRegistration
  | lock
  | protectedProcessPid
  | processCreateGoodStackTrace
  | collectorLock
  | activeProcesses
  | ntModule
deriving DecidableEq, Repr

/-- What the kernel is told of: the callbacks, and the device. -/
inductive Routine where
  | createProcess
  | registry
  | loadImage
  | preProcessCreate
  | createThread
  | device
deriving DecidableEq, Repr

/-! ## The callbacks -/

def insertProcess (allocated : Bool) : List (Step Object) :=
  .acquire .collectorLock false ::
    ((if allocated then [.access .activeProcesses] else []) ++ [.release .collectorLock false])

/-- `records` are compared until one has the pid, or the end is met. -/
def findProcessUnsafe (records : ℕ) : List (Step Object) := List.replicate (records + 1) (.access .activeProcesses)

def terminateProcess (records : ℕ) (found : Bool) : List (Step Object) :=
  .acquire .collectorLock false :: (findProcessUnsafe records ++
    ((if found then [.access .activeProcesses] else []) ++ [.release .collectorLock false]))

def getProcess (records : ℕ) : List (Step Object) :=
  .acquire .collectorLock true :: (findProcessUnsafe records ++ [.release .collectorLock true])

/-- The constructor of `StackTrace` asks for each address whether it is in the nt module. -/
def newStackTrace (addresses : ℕ) : List (Step Object) := List.replicate addresses (.access .ntModule)

/-- `addresses` is `none` when there is a trace already. -/
def fltpCheckAndSetGlobalStackTrace (addresses : Option ℕ) : List (Step Object) :=
  .acquire .lock false :: .access .processCreateGoodStackTrace ::
    ((match addresses with
      | some n => newStackTrace n ++ [.access .processCreateGoodStackTrace]
      | none => []) ++ [.release .lock false])

inductive ThreadCreate where
  | ownProcess
  | notMonitored (records : ℕ)
  | remote (records addresses : ℕ)
  | main (records addresses : ℕ) (set : Option ℕ) (isSet : Bool)
deriving DecidableEq, Repr

def fltpHandleThreadCreate : ThreadCreate → List (Step Object)
  | .ownProcess => []
  | .notMonitored records => getProcess records
  | .remote records addresses => getProcess records ++ newStackTrace addresses
  | .main records addresses set isSet =>
    getProcess records ++ (newStackTrace addresses ++ (fltpCheckAndSetGlobalStackTrace set ++
      .access .processCreateGoodStackTrace :: if isSet then [.access .processCreateGoodStackTrace] else []))

/-- Only a rename asks for the name of a key. -/
def fltRegistryNotifyRoutine (renames : Bool) : List (Step Object) := if renames then [.access .cookie] else []

/-- `pidSet` is `none` when the request is from the kernel or from the process itself. -/
def fltPreProcessCreateRoutine : Option Bool → List (Step Object)
  | none => []
  | some pidSet =>
    .acquire .lock false :: .access .protectedProcessPid ::
      ((if pidSet then [.access .protectedProcessPid] else []) ++ [.release .lock false])

inductive Callback where
  | processCreate (allocated : Bool)
  | processTerminate (records : ℕ) (found : Bool)
  | registry (renames : Bool)
  | loadImage
  | preProcessCreate (pidSet : Option Bool)
  | threadCreate (branch : ThreadCreate)
  | threadTerminate
deriving DecidableEq, Repr

def Callback.routine : Callback → Routine
  | .processCreate _ | .processTerminate _ _ => .createProcess
  | .registry _ => .registry
  | .loadImage => .loadImage
  | .preProcessCreate _ => .preProcessCreate
  | .threadCreate _ | .threadTerminate => .createThread

def Callback.body : Callback → List (Step Object)
  | .processCreate allocated => insertProcess allocated
  | .processTerminate records found => terminateProcess records found
  | .registry renames => fltRegistryNotifyRoutine renames
  | .preProcessCreate pidSet => fltPreProcessCreateRoutine pidSet
  | .threadCreate branch => fltpHandleThreadCreate branch
  | .loadImage | .threadTerminate => []

def Routine.uses : Routine → List Object
  | .createProcess => [.collectorLock, .activeProcesses]
  | .registry => [.cookie]
  | .loadImage | .device => []
  | .preProcessCreate => [.lock, .protectedProcessPid]
  | .createThread => [.collectorLock, .activeProcesses, .ntModule, .lock, .processCreateGoodStackTrace]

theorem within (c : Callback) : ∀ x ∈ c.body, x.object ∈ c.routine.uses := by
  cases c with
  | processCreate allocated =>
    cases allocated <;> simp [Callback.body, insertProcess, Callback.routine, Routine.uses]
  | processTerminate records found =>
    cases found <;> simp [Callback.body, terminateProcess, findProcessUnsafe, Callback.routine, Routine.uses,
      or_imp, forall_and]
  | registry renames => cases renames <;> simp [Callback.body, fltRegistryNotifyRoutine, Callback.routine, Routine.uses]
  | preProcessCreate pidSet =>
    rcases pidSet with - | - | - <;> simp [Callback.body, fltPreProcessCreateRoutine, Callback.routine, Routine.uses]
  | loadImage | threadTerminate => simp [Callback.body]
  | threadCreate branch =>
    cases branch with
    | ownProcess => simp [Callback.body, fltpHandleThreadCreate]
    | notMonitored records =>
      simp [Callback.body, fltpHandleThreadCreate, getProcess, findProcessUnsafe, Callback.routine,
        Routine.uses, or_imp, forall_and]
    | remote records addresses =>
      simp [Callback.body, fltpHandleThreadCreate, getProcess, findProcessUnsafe, newStackTrace,
        Callback.routine, Routine.uses, or_imp, forall_and]
    | main records addresses set isSet =>
      cases set <;> cases isSet <;>
        simp [Callback.body, fltpHandleThreadCreate, getProcess, findProcessUnsafe, newStackTrace,
          fltpCheckAndSetGlobalStackTrace, Callback.routine, Routine.uses, or_imp, forall_and]

theorem balanced (c : Callback) : Balanced none c.body := by
  cases c with
  | processCreate allocated => cases allocated <;> simp [Callback.body, insertProcess]
  | processTerminate records found => cases found <;> simp [Callback.body, terminateProcess, findProcessUnsafe]
  | registry renames => cases renames <;> simp [Callback.body, fltRegistryNotifyRoutine]
  | preProcessCreate pidSet => rcases pidSet with - | - | - <;> simp [Callback.body, fltPreProcessCreateRoutine]
  | loadImage | threadTerminate => rfl
  | threadCreate branch =>
    cases branch with
    | ownProcess => rfl
    | notMonitored records => simp [Callback.body, fltpHandleThreadCreate, getProcess, findProcessUnsafe]
    | remote records addresses => simp [Callback.body, fltpHandleThreadCreate, getProcess, findProcessUnsafe, newStackTrace]
    | main records addresses set isSet =>
      cases set <;> cases isSet <;>
        simp [Callback.body, fltpHandleThreadCreate, getProcess, findProcessUnsafe, newStackTrace,
          fltpCheckAndSetGlobalStackTrace]

def callbacks : Calls Callback Routine Object := ⟨Callback.routine, Callback.body, Routine.uses, within, balanced⟩

/-! ## The driver -/

def cppCallStaticConstructors : List (Op Routine Object) :=
  [.construct .lock, .construct .collectorLock, .construct .activeProcesses]

/-- Without a list of modules nothing looks at the base address. -/
def gdrvpInitializeNtImageBase (queried : Bool) : List (Op Routine Object) :=
  if queried then [.step (.access .ntModule)] else []

/-- `new DeviceObject` may fail, and when it does not, `IoCreateDevice` or
`IoCreateSymbolicLink` may. -/
def newDeviceObject (allocated : Bool) : List (Op Routine Object) :=
  .construct .deviceObject :: if allocated then [.register .device] else []

def gdrvInitGlobalData (queried allocated : Bool) : List (Op Routine Object) :=
  [.construct .ntModule, .construct .cookie, .construct .altitude, .construct .registrationHandle,
    .construct .protectedProcessPid, .construct .obRegistration, .construct .processCreateGoodStackTrace] ++
    newDeviceObject allocated ++ gdrvpInitializeNtImageBase queried

def driverEntry (queried allocated : Bool) : List (Op Routine Object) :=
  cppCallStaticConstructors ++ gdrvInitGlobalData queried allocated ++
    [.register .createProcess, .step (.access .altitude), .register .registry, .step (.access .cookie),
      .register .loadImage, .step (.access .obRegistration), .register .preProcessCreate,
      .step (.access .registrationHandle), .register .createThread]

/-- `~DeviceObject` looks for the remove lock behind the device; `delete` of a
null pointer does nothing. -/
def deleteDeviceObject (allocated : Bool) : List (Op Routine Object) :=
  .step (.access .deviceObject) :: ((if allocated then [.follow .device, .revoke .device] else []) ++ [.destruct .deviceObject])

def gdrvUninitGlobalData (allocated : Bool) : List (Op Routine Object) :=
  [.step (.acquire .lock false), .destruct .cookie, .destruct .altitude, .destruct .registrationHandle,
    .destruct .protectedProcessPid] ++ deleteDeviceObject allocated ++
    [.destruct .obRegistration, .step (.access .processCreateGoodStackTrace), .destruct .processCreateGoodStackTrace,
      .step (.release .lock false)] ++
    -- in the source under the lock; there is no request to wait for
    if allocated then [.await .device] else []

/-- `~Pushlock`. -/
def destructPushlock (o : Object) : List (Op Routine Object) :=
  [.step (.acquire o false), .step (.release o false), .destruct o]

/-- `~GLOBAL_DATA`, if it was registered. -/
def cppCallStaticDestructors (registered : Bool) : List (Op Routine Object) :=
  if registered then
    [.step (.acquire .collectorLock false), .step (.access .activeProcesses), .step (.release .collectorLock false),
      .step (.access .activeProcesses), .destruct .activeProcesses] ++
      destructPushlock .collectorLock ++ destructPushlock .lock
  else []

def remove (k : Routine) : List (Op Routine Object) := [.revoke k, .await k]

/-- `ObUnRegisterCallbacks` follows the handle that `ObRegisterCallbacks` has left. -/
def driverUnload (allocated registered : Bool) : List (Op Routine Object) :=
  remove .createProcess ++ .step (.access .cookie) :: remove .registry ++ remove .loadImage ++ remove .createThread ++
    .step (.access .registrationHandle) :: .follow .preProcessCreate :: remove .preProcessCreate ++
    gdrvUninitGlobalData allocated ++ cppCallStaticDestructors registered

/-- From the load to the unload; between the two the driver may wait as long as it likes. -/
def driver (queried allocated registered : Bool) : List (Op Routine Object) :=
  driverEntry queried allocated ++ driverUnload allocated registered

def leftBehind (registered : Bool) : List Object :=
  if registered then [.ntModule] else [.ntModule, .activeProcesses, .collectorLock, .lock]

theorem check_driver (queried allocated registered : Bool) :
    check Routine.uses (leftBehind registered) ⟨none, [], [], []⟩ (driver queried allocated registered) = true := by
  cases queried <;> cases allocated <;> cases registered <;> rfl

/-- The callbacks must be gone before what they use: with the global data reset first the check fails. -/
example : check Routine.uses (leftBehind true) ⟨none, [], [], []⟩
    (driverEntry true true ++ gdrvUninitGlobalData true ++ remove .createProcess ++ remove .registry ++ remove .loadImage ++
      remove .createThread ++ remove .preProcessCreate ++ cppCallStaticDestructors true) = false := rfl

theorem follow_mem_driver {queried allocated registered : Bool} {k : Routine}
    (h : .follow k ∈ driver queried allocated registered) : k = .preProcessCreate ∨ k = .device := by
  revert h
  cases k <;> cases queried <;> cases allocated <;> cases registered <;> decide

/-- **Callbacks and unload.** From the load to the end of the unload, however many calls of the callbacks run and however
they are interleaved with the driver and with each other, no call and no step of the driver meets a field that is not
there; what the unload can miss is a registration of the object callbacks that failed, or a device that was not created.
Until the end somebody can go on, in a run as long as what was started allows, and then no call is running and no callback
registered. -/
theorem callbacks_life (queried allocated registered : Bool) (as : List (Act Callback)) (s : State Routine Object)
    (hrun : (system callbacks (driver queried allocated registered)).exec (fun _ _ => True)
      (begin (driver queried allocated registered)) as = some s) :
    (s.fault = none ∨ ∃ k ∈ s.refused, (k = .preProcessCreate ∨ k = .device) ∧ s.fault = some (.unregistered k)) ∧
      (s.fault = none → s.owner.todo ≠ [] ∨ s.running ≠ [] →
        ∃ a : Act Callback, (∀ c, a ≠ .start c) ∧ (step callbacks s a).isSome) ∧
      as.length ≤ (driver queried allocated registered).length + 1 + (as.map (cost callbacks)).sum ∧
      (s.owner.todo = [] → s.running = [] ∧ s.registered = [] ∧ s.live = leftBehind registered) := by
  have hr : (system callbacks (driver queried allocated registered)).Reachable s :=
    (System.reach_of_exec rfl as hrun).reachable
  have h := inv_reachable (check_driver queried allocated registered) hr
  refine ⟨h.fault.imp_right ?_, h.goes_on, exec_length hrun, h.finished⟩
  rintro ⟨k, hk, hfollow, hf⟩
  exact ⟨k, hk, follow_mem_driver hfollow, hf⟩

/-- A thread and a handle are created; the unload has to wait for both. -/
def twoCallsRun : List (Act Callback) := List.flatten
  [.replicate 22 (.owner true), [.start (.threadCreate (.main 0 1 (some 1) true)), .start (.preProcessCreate (some true))],
    .replicate 3 (.call 0), [.call 1], .replicate 8 (.owner true), [.call 0], .replicate 4 (.call 1), .replicate 8 (.call 0),
    .replicate 30 (.owner true)]

theorem callbacks_life_two_calls : ∃ s : State Routine Object,
    (system callbacks (driver true true true)).exec (fun _ _ => True) (begin (driver true true true)) twoCallsRun = some s ∧
      s.running = [] ∧ s.registered = [] ∧ s.live = leftBehind true :=
  ⟨_, rfl, (callbacks_life true true true twoCallsRun _ rfl).2.2.2 rfl⟩

end Dmsk.NotificationCallbacks
