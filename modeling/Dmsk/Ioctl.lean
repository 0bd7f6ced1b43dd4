import Dmsk.ProcessProtection
import Dmsk.Rundown

/-!
# The drivers that answer device requests

Each driver has one device, with its remove lock in the device extension. The
first driver passes its requests to the second, whose completion of a request
calls the first driver's completion routine. The result of
`IoAcquireRemoveLock` is read nowhere.
-/

namespace Dmsk.Ioctl

open Protection Rundown

inductive Device
  | first
  | second
  | notification
deriving DecidableEq, Repr

instance : Fintype Device where
  elems := {.first, .second, .notification}
  complete d := by cases d <;> simp

inductive Work
  /-- The request is completed with the status. -/
  | completeRequest (status : NtStatus)
  | callDriver
  | setProtectedProcessPid (pid : BitVec 32)
deriving DecidableEq, Repr

abbrev Code := List (Op Device Work)

inductive Request
  | create
  | close
  | deviceControl (irp : Irp)
deriving DecidableEq, Repr

/-! ## `IOCTLSecondDriver` -/

namespace Second

/-- `completion` is what the completion routine of the caller does. -/
def ioctlHandleIrpMjDeviceControl (irp : Irp) (completion : Code) : Code :=
  let status :=
    if irp.ioControlCode = firstIoctlCode ∨ irp.ioControlCode = secondIoctlCode then statusSuccess
    else statusNotSupported
  [.start .second, .acquire .second, .work (.completeRequest status)] ++ completion ++ [.release .second]

def ioctlHandleIrpMjCreate (completion : Code) : Code :=
  [.start .second, .acquire .second, .work (.completeRequest statusSuccess)] ++ completion ++ [.release .second]

def ioctlHandleIrpMjClose (completion : Code) : Code :=
  [.start .second, .acquire .second, .work (.completeRequest statusSuccess)] ++ completion ++ [.release .second]

def dispatch (completion : Code) : Request → Code
  | .create => ioctlHandleIrpMjCreate completion
  | .close => ioctlHandleIrpMjClose completion
  | .deviceControl irp => ioctlHandleIrpMjDeviceControl irp completion

def ioctlUninitDeviceObject : Code := [.acquire .second, .beginRemove .second, .await .second, .delete .second]

end Second

/-! ## `IOCTLFirstDriver` -/

namespace First

def ioctlCompletionRoutine : Code := [.release .first]

def ioctlPassIrp (request : Request) : Code := .work .callDriver :: Second.dispatch ioctlCompletionRoutine request

def ioctlHandleIrpMjDeviceControl (irp : Irp) : Code :=
  [.start .first, .acquire .first] ++
    if irp.ioControlCode = firstIoctlCode ∨ irp.ioControlCode = secondIoctlCode then ioctlPassIrp (.deviceControl irp)
    else [.work (.completeRequest statusNotSupported), .release .first]

def ioctlHandleIrpMjCreate : Code := [.start .first, .acquire .first] ++ ioctlPassIrp .create

def ioctlHandleIrpMjClose : Code := [.start .first, .acquire .first] ++ ioctlPassIrp .close

def dispatch : Request → Code
  | .create => ioctlHandleIrpMjCreate
  | .close => ioctlHandleIrpMjClose
  | .deviceControl irp => ioctlHandleIrpMjDeviceControl irp

def ioctlUninitDeviceObject : Code := [.acquire .first, .beginRemove .first, .await .first, .delete .first]

end First

/-! ## `NotificationDriver` -/

namespace Notification

/-- The mutex is `gDrvData.Lock`. -/
def handleProtectProcess (irp : Irp) : Code × NtStatus :=
  if irp.inputBufferLength ≠ 4 then ([], statusInvalidBufferSize)
  else ([.lock, .work (.setProtectedProcessPid (readUInt32 irp.systemBuffer)), .unlock], statusSuccess)

def ioctlHandleIrpMjDeviceControl (irp : Irp) : Code :=
  let handled : Code × NtStatus :=
    if irp.ioControlCode = firstIoctlCode then ([], statusSuccess)
    else if irp.ioControlCode = secondIoctlCode then ([], statusSuccess)
    else if irp.ioControlCode = thirdIoctlCode then handleProtectProcess irp
    else ([], statusNotSupported)
  [.start .notification, .acquire .notification] ++ handled.1 ++
    [.work (.completeRequest handled.2), .release .notification]

def ioctlHandleIrpMjCreate : Code :=
  [.start .notification, .acquire .notification, .work (.completeRequest statusSuccess), .release .notification]

def ioctlHandleIrpMjClose : Code :=
  [.start .notification, .acquire .notification, .work (.completeRequest statusSuccess), .release .notification]

def dispatch : Request → Code
  | .create => ioctlHandleIrpMjCreate
  | .close => ioctlHandleIrpMjClose
  | .deviceControl irp => ioctlHandleIrpMjDeviceControl irp

/-- `DeviceObject::~DeviceObject`. -/
def destroyDeviceObject : Code :=
  [.acquire .notification, .beginRemove .notification, .await .notification, .delete .notification]

def gdrvUninitGlobalData : Code := [.lock] ++ destroyDeviceObject ++ [.unlock]

end Notification

def dispatch : Device → Request → Code
  | .first => First.dispatch
  | .second => Second.dispatch []
  | .notification => Notification.dispatch

def unload : Device → Code
  | .first => First.ioctlUninitDeviceObject
  | .second => Second.ioctlUninitDeviceObject
  | .notification => Notification.gdrvUninitGlobalData

/-! ## What the requests are made of -/

def Work.run (d : GlobalData) : Op Device Work → GlobalData
  | .work (.setProtectedProcessPid pid) => { d with protectedProcessPid := pid }
  | _ => d

def completed (code : Code) : Option NtStatus := code.findSome? fun
  | .work (.completeRequest status) => some status
  | _ => none

/-- The steps of a device-control request add up to the handler that `Protection` runs in one. -/
theorem deviceControl_run (d : GlobalData) (irp : Irp) :
    (Notification.ioctlHandleIrpMjDeviceControl irp).foldl Work.run d = (Protection.ioctlHandleIrpMjDeviceControl d irp).1 ∧
      completed (Notification.ioctlHandleIrpMjDeviceControl irp) =
        some (Protection.ioctlHandleIrpMjDeviceControl d irp).2 := by
  unfold Notification.ioctlHandleIrpMjDeviceControl Protection.ioctlHandleIrpMjDeviceControl
  split
  · exact ⟨rfl, rfl⟩
  split
  · exact ⟨rfl, rfl⟩
  split
  · unfold Notification.handleProtectProcess Protection.handleProtectProcess
    split <;> exact ⟨rfl, rfl⟩
  · exact ⟨rfl, rfl⟩

def disciplined (code : Code) : Bool :=
  alternates mutex code && !inside mutex code && [Device.first, .second, .notification].all fun d =>
    alternates (refs d) code && !inside (refs d) code && guarded (.beginRemove d) (.await d) code &&
      guarded (.await d) (.delete d) code

theorem dispatch_cases {p : Code → Prop} (d : Device) (request : Request)
    (passed : ∀ status, p ([.start .first, .acquire .first, .work .callDriver, .start .second, .acquire .second,
      .work (.completeRequest status), .release .first, .release .second]))
    (completed : ∀ d status, p [.start d, .acquire d, .work (.completeRequest status), .release d])
    (protect : ∀ pid, p [.start .notification, .acquire .notification, .lock, .work (.setProtectedProcessPid pid),
      .unlock, .work (.completeRequest statusSuccess), .release .notification]) :
    p (dispatch d request) := by
  cases d with
  | first =>
    cases request with
    | create => exact passed _
    | close => exact passed _
    | deviceControl irp =>
      simp only [dispatch, First.dispatch, First.ioctlHandleIrpMjDeviceControl]
      split
      · exact passed _
      · exact completed _ _
  | second => cases request <;> exact completed _ _
  | notification =>
    cases request with
    | create => exact completed _ _
    | close => exact completed _ _
    | deviceControl irp =>
      simp only [dispatch, Notification.dispatch, Notification.ioctlHandleIrpMjDeviceControl]
      split
      · exact completed _ _
      split
      · exact completed _ _
      split
      · unfold Notification.handleProtectProcess
        split
        · exact completed _ _
        · exact protect _
      · exact completed _ _

theorem dispatch_disciplined (d : Device) (request : Request) : disciplined (dispatch d request) = true := by
  apply dispatch_cases (p := fun code => disciplined code = true) d request
  · exact fun _ => rfl
  · intro d _
    cases d <;> rfl
  · exact fun _ => rfl

theorem unload_disciplined (d : Device) : disciplined (unload d) = true := by
  cases d <;> rfl

theorem dispatch_no_removal (d : Device) (request : Request) (e : Device) : .beginRemove e ∉ dispatch d request := by
  refine dispatch_cases (p := fun code => .beginRemove e ∉ code) d request ?_ ?_ ?_ <;> simp

end Dmsk.Ioctl
