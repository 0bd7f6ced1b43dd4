import Dmsk.Nt
import Mathlib.Data.List.Basic

/-!
# Process protection

A device-control request names the process to protect (`DeviceObject.cpp`), and
the pre-operation on handles takes the right to terminate it away from other
processes (`FltPreProcessCreateRoutine`). Both run under `gDrvData.Lock`.
-/

namespace Dmsk.Protection

variable {w : ℕ}

/-! ## Device control -/

def ioctlDeviceType : BitVec 32 := 56789

def firstIoctlCode : BitVec 32 := ctlCode ioctlDeviceType 0x850 methodBuffered fileAnyAccess
def secondIoctlCode : BitVec 32 := ctlCode ioctlDeviceType 0x851 methodBuffered fileAnyAccess
def thirdIoctlCode : BitVec 32 := ctlCode ioctlDeviceType 0x852 methodBuffered fileAnyAccess

/-- A device-control request. `InputBufferLength` is the length of the buffer. -/
structure Irp where
  ioControlCode : BitVec 32
  systemBuffer : List (BitVec 8)
deriving DecidableEq, Repr

def Irp.inputBufferLength (irp : Irp) : ℕ := irp.systemBuffer.length

/-- Reads an `unsigned __int32`, the lowest byte first. -/
def readUInt32 (buffer : List (BitVec 8)) : BitVec 32 :=
  (buffer.getD 3 0 ++ buffer.getD 2 0 : BitVec 16) ++ (buffer.getD 1 0 ++ buffer.getD 0 0 : BitVec 16)

structure GlobalData where
  protectedProcessPid : BitVec 32
deriving DecidableEq, Repr

def handleProtectProcess (d : GlobalData) (irp : Irp) : GlobalData × NtStatus :=
  if irp.inputBufferLength ≠ 4 then (d, statusInvalidBufferSize)
  else ({ d with protectedProcessPid := readUInt32 irp.systemBuffer }, statusSuccess)

def ioctlHandleIrpMjDeviceControl (d : GlobalData) (irp : Irp) : GlobalData × NtStatus :=
  if irp.ioControlCode = firstIoctlCode then (d, statusSuccess)
  else if irp.ioControlCode = secondIoctlCode then (d, statusSuccess)
  else if irp.ioControlCode = thirdIoctlCode then handleProtectProcess d irp
  else (d, statusNotSupported)

/-! ## Handle pre-operations -/

abbrev AccessMask := BitVec 32

/-- The object a handle is opened to, with the id of the process it is or
belongs to. -/
inductive Object (w : ℕ)
  | process (processId : Handle w)
  | thread (processId : Handle w)
  | other
deriving DecidableEq, Repr

/-- `Parameters`, whose member is selected by `Operation`. -/
inductive Parameters (w : ℕ)
  | createHandleInformation (desiredAccess originalDesiredAccess : AccessMask)
  | duplicateHandleInformation (desiredAccess originalDesiredAccess : AccessMask) (sourceProcess targetProcess : Handle w)
deriving DecidableEq, Repr

structure PreOperationInformation (w : ℕ) where
  kernelHandle : Bool
  object : Object w
  parameters : Parameters w
deriving DecidableEq, Repr

inductive PreopCallbackStatus
  | obPreopSuccess
deriving DecidableEq, Repr

def terminateAccessRight : AccessMask := 0x0001

def Object.targetProcessId : Object w → Handle w
  | .process processId => processId
  | .thread processId => processId
  | .other => 0

def Parameters.removeTerminateAccess : Parameters w → Parameters w
  | .createHandleInformation desiredAccess original =>
    .createHandleInformation (desiredAccess &&& ~~~terminateAccessRight) original
  | .duplicateHandleInformation desiredAccess original source target =>
    .duplicateHandleInformation (desiredAccess &&& ~~~terminateAccessRight) original source target

def fltPreProcessCreateRoutine (d : GlobalData) (currentProcessId : Handle w) (info : PreOperationInformation w) :
    PreopCallbackStatus × PreOperationInformation w :=
  if info.kernelHandle then (.obPreopSuccess, info)
  else
    let targetProcessId := info.object.targetProcessId
    if currentProcessId = targetProcessId then (.obPreopSuccess, info)
    else if d.protectedProcessPid = 0 then (.obPreopSuccess, info)
    -- the cast of the 32-bit id to a handle fills the high bits with zeros
    else if targetProcessId ≠ d.protectedProcessPid.setWidth w then (.obPreopSuccess, info)
    else (.obPreopSuccess, { info with parameters := info.parameters.removeTerminateAccess })

/-! ## Runs -/

inductive Event (w : ℕ)
  | deviceControl (irp : Irp)
  | preOperation (currentProcessId : Handle w) (info : PreOperationInformation w)
deriving DecidableEq, Repr

def Event.run (d : GlobalData) : Event w → GlobalData
  | .deviceControl irp => (ioctlHandleIrpMjDeviceControl d irp).1
  | .preOperation _ _ => d

/-- After the events, from the state that `GdrvInitGlobalData` leaves. -/
def after (es : List (Event w)) : GlobalData := es.foldl Event.run ⟨0⟩

/-! ## What the run has to do -/

def Irp.payload (irp : Irp) : Option (BitVec 32) :=
  if irp.ioControlCode = thirdIoctlCode ∧ irp.inputBufferLength = 4 then some (readUInt32 irp.systemBuffer)
  else none

def Event.payload : Event w → Option (BitVec 32)
  | .deviceControl irp => irp.payload
  | .preOperation _ _ => none

def lastPayload (es : List (Event w)) : BitVec 32 := (es.filterMap Event.payload).getLast?.getD 0

def Due (pid : BitVec 32) (currentProcessId : Handle w) (info : PreOperationInformation w) : Prop :=
  info.kernelHandle = false ∧ currentProcessId ≠ info.object.targetProcessId ∧ pid ≠ 0 ∧
    info.object.targetProcessId = pid.setWidth w

/-- `a'` is `a` without the lowest bit. -/
def ClearsTerminate (a a' : AccessMask) : Prop := ∀ i, a'.getLsbD i = (a.getLsbD i && decide (i ≠ 0))

/-- Nothing but the terminate bit of the access asked for has changed. -/
inductive Stripped : PreOperationInformation w → PreOperationInformation w → Prop
  | create {k o a a' original} : ClearsTerminate a a' →
      Stripped ⟨k, o, .createHandleInformation a original⟩ ⟨k, o, .createHandleInformation a' original⟩
  | duplicate {k o a a' original source target} : ClearsTerminate a a' →
      Stripped ⟨k, o, .duplicateHandleInformation a original source target⟩
        ⟨k, o, .duplicateHandleInformation a' original source target⟩

theorem third_ne_first : thirdIoctlCode ≠ firstIoctlCode := by decide

theorem third_ne_second : thirdIoctlCode ≠ secondIoctlCode := by decide

theorem deviceControl_eq (d : GlobalData) (irp : Irp) :
    (ioctlHandleIrpMjDeviceControl d irp).1 = ⟨(irp.payload).getD d.protectedProcessPid⟩ := by
  unfold ioctlHandleIrpMjDeviceControl Irp.payload handleProtectProcess
  by_cases h : irp.ioControlCode = thirdIoctlCode
  · rw [h, if_neg third_ne_first, if_neg third_ne_second, if_pos rfl]
    by_cases hl : irp.inputBufferLength = 4
    · simp [hl]
    · simp [hl]
  · have hp : ¬ (irp.ioControlCode = thirdIoctlCode ∧ irp.inputBufferLength = 4) := fun h' => h h'.1
    rw [if_neg h, if_neg hp]
    split
    · rfl
    · split <;> rfl

theorem run_eq (d : GlobalData) (e : Event w) : e.run d = ⟨e.payload.getD d.protectedProcessPid⟩ := by
  cases e with
  | deviceControl irp => exact deviceControl_eq d irp
  | preOperation c info => rfl

theorem foldl_run (es : List (Event w)) : ∀ d : GlobalData,
    (es.foldl Event.run d).protectedProcessPid = (es.filterMap Event.payload).getLast?.getD d.protectedProcessPid := by
  induction es with
  | nil => intro d; rfl
  | cons e es ih =>
    intro d
    rw [List.foldl_cons, ih, run_eq]
    cases h : e.payload with
    | none => rw [List.filterMap_cons_none h]; rfl
    | some p =>
      rw [List.filterMap_cons_some h, List.getLast?_cons]
      rfl

theorem clearsTerminate (a : AccessMask) : ClearsTerminate a (a &&& ~~~terminateAccessRight) := by
  intro i
  unfold terminateAccessRight
  rw [BitVec.getLsbD_and, BitVec.getLsbD_not]
  by_cases hi : i < 32
  · by_cases h0 : i = 0
    · subst h0; simp
    · simp [hi, h0]
  · rw [BitVec.getLsbD_of_ge a i (by omega)]; simp

theorem stripped_removeTerminateAccess (info : PreOperationInformation w) :
    Stripped info { info with parameters := info.parameters.removeTerminateAccess } := by
  obtain ⟨k, o, p⟩ := info
  cases p with
  | createHandleInformation a original => exact .create (clearsTerminate a)
  | duplicateHandleInformation a original source target => exact .duplicate (clearsTerminate a)

instance (pid : BitVec 32) (c : Handle w) (info : PreOperationInformation w) : Decidable (Due pid c info) :=
  inferInstanceAs (Decidable (_ ∧ _))

theorem preOperation_eq (d : GlobalData) (c : Handle w) (info : PreOperationInformation w) :
    fltPreProcessCreateRoutine d c info = (.obPreopSuccess,
      if Due d.protectedProcessPid c info then { info with parameters := info.parameters.removeTerminateAccess }
      else info) := by
  unfold fltPreProcessCreateRoutine
  by_cases hk : info.kernelHandle = true
  · rw [if_pos hk, if_neg fun h : Due _ _ _ => absurd (h.1.symm.trans hk) (by decide)]
  rw [if_neg hk]
  by_cases hc : c = info.object.targetProcessId
  · rw [if_neg fun h : Due _ _ _ => h.2.1 hc]
    exact if_pos hc
  apply (if_neg hc).trans
  by_cases h0 : d.protectedProcessPid = 0
  · rw [if_pos h0, if_neg fun h : Due _ _ _ => h.2.2.1 h0]
  rw [if_neg h0]
  by_cases ht : info.object.targetProcessId = d.protectedProcessPid.setWidth w
  · rw [if_neg (not_not.mpr ht), if_pos ⟨by simpa using hk, hc, h0, ht⟩]
  · rw [if_pos ht, if_neg fun h : Due _ _ _ => ht h.2.2.2]

/-- **Process protection.** After any run the protected process id is the last
payload. A handle operation then loses the terminate right, and nothing else,
exactly when it is due, and one on another process than both of two protected
ones gives the same result. -/
theorem protection_follows_requests (es : List (Event w)) :
    (after es).protectedProcessPid = lastPayload es ∧
    (∀ (c : Handle w) (info : PreOperationInformation w), (Event.preOperation c info).run (after es) = after es ∧
      (fltPreProcessCreateRoutine (after es) c info).1 = .obPreopSuccess ∧
      (Due (lastPayload es) c info → Stripped info (fltPreProcessCreateRoutine (after es) c info).2) ∧
      (¬ Due (lastPayload es) c info → (fltPreProcessCreateRoutine (after es) c info).2 = info)) ∧
    ∀ (es' : List (Event w)) (c : Handle w) (info : PreOperationInformation w),
      info.object.targetProcessId ≠ (lastPayload es).setWidth w →
      info.object.targetProcessId ≠ (lastPayload es').setWidth w →
      fltPreProcessCreateRoutine (after es) c info = fltPreProcessCreateRoutine (after es') c info := by
  have hlast : ∀ es : List (Event w), (after es).protectedProcessPid = lastPayload es := fun es => foldl_run es ⟨0⟩
  refine ⟨hlast es, fun c info => ⟨rfl, ?_, ?_, ?_⟩, ?_⟩
  · rw [preOperation_eq]
  · intro hd
    rw [preOperation_eq, hlast, if_pos hd]
    exact stripped_removeTerminateAccess info
  · intro hd
    rw [preOperation_eq, hlast, if_neg hd]
  · intro es' c info ht ht'
    rw [preOperation_eq, preOperation_eq, hlast, hlast, if_neg fun h => ht h.2.2.2, if_neg fun h => ht' h.2.2.2]

def protect77 : List (Event 64) :=
  [.deviceControl ⟨thirdIoctlCode, [77, 0, 0, 0]⟩, .deviceControl ⟨thirdIoctlCode, [1, 0]⟩]

def openThread77 : PreOperationInformation 64 := ⟨false, .thread 77, .createHandleInformation 0x1FFFFF 0x1FFFFF⟩

theorem protection_follows_requests_77 : Due (lastPayload protect77) 4 openThread77 ∧
    Stripped openThread77 (fltPreProcessCreateRoutine (after protect77) 4 openThread77).2 := by
  have hd : Due (lastPayload protect77) 4 openThread77 := by decide
  exact ⟨hd, ((protection_follows_requests protect77).2.1 4 openThread77).2.2.1 hd⟩

end Dmsk.Protection
