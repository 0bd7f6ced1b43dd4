import Dmsk.Filter
import Dmsk.Locked
import Dmsk.ProcessProtection

/-!
# What `gDrvData.Lock` guards

The protected process id and the baseline trace share one lock. A request, a
handle operation or a thread notification that comes to its guard reads and
writes them one access at a time, on any processor. A handle operation reads
the id twice, and it is the same both times.
-/

namespace Dmsk.Protection.Locked

variable {w : ℕ}

structure Data (w : ℕ) where
  protection : GlobalData
  drvData : DrvData w

inductive Call (w : ℕ)
  | deviceControl (irp : Irp)
  | preOperation (currentProcessId : Handle w) (info : PreOperationInformation w)
  | checkAndSetGlobalStackTrace (baseline : Option (Frames w))

inductive Answer (w : ℕ)
  | status (status : NtStatus)
  | preop (result : PreopCallbackStatus × PreOperationInformation w)
  | nothing
deriving DecidableEq

/-- The others return before the guard. -/
def Call.guarded : Call w → Bool
  | .deviceControl irp => irp.ioControlCode = thirdIoctlCode && irp.inputBufferLength = 4
  | .preOperation currentProcessId info => !info.kernelHandle && currentProcessId ≠ info.object.targetProcessId
  | .checkAndSetGlobalStackTrace _ => true

abbrev Guarded (w : ℕ) := { c : Call w // c.guarded = true }

/-! ## Access by access -/

abbrev Code (w : ℕ) (ρ : Type) := Prog (Data w) Fault ρ

def getProtectedProcessPid : Code w (BitVec 32) := .read fun d => .ok d.protection.protectedProcessPid

def setProtectedProcessPid (pid : BitVec 32) : Code w Unit := .write fun d => .ok { d with protection := ⟨pid⟩ }

def getProcessCreateGoodStackTrace : Code w (Option (StackTrace w)) :=
  .read fun d => .ok d.drvData.processCreateGoodStackTrace

def setProcessCreateGoodStackTrace (trace : Option (StackTrace w)) : Code w Unit :=
  .write fun d => .ok { d with drvData := { d.drvData with processCreateGoodStackTrace := trace } }

def getNt : Code w (NtModule w) := .read fun d => .ok d.drvData.nt

/-- From the guard to the end of its scope. -/
def code : Call w → Code w (Answer w)
  | .deviceControl irp => do
    setProtectedProcessPid (readUInt32 irp.systemBuffer)
    return .status statusSuccess
  | .preOperation _ info => do
    if (← getProtectedProcessPid) = 0 then return .preop (.obPreopSuccess, info)
    else if info.object.targetProcessId ≠ (← getProtectedProcessPid).setWidth w then return .preop (.obPreopSuccess, info)
    else return .preop (.obPreopSuccess, { info with parameters := info.parameters.removeTerminateAccess })
  | .checkAndSetGlobalStackTrace baseline => do
    if (← getProcessCreateGoodStackTrace).isNone then
      setProcessCreateGoodStackTrace (baseline.map (StackTrace.new (← getNt)))
    return .nothing

def procedures : Procedures (Guarded w) (Data w) Fault (Answer w) where
  code c := code c.val
  shares _ := false
  readOnly _ h := by cases h

/-! ## Without interruption -/

def Call.run (d : Data w) : Call w → Data w × Answer w
  | .deviceControl irp =>
    let (protection, status) := ioctlHandleIrpMjDeviceControl d.protection irp
    ({ d with protection := protection }, .status status)
  | .preOperation currentProcessId info => (d, .preop (fltPreProcessCreateRoutine d.protection currentProcessId info))
  | .checkAndSetGlobalStackTrace baseline =>
    ({ d with drvData := fltpCheckAndSetGlobalStackTrace d.drvData baseline }, .nothing)

/-- A call that comes to its guard does what the whole routine does. -/
theorem run_code (d : Data w) (c : Guarded w) : (code c.val).run d = .ok (c.val.run d) := by
  obtain ⟨c, hc⟩ := c
  cases c with
  | deviceControl irp =>
    simp only [Call.guarded, Bool.and_eq_true, decide_eq_true_eq] at hc
    simp [code, Call.run, setProtectedProcessPid, Prog.run_bind, ioctlHandleIrpMjDeviceControl, handleProtectProcess,
      hc.1, hc.2, third_ne_first, third_ne_second]
  | preOperation currentProcessId info =>
    simp only [Call.guarded, Bool.and_eq_true, Bool.not_eq_true', decide_eq_true_eq] at hc
    simp only [code, Call.run, getProtectedProcessPid, Prog.run_bind, Prog.run_read, ok_bind, fltPreProcessCreateRoutine,
      hc.1, Bool.false_eq_true, if_false, if_neg hc.2]
    by_cases h0 : d.protection.protectedProcessPid = 0
    · simp only [if_pos h0]
      rfl
    · simp only [if_neg h0, Prog.run_bind, Prog.run_read, ok_bind]
      by_cases ht : info.object.targetProcessId = d.protection.protectedProcessPid.setWidth w
      · simp only [if_neg (not_not.mpr ht)]
        rfl
      · simp only [if_pos ht]
        rfl
  | checkAndSetGlobalStackTrace baseline =>
    simp only [code, Call.run, getProcessCreateGoodStackTrace, setProcessCreateGoodStackTrace, getNt, Prog.run_bind,
      Prog.run_read, ok_bind, fltpCheckAndSetGlobalStackTrace]
    cases hg : d.drvData.processCreateGoodStackTrace with
    | none => simp [Prog.run_bind]
    | some good => simp

/-- A call that returns before its guard needs no lock. -/
theorem run_of_not_guarded {c : Call w} (hc : c.guarded = false) (d d' : Data w) :
    (c.run d).1 = d ∧ (c.run d).2 = (c.run d').2 := by
  cases c with
  | deviceControl irp =>
    simp only [Call.guarded, Bool.and_eq_false_iff, decide_eq_false_iff_not] at hc
    simp only [Call.run, ioctlHandleIrpMjDeviceControl, handleProtectProcess]
    split
    · exact ⟨rfl, rfl⟩
    · split
      · exact ⟨rfl, rfl⟩
      · split
        · rename_i hthird
          have hlen := hc.resolve_left (not_not.mpr hthird)
          simp only [if_pos hlen, and_self]
        · exact ⟨rfl, rfl⟩
  | preOperation currentProcessId info =>
    have hdue : ∀ pid, ¬ Due pid currentProcessId info := by
      rintro pid ⟨hkernel, hother, -⟩
      simp [Call.guarded, hkernel, hother] at hc
    refine ⟨rfl, ?_⟩
    simp only [Call.run, preOperation_eq, if_neg (hdue _)]
  | checkAndSetGlobalStackTrace baseline => cases hc

/-! ## In the order of the lock -/

def spec : Spec (Data w) (Guarded w) (Answer w) where
  valid _ _ := True
  next d c := (c.val.run d).1
  out d c := (c.val.run d).2

theorem admits : ∀ (cs : List (Guarded w)) (d : Data w), spec.Admits d cs
  | [], _ => trivial
  | c :: cs, d => ⟨trivial, admits cs (spec.next d c)⟩

theorem refines : Refines (fun d c => (procedures.code c).run d) (spec (w := w)) Eq := by
  rintro d _ c rfl -
  exact ⟨_, run_code d c, rfl⟩

theorem serial_eq (d : Data w) (cs : List (Guarded w)) :
    procedures.serial d cs = .ok (spec.after d cs, spec.outs d cs) := by
  obtain ⟨d', hrun, rfl⟩ := refines.run cs (rfl : d = d) (admits cs d)
  exact hrun

def Call.event : Call w → Option (Event w)
  | .deviceControl irp => some (.deviceControl irp)
  | .preOperation currentProcessId info => some (.preOperation currentProcessId info)
  | .checkAndSetGlobalStackTrace _ => none

def Call.frames : Call w → Option (Frames w)
  | .checkAndSetGlobalStackTrace baseline => baseline
  | _ => none

def events (cs : List (Guarded w)) : List (Event w) := cs.filterMap fun c => c.val.event

theorem after_protection : ∀ (cs : List (Guarded w)) (d : Data w),
    (spec.after d cs).protection = (events cs).foldl Event.run d.protection
  | [], _ => rfl
  | ⟨c, hc⟩ :: cs, d => by
    have ih := after_protection cs (spec.next d ⟨c, hc⟩)
    cases c <;> exact ih

theorem after_drvData : ∀ (cs : List (Guarded w)) (d : Data w),
    (spec.after d cs).drvData.nt = d.drvData.nt ∧
    (spec.after d cs).drvData.processCreateGoodStackTrace = d.drvData.processCreateGoodStackTrace.or
      ((cs.filterMap fun c => c.val.frames).head?.map (StackTrace.new d.drvData.nt))
  | [], d => ⟨rfl, by simp [Spec.after]⟩
  | ⟨c, hc⟩ :: cs, d => by
    obtain ⟨hnt, htrace⟩ := after_drvData cs (spec.next d ⟨c, hc⟩)
    cases c with
    | deviceControl irp => exact ⟨hnt, htrace⟩
    | preOperation currentProcessId info => exact ⟨hnt, htrace⟩
    | checkAndSetGlobalStackTrace baseline =>
      refine ⟨hnt.trans (fltpCheckAndSet_nt _ _), htrace.trans ?_⟩
      simp only [spec, Call.run, fltpCheckAndSetGlobalStackTrace]
      cases hg : d.drvData.processCreateGoodStackTrace with
      | some good => simp [hg]
      | none => cases baseline <;> simp [Call.frames]

section
variable {T : Type} [DecidableEq T] {d₀ : Data w} {s : Procedures.State T (Guarded w) (Data w) Fault (Answer w)}

/-- **The lock of `gDrvData`.** Requests, handle operations and notifications run on any number of
processors, access by access. As long as somebody is not done, somebody can go on. A handle
operation loses the terminate right exactly when it is due for the last request that got the
lock before it. While nobody is inside, the protected id is that of the last request, and the
baseline is the first one that was created. -/
theorem lock_serializes (h0 : d₀.protection = ⟨0⟩) (hb : d₀.drvData.processCreateGoodStackTrace = none)
    (hr : (procedures.system T d₀).Reachable s) :
    s.fault = none ∧
    (∀ t, s.pc t ≠ .idle → ∃ act, (∀ u c, act ≠ .call u c) ∧ (procedures.step s act).isSome) ∧
    (∀ k t c info hc o, s.calls[k]? = some (t, ⟨.preOperation c info, hc⟩) → (k, o) ∈ s.answers →
      ∃ info', o = .preop (.obPreopSuccess, info') ∧
        let pid := lastPayload (events ((s.calls.map Prod.snd).take k))
        (Due pid c info → Stripped info info') ∧ (¬ Due pid c info → info' = info)) ∧
    (s.exclusive = none →
      s.data.protection.protectedProcessPid = lastPayload (events (s.calls.map Prod.snd)) ∧
      s.data.drvData.processCreateGoodStackTrace =
        ((s.calls.map Prod.snd).filterMap fun c => c.val.frames).head?.map (StackTrace.new d₀.drvData.nt)) := by
  have hI : procedures.Sound fun _ : Data w => True := fun c d _ => ⟨_, _, run_code d c, trivial⟩
  obtain ⟨hg, d, os, hs, -⟩ := Procedures.serial_reachable hI trivial hr
  have hrun := hs.run
  rw [serial_eq] at hrun
  cases hrun
  have hlast : ∀ cs, (spec.after d₀ cs).protection.protectedProcessPid = lastPayload (events cs) := by
    intro cs
    rw [after_protection, foldl_run, h0]
    rfl
  refine ⟨hs.fault, fun t ht => Procedures.goes_on hg hs.fault ht, ?_, ?_⟩
  · intro k t c info hc o hk ho
    have hout := hs.answers _ ho
    rw [Spec.outs_getElem?, List.getElem?_map, hk] at hout
    have heq : o = .preop (fltPreProcessCreateRoutine (spec.after d₀ ((s.calls.map Prod.snd).take k)).protection c info) :=
      (Option.some.inj hout).symm
    rw [preOperation_eq, hlast] at heq
    refine ⟨_, heq, ?_, ?_⟩
    · intro hdue
      rw [if_pos hdue]
      exact stripped_removeTerminateAccess info
    · intro hdue
      rw [if_neg hdue]
  · intro he
    rw [hs.data he]
    refine ⟨hlast _, ?_⟩
    rw [(after_drvData _ _).2, hb, Option.none_or]

end

def driverData : Data 64 := ⟨⟨0⟩, ⟨⟨fun _ => none, ⟨0, 0⟩⟩, none, ⟨0, 0⟩⟩⟩

def protectRequest (pid : BitVec 8) : Guarded 64 := ⟨.deviceControl ⟨thirdIoctlCode, [pid, 0, 0, 0]⟩, rfl⟩

/-- A request comes between the two reads of a handle operation, and waits. -/
def requestWaits : List (Procedures.Act Bool (Guarded 64)) :=
  [.call false (protectRequest 77), .acquire false, .access false, .release false,
    .call true ⟨.preOperation 4 openThread77, rfl⟩, .acquire true, .access true, .call false (protectRequest 78),
    .access true, .release true, .acquire false]

def requestWaitsEnd : Procedures.State Bool (Guarded 64) (Data 64) Fault (Answer 64) :=
  ((procedures.system Bool driverData).exec (fun _ _ => True) (Procedures.start driverData) requestWaits).get
    (by decide +kernel)

theorem lock_serializes_requestWaits : ∃ info', Stripped openThread77 info' ∧
    (1, Answer.preop (.obPreopSuccess, info')) ∈ requestWaitsEnd.answers := by
  have hs := lock_serializes rfl rfl (System.reach_of_exec rfl requestWaits (Option.some_get _).symm :
    (procedures.system Bool driverData).Reachable requestWaitsEnd)
  let info' : PreOperationInformation 64 := { openThread77 with parameters := openThread77.parameters.removeTerminateAccess }
  have ho : (1, Answer.preop (.obPreopSuccess, info')) ∈ requestWaitsEnd.answers := by decide +kernel
  obtain ⟨info'', heq, hdue, -⟩ := hs.2.2.1 1 true 4 openThread77 rfl _ rfl ho
  exact ⟨info'', hdue (by decide +kernel), heq ▸ ho⟩

end Dmsk.Protection.Locked
