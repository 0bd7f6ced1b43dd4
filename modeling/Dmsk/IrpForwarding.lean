import Dmsk.IoctlSound

/-!
# Requests passed from the first driver to the second

The code of `Dmsk.Ioctl` again, with what the drivers write to the IRP, what
their routines return, and which routine makes each step: the first driver's
completion routine runs inside the second driver's `IoCompleteRequest`.
-/

namespace Dmsk.Forwarding

open Protection (Irp firstIoctlCode secondIoctlCode)
open Ioctl Rundown

/-- `ioctlCompletionRoutine` is that of the first driver. -/
inductive Routine
  | first
  | ioctlCompletionRoutine
  | second
deriving DecidableEq, Repr

abbrev Step := Routine × Op Device Work

/-- The fields of an IRP that the drivers write. `completionRoutine` belongs to
the stack location of the driver that has the IRP. -/
structure IrpFields where
  status : NtStatus
  information : ℕ
  completionRoutine : Bool
deriving DecidableEq, Repr

structure Call where
  steps : List Step
  irp : IrpFields
  returned : NtStatus

namespace First

def ioctlCompletionRoutine : List Step := [(.ioctlCompletionRoutine, .release .first)]

end First

/-- The completion routine was set for success, error and cancel, and returns
`STATUS_SUCCESS`, so the I/O manager always calls it and then goes on. -/
def ioCompleteRequest (routine : Routine) (irp : IrpFields) : List Step :=
  (routine, .work (.completeRequest irp.status)) :: if irp.completionRoutine then First.ioctlCompletionRoutine else []

namespace Second

def acquired : List Step := [(.second, .start .second), (.second, .acquire .second)]

def ioctlHandleIrpMjDeviceControl (request : Irp) (irp : IrpFields) : Call :=
  let status :=
    if request.ioControlCode = firstIoctlCode ∨ request.ioControlCode = secondIoctlCode then statusSuccess
    else statusNotSupported
  let irp := { irp with status := status, information := 0 }
  ⟨acquired ++ ioCompleteRequest .second irp ++ [(.second, .release .second)], irp, status⟩

def ioctlHandleIrpMjCreate (irp : IrpFields) : Call :=
  let irp := { irp with status := statusSuccess, information := 0 }
  ⟨acquired ++ ioCompleteRequest .second irp ++ [(.second, .release .second)], irp, statusSuccess⟩

def ioctlHandleIrpMjClose (irp : IrpFields) : Call :=
  let irp := { irp with status := statusSuccess, information := 0 }
  ⟨acquired ++ ioCompleteRequest .second irp ++ [(.second, .release .second)], irp, statusSuccess⟩

def dispatch : Request → IrpFields → Call
  | .create => ioctlHandleIrpMjCreate
  | .close => ioctlHandleIrpMjClose
  | .deviceControl request => ioctlHandleIrpMjDeviceControl request

end Second

namespace First

def acquired : List Step := [(.first, .start .first), (.first, .acquire .first)]

def ioctlPassIrp (request : Request) (irp : IrpFields) : Call :=
  let called := Second.dispatch request { irp with completionRoutine := true }
  ⟨(.first, .work .callDriver) :: called.steps, called.irp, called.returned⟩

def ioctlHandleIrpMjDeviceControl (request : Irp) (irp : IrpFields) : Call :=
  let status :=
    if request.ioControlCode = firstIoctlCode ∨ request.ioControlCode = secondIoctlCode then statusSuccess
    else statusNotSupported
  if !ntSuccess status then
    let irp := { irp with status := status }
    ⟨acquired ++ ioCompleteRequest .first irp ++ [(.first, .release .first)], irp, status⟩
  else
    let passed := ioctlPassIrp (.deviceControl request) irp
    ⟨acquired ++ passed.steps, passed.irp, passed.returned⟩

def ioctlHandleIrpMjCreate (irp : IrpFields) : Call :=
  let passed := ioctlPassIrp .create irp
  ⟨acquired ++ passed.steps, passed.irp, passed.returned⟩

def ioctlHandleIrpMjClose (irp : IrpFields) : Call :=
  let passed := ioctlPassIrp .close irp
  ⟨acquired ++ passed.steps, passed.irp, passed.returned⟩

def dispatch : Request → IrpFields → Call
  | .create => ioctlHandleIrpMjCreate
  | .close => ioctlHandleIrpMjClose
  | .deviceControl request => ioctlHandleIrpMjDeviceControl request

end First

/-! ## One request -/

/-- The statuses an IRP was completed with, and the routines that did it. -/
def completions (steps : List Step) : List (Routine × NtStatus) :=
  steps.filterMap fun
    | (r, .work (.completeRequest status)) => some (r, status)
    | _ => none

def ops (steps : List Step) : List (Op Device Work) := steps.map Prod.snd

/-- Requests that the first driver passes on: all but control codes it does not know. -/
def isForwarded : Request → Bool
  | .create => true
  | .close => true
  | .deviceControl request => request.ioControlCode = firstIoctlCode ∨ request.ioControlCode = secondIoctlCode

variable {request : Request} {irp : IrpFields}

theorem dispatch_cases {p : Call → Prop} (request : Request) (irp : IrpFields) (hc : irp.completionRoutine = false)
    (passed : isForwarded request = true →
      p ⟨[(.first, .start .first), (.first, .acquire .first), (.first, .work .callDriver), (.second, .start .second),
        (.second, .acquire .second), (.second, .work (.completeRequest statusSuccess)),
        (.ioctlCompletionRoutine, .release .first), (.second, .release .second)], ⟨statusSuccess, 0, true⟩, statusSuccess⟩)
    (rejected : isForwarded request = false →
      p ⟨[(.first, .start .first), (.first, .acquire .first), (.first, .work (.completeRequest statusNotSupported)),
        (.first, .release .first)], ⟨statusNotSupported, irp.information, false⟩, statusNotSupported⟩) :
    p (First.dispatch request irp) := by
  cases request with
  | create => exact passed rfl
  | close => exact passed rfl
  | deviceControl request =>
    by_cases hk : request.ioControlCode = firstIoctlCode ∨ request.ioControlCode = secondIoctlCode
    · have := passed (decide_eq_true hk)
      simpa [First.dispatch, First.ioctlHandleIrpMjDeviceControl, hk, First.ioctlPassIrp, Second.dispatch,
        Second.ioctlHandleIrpMjDeviceControl, ioCompleteRequest, First.acquired, Second.acquired,
        First.ioctlCompletionRoutine] using this
    · have := rejected (decide_eq_false hk)
      have hns : ntSuccess statusNotSupported = false := by decide
      simpa [First.dispatch, First.ioctlHandleIrpMjDeviceControl, hk, hns, hc, ioCompleteRequest, First.acquired] using this

/-- Without the routines' names these are the steps of `Dmsk.Ioctl`. -/
theorem ops_dispatch (request : Request) (irp : IrpFields) (hc : irp.completionRoutine = false) :
    ops (First.dispatch request irp).steps = Ioctl.dispatch .first request := by
  cases request with
  | create => rfl
  | close => rfl
  | deviceControl request =>
    by_cases hk : request.ioControlCode = firstIoctlCode ∨ request.ioControlCode = secondIoctlCode
    · simp [First.dispatch, First.ioctlHandleIrpMjDeviceControl, hk, First.ioctlPassIrp, Second.dispatch,
        Second.ioctlHandleIrpMjDeviceControl, ioCompleteRequest, First.acquired, Second.acquired,
        First.ioctlCompletionRoutine, ops, Ioctl.dispatch, Ioctl.First.dispatch, Ioctl.First.ioctlHandleIrpMjDeviceControl,
        Ioctl.First.ioctlPassIrp, Ioctl.Second.dispatch, Ioctl.Second.ioctlHandleIrpMjDeviceControl,
        Ioctl.First.ioctlCompletionRoutine]
    · have hns : ntSuccess statusNotSupported = false := by decide
      simp [First.dispatch, First.ioctlHandleIrpMjDeviceControl, hk, hns, hc, ioCompleteRequest, First.acquired, ops,
        Ioctl.dispatch, Ioctl.First.dispatch, Ioctl.First.ioctlHandleIrpMjDeviceControl]

/-- What the steps of a request that is over do to the IRP and to the locks. -/
structure Handled (request : Request) (steps : List Step) (status : NtStatus) : Prop where
  completed : completions steps = [(if isForwarded request then .second else .first, status)]
  firstAcquired : (ops steps).count (.acquire .first) = 1
  firstReleased : (ops steps).count (.release .first) = 1
  byRoutine : steps.count (.ioctlCompletionRoutine, .release .first) = if isForwarded request then 1 else 0
  passed : (ops steps).count (.work .callDriver) = if isForwarded request then 1 else 0
  secondAcquired : (ops steps).count (.acquire .second) = if isForwarded request then 1 else 0
  secondReleased : (ops steps).count (.release .second) = if isForwarded request then 1 else 0

theorem handled_dispatch (request : Request) (irp : IrpFields) (hc : irp.completionRoutine = false) :
    Handled request (First.dispatch request irp).steps (First.dispatch request irp).returned := by
  apply dispatch_cases (p := fun call => Handled request call.steps call.returned) request irp hc
  · intro hf
    constructor
    all_goals first | rfl | (rw [hf]; rfl)
  · intro hf
    constructor
    all_goals first | rfl | (rw [hf]; rfl)

theorem ops_first {op : Op Device Work} (hc : irp.completionRoutine = false)
    (hop : op ∈ ops (First.dispatch request irp).steps) :
    op ≠ .lock ∧ (∀ d, op ≠ .await d) ∧ ∀ d, op = .start d → d = .first ∨ d = .second := by
  revert hop
  refine dispatch_cases (p := fun call => op ∈ ops call.steps → (op ≠ .lock ∧ (∀ d, op ≠ .await d) ∧
    ∀ d, op = .start d → d = .first ∨ d = .second)) request irp hc ?_ ?_
  · intro _ hop
    simp only [ops, List.map_cons, List.map_nil, List.mem_cons, List.not_mem_nil, or_false] at hop
    rcases hop with rfl | rfl | rfl | rfl | rfl | rfl | rfl | rfl <;> simp
  · intro _ hop
    simp only [ops, List.map_cons, List.map_nil, List.mem_cons, List.not_mem_nil, or_false] at hop
    rcases hop with rfl | rfl | rfl | rfl <;> simp

theorem status_dispatch (request : Request) (irp irp' : IrpFields) (hc : irp.completionRoutine = false) :
    (First.dispatch request irp).irp.status = (First.dispatch request irp).returned ∧
      (First.dispatch request irp).returned = (Second.dispatch request irp').returned := by
  have hsecond : (Second.dispatch request irp').returned =
      if isForwarded request then statusSuccess else statusNotSupported := by
    cases request with
    | create => rfl
    | close => rfl
    | deviceControl request => simp [Second.dispatch, Second.ioctlHandleIrpMjDeviceControl, isForwarded]
  rw [hsecond]
  apply dispatch_cases (p := fun call => call.irp.status = call.returned ∧ call.returned = _) request irp hc
  · intro hf
    rw [hf]
    exact ⟨rfl, rfl⟩
  · intro hf
    rw [hf]
    exact ⟨rfl, rfl⟩

/-! ## Any requests, in any order -/

variable {R : Type}

def Loaded (_ : State Device Work (R ⊕ Device)) (t : R ⊕ Device) : Prop := t ≠ .inr .first ∧ t ≠ .inr .second

def stepsOf (call : Call) (s : State Device Work (R ⊕ Device)) (r : R) : List Step :=
  call.steps.take (call.steps.length - (s.todo (.inl r)).length)

def IsForwarding (d : Device) : Prop := d = .first ∨ d = .second

/-- The locks of the two drivers are in use, and a request holds a reference
between its acquisition and its release. -/
structure Live (s : State Device Work (R ⊕ Device)) : Prop where
  removed : ∀ d, IsForwarding d → s.removed d = false
  deleted : ∀ d, IsForwarding d → s.deleted d = false
  held : ∀ d, IsForwarding d → ∀ r, s.held (.inl r) d = inside (refs d) (s.todo (.inl r))

section
variable [DecidableEq R] {request : R → Device × Request} {s s' : State Device Work (R ⊕ Device)}

omit [DecidableEq R] in
theorem live_begin (request : R → Device × Request) : Live (begin (programs request)) where
  removed _ _ := rfl
  deleted _ _ := rfl
  held d _ r := ((programs_protocol request).refs (.inl r) d).2.symm

omit [DecidableEq R] in
theorem not_removes (hi : Inv (programs request) .inr s) {t : R ⊕ Device} (hl : Loaded s t) {op : Op Device Work}
    {rest : Code} (htodo : s.todo t = op :: rest) {d : Device} (hd : IsForwarding d) :
    op ≠ .beginRemove d ∧ op ≠ .delete d := by
  have hmem : ∀ o, op = o → o ∈ programs request t := by
    intro o ho
    apply (hi.suffix t).subset
    rw [htodo, ho]
    exact List.mem_cons_self
  cases t with
  | inl r =>
    refine ⟨fun h => dispatch_no_removal _ _ d (hmem _ h), ?_⟩
    intro h
    have := hmem _ h
    revert this
    apply Ioctl.dispatch_cases (p := fun code => ¬ .delete d ∈ code) <;> simp
  | inr e =>
    have he : e = .notification := by
      cases e with
      | first => exact absurd rfl hl.1
      | second => exact absurd rfl hl.2
      | notification => rfl
    subst he
    have hno : ∀ d, IsForwarding d → .beginRemove d ∉ unload .notification ∧ .delete d ∉ unload .notification := by
      intro d hd
      rcases hd with rfl | rfl <;> decide
    exact ⟨fun h => (hno d hd).1 (hmem _ h), fun h => (hno d hd).2 (hmem _ h)⟩

theorem live_step (hi : Inv (programs request) .inr s) (h : Live s) {t : R ⊕ Device} (hl : Loaded s t)
    (hs : step s t = some s') : Live s' := by
  obtain ⟨op, rest, s₁, htodo, he, rfl⟩ := step_effect hs
  constructor
  · intro d hd
    rw [← Bool.not_eq_true]
    intro hr
    rcases (effect_removed he d).mp hr with hr | hr
    · rw [h.removed d hd] at hr
      cases hr
    · exact (not_removes hi hl htodo hd).1 hr
  · intro d hd
    rw [← Bool.not_eq_true]
    intro hr
    rcases (effect_deleted he d).mp hr with hr | hr
    · rw [h.deleted d hd] at hr
      cases hr
    · exact (not_removes hi hl htodo hd).2 hr
  · intro d hd r
    show s₁.held (.inl r) d = inside (refs d) (Function.update s.todo t rest (.inl r))
    by_cases ht : t = .inl r
    · subst ht
      have halt := alternates_suffix (hi.suffix (.inl r)) ((programs_protocol request).refs _ d).1
      rw [htodo] at halt
      rw [Function.update_self, effect_held he, h.removed d hd, h.held d hd r, htodo]
      cases hp : refs d op with
      | none => exact inside_other hp
      | some b =>
        cases b with
        | true => exact (inside_of_open halt hp).symm
        | false => exact (not_inside_of_close halt hp).symm
    · rw [effect_held_other he (Ne.symm ht), Function.update_of_ne (Ne.symm ht)]
      exact h.held d hd r

theorem live_reachable (h : (system (programs request)).ReachUnder Loaded s) :
    Inv (programs request) .inr s ∧ Live s := by
  refine h.invariant (I := fun s => Inv (programs request) .inr s ∧ Live s) ?_ ?_
  · intro s hs
    subst hs
    exact ⟨inv_begin (programs_protocol request), live_begin request⟩
  · intro s t s' hI hl hs
    exact ⟨inv_step (programs_protocol request) hI.1 hs, live_step hI.1 hI.2 hl hs⟩

theorem request_enabled (h : Live s) {r : R} {code : Code} (hcode : s.todo (.inl r) = code) (hne : code ≠ [])
    (hs : code <:+ dispatch .first (request r).2) : ∃ s', step s (.inl r) = some s' := by
  cases code with
  | nil => exact absurd rfl hne
  | cons op rest =>
    have hop : op ∈ dispatch .first (request r).2 := hs.subset List.mem_cons_self
    rw [← ops_dispatch (request r).2 ⟨statusSuccess, 0, false⟩ rfl] at hop
    have hops := ops_first rfl hop
    apply step_enabled hcode
    · intro d hd
      exact h.deleted d (hops.2.2 d hd)
    · intro hl
      exact absurd hl hops.1
    · intro d hd
      exact absurd hd (hops.2.1 d)

omit [DecidableEq R] in
theorem todo_eq_ops (hi : Inv (programs request) .inr s) {r : R} (hr : (request r).1 = .first) {irp : IrpFields}
    (hc : irp.completionRoutine = false) :
    s.todo (.inl r) = ops ((First.dispatch (request r).2 irp).steps.drop (stepsOf (First.dispatch (request r).2 irp) s r).length) := by
  have hsuf : s.todo (.inl r) <:+ ops (First.dispatch (request r).2 irp).steps := by
    have := hi.suffix (.inl r)
    rw [ops_dispatch _ _ hc, ← hr]
    exact this
  have hlen := hsuf.length_le
  have hops : (ops (First.dispatch (request r).2 irp).steps).length = (First.dispatch (request r).2 irp).steps.length :=
    List.length_map _
  unfold stepsOf
  rw [List.length_take, ops, List.map_drop]
  have hdrop := List.suffix_iff_eq_drop.mp hsuf
  rw [hdrop]
  congr 1
  rw [List.length_drop]
  omega

/-- **Forwarding.** While neither driver unloads, a request to the first driver
is never stuck, and completes its IRP once, with the status its caller and the
second driver alone would see. It takes each lock at most once, the second one
only if it was passed on, and gives back what it took: the first driver's by
the completion routine exactly if it was passed on. -/
theorem forwarded_once (request : R → Device × Request) (s : State Device Work (R ⊕ Device))
    (h : (system (programs request)).ReachUnder Loaded s) (r : R) (hr : (request r).1 = .first) (irp irp' : IrpFields)
    (hc : irp.completionRoutine = false) :
    stepsOf (First.dispatch (request r).2 irp) s r <+: (First.dispatch (request r).2 irp).steps ∧
    s.todo (.inl r) =
      ops ((First.dispatch (request r).2 irp).steps.drop (stepsOf (First.dispatch (request r).2 irp) s r).length) ∧
    (s.todo (.inl r) ≠ [] → ∃ s', (system (programs request)).step s (.inl r) = some s') ∧
    (∀ d, IsForwarding d → s.held (.inl r) d = inside (refs d) (s.todo (.inl r))) ∧
    (completions (stepsOf (First.dispatch (request r).2 irp) s r)).length ≤ 1 ∧
    (s.todo (.inl r) = [] →
      Handled (request r).2 (stepsOf (First.dispatch (request r).2 irp) s r) (First.dispatch (request r).2 irp).returned ∧
      ∀ d, IsForwarding d → s.held (.inl r) d = false) ∧
    (First.dispatch (request r).2 irp).irp.status = (First.dispatch (request r).2 irp).returned ∧
    (First.dispatch (request r).2 irp).returned = (Second.dispatch (request r).2 irp').returned := by
  obtain ⟨hi, hl⟩ := live_reachable h
  have hhandled := handled_dispatch (request r).2 irp hc
  obtain ⟨hstatus, hsecond⟩ := status_dispatch (request r).2 irp irp' hc
  have hpre : stepsOf (First.dispatch (request r).2 irp) s r <+: (First.dispatch (request r).2 irp).steps :=
    List.take_prefix _ _
  refine ⟨hpre, todo_eq_ops hi hr hc, ?_, fun d hd => hl.held d hd r, ?_, ?_, hstatus, hsecond⟩
  · intro hne
    have hsuf := hi.suffix (.inl r)
    change s.todo (.inl r) <:+ dispatch (request r).1 (request r).2 at hsuf
    rw [hr] at hsuf
    exact request_enabled hl rfl hne hsuf
  · have hsub := (hpre.sublist.filterMap (fun
      | (r, .work (.completeRequest status)) => some (r, status)
      | _ => none)).length_le
    exact hsub.trans (le_of_eq (congrArg List.length hhandled.completed))
  · intro hnil
    have hall : stepsOf (First.dispatch (request r).2 irp) s r = (First.dispatch (request r).2 irp).steps := by
      unfold stepsOf
      rw [hnil, List.length_nil, Nat.sub_zero, List.take_length]
    rw [hall]
    refine ⟨hhandled, ?_⟩
    intro d hd
    rw [hl.held d hd r, hnil]
    rfl

end

/-- A control code that the first driver knows, and one that it does not. -/
def twoRequests (known : Bool) : Device × Request :=
  (.first, .deviceControl ⟨if known then firstIoctlCode else Protection.thirdIoctlCode, []⟩)

def twoRequestsRun : List (Bool ⊕ Device) :=
  [.inl true, .inl false, .inl true, .inl true, .inl false, .inl true, .inl true, .inl true, .inl false, .inl true,
    .inl false, .inl true]

def twoRequestsEnd : State Device Work (Bool ⊕ Device) :=
  ((system (programs twoRequests)).exec (fun _ t => t ≠ .inr .first ∧ t ≠ .inr .second) (begin (programs twoRequests))
    twoRequestsRun).get (by decide)

theorem forwarded_once_two :
    Handled (twoRequests true).2 (stepsOf (First.dispatch (twoRequests true).2 ⟨0, 0, false⟩) twoRequestsEnd true)
      statusSuccess ∧
    Handled (twoRequests false).2 (stepsOf (First.dispatch (twoRequests false).2 ⟨0, 0, false⟩) twoRequestsEnd false)
      statusNotSupported := by
  have h : (system (programs twoRequests)).ReachUnder Loaded twoRequestsEnd :=
    System.reach_of_exec (C := fun _ t => t ≠ .inr .first ∧ t ≠ .inr .second) rfl twoRequestsRun (Option.some_get _).symm
  obtain ⟨-, -, -, -, -, h1, -⟩ := forwarded_once twoRequests twoRequestsEnd h true rfl ⟨0, 0, false⟩ ⟨0, 0, false⟩ rfl
  obtain ⟨-, -, -, -, -, h2, -⟩ := forwarded_once twoRequests twoRequestsEnd h false rfl ⟨0, 0, false⟩ ⟨0, 0, false⟩ rfl
  exact ⟨(h1 (by decide)).1, (h2 (by decide)).1⟩

end Dmsk.Forwarding
