import Dmsk.Filter
import Dmsk.Transition

/-!
# The monitor on several processors

Thread-create notifications run side by side, with creations and terminations
of processes between their steps. The collector's lock makes `InsertProcess`,
`TerminateProcess` and `GetProcess` steps of their own; what a handler does
with the pointer that `GetProcess` returned happens later, outside the lock.

An address may be used again after its record was deleted, so a pointer comes
with the incarnation it was taken from: how many records have been constructed
at its address. A fault is a bug check and ends the run.
-/

namespace Dmsk.Monitor

variable {w : ℕ} {H : Type}

/-- The record that a pointer was taken from. -/
structure Ref (w : ℕ) where
  process : Addr w
  incarnation : ℕ
deriving DecidableEq, Repr

/-- Positions in `FltpHandleThreadCreate`, named after the next step. -/
inductive Pc (w : ℕ)
  | start
  | getProcess
  | wasMainThreadCreated (r : Ref w)
  | setMainThreadCreated (r : Ref w)
  | checkAndSetGlobalStackTrace (r : Ref w)
  | compare (r : Ref w)
  | done (r : Option (Ref w)) (v : Verdict)
deriving DecidableEq, Repr

structure State (w : ℕ) (H : Type) where
  d : DrvData w
  incarnation : Addr w → ℕ
  pc : H → Pc w

inductive Act (w : ℕ) (H : Type)
  | insertProcess (pid : Handle w) (process : Option (Addr w))
  | terminateProcess (pid : Handle w)
  | handler (h : H)

/-- `FltpHandleThreadCreate`, one step. -/
def handlerStep (incarnation : Addr w → ℕ) (n : ThreadCreate w) (d : DrvData w) :
    Pc w → Except Fault (DrvData w × Pc w)
  | .start => return (d, if n.currentProcessPid = n.processId then .done none .ownThread else .getProcess)
  | .getProcess => do
    match ← d.processCollector.getProcess n.processId with
    | none => return (d, .done none .notMonitored)
    | some process => return (d, .wasMainThreadCreated ⟨process, incarnation process⟩)
  | .wasMainThreadCreated r => do
    if ← d.processCollector.wasMainThreadCreated r.process then return (d, .done (some r) .remoteThread)
    else return (d, .setMainThreadCreated r)
  | .setMainThreadCreated r => do
    let c ← d.processCollector.setMainThreadCreated r.process
    return ({ d with processCollector := c }, .checkAndSetGlobalStackTrace r)
  | .checkAndSetGlobalStackTrace r => return (fltpCheckAndSetGlobalStackTrace d n.baseline, .compare r)
  -- the stack was captured when the record was found; `nt` does not change
  | .compare r => return (d, .done (some r) (hollowCheck d (StackTrace.new d.nt n.frames)))
  | .done r v => return (d, .done r v)

section
variable [DecidableEq H]

def step (notification : H → ThreadCreate w) (s : State w H) : Act w H → Option (State w H)
  | .insertProcess pid process =>
    if process.all fun a => (s.d.processCollector.heap a).isNone then
      (fltCreateProcessNotifyRoutine s.d pid (some process)).toOption.map fun d =>
        { s with
          d := d
          incarnation := process.elim s.incarnation fun a =>
            Function.update s.incarnation a (s.incarnation a + 1) }
    else none
  | .terminateProcess pid =>
    (fltCreateProcessNotifyRoutine s.d pid none).toOption.map fun d => { s with d := d }
  | .handler h =>
    (handlerStep s.incarnation (notification h) s.d (s.pc h)).toOption.map fun r =>
      { s with d := r.1, pc := Function.update s.pc h r.2 }

def monitor (notification : H → ThreadCreate w) : System (State w H) (Act w H) where
  init s := s.d.Init ∧ (∀ a, s.incarnation a = 0) ∧ ∀ h, s.pc h = .start
  step := step notification

end

/-! ## A handler that is not interrupted -/

def Pc.verdict : Pc w → Option Verdict
  | .done _ v => some v
  | _ => none

def handlerRun (incarnation : Addr w → ℕ) (n : ThreadCreate w) :
    ℕ → DrvData w → Pc w → Except Fault (DrvData w × Option Verdict)
  | 0, d, q => return (d, q.verdict)
  | k + 1, d, q => do
    let (d, q) ← handlerStep incarnation n d q
    handlerRun incarnation n k d q

section
variable {incarnation : Addr w → ℕ} {n : ThreadCreate w}

theorem handlerRun_done (d : DrvData w) (r : Option (Ref w)) (v : Verdict) (k : ℕ) :
    handlerRun incarnation n k d (.done r v) = .ok (d, some v) := by
  induction k with
  | zero => rfl
  | succ k ih => exact ih

theorem handlerRun_step {d d' : DrvData w} {q : Pc w} (q' : Pc w) (h : handlerStep incarnation n d q = .ok (d', q')) (k : ℕ) :
    handlerRun incarnation n (k + 1) d q = handlerRun incarnation n k d' q' := by
  rw [handlerRun, h, ok_bind]

theorem handlerRun_fault {d : DrvData w} {q : Pc w} {f : Fault} (h : handlerStep incarnation n d q = .error f) (k : ℕ) :
    handlerRun incarnation n (k + 1) d q = .error f := by
  rw [handlerRun, h, error_bind]

/-- Run alone, the steps are `FltpHandleThreadCreate`. -/
theorem handlerRun_eq (d : DrvData w) :
    handlerRun incarnation n 6 d .start = (fltpHandleThreadCreate d n).map fun r => (r.1, some r.2) := by
  unfold fltpHandleThreadCreate
  by_cases hown : n.currentProcessPid = n.processId
  · rw [if_pos hown, handlerRun_step (.done none .ownThread) (by rw [handlerStep, if_pos hown]; rfl)]
    apply handlerRun_done
  rw [if_neg hown, handlerRun_step .getProcess (by rw [handlerStep, if_neg hown]; rfl)]
  cases hg : d.processCollector.getProcess n.processId with
  | error f => exact handlerRun_fault (by rw [handlerStep, hg]; rfl) 4
  | ok p =>
    cases p with
    | none =>
      rw [handlerRun_step (.done none .notMonitored) (by rw [handlerStep, hg]; rfl)]
      apply handlerRun_done
    | some p =>
      rw [handlerRun_step (.wasMainThreadCreated ⟨p, incarnation p⟩) (by rw [handlerStep, hg]; rfl)]
      simp only [ok_bind]
      cases hw : d.processCollector.wasMainThreadCreated p with
      | error f => exact handlerRun_fault (by rw [handlerStep, hw]; rfl) 3
      | ok b =>
        cases b with
        | true =>
          rw [handlerRun_step (.done (some ⟨p, incarnation p⟩) .remoteThread) (by rw [handlerStep, hw]; rfl)]
          apply handlerRun_done
        | false =>
          rw [handlerRun_step (.setMainThreadCreated ⟨p, incarnation p⟩) (by rw [handlerStep, hw]; rfl)]
          cases hs : d.processCollector.setMainThreadCreated p with
          | error f => exact handlerRun_fault (by rw [handlerStep, hs]; rfl) 2
          | ok c =>
            rw [handlerRun_step (.checkAndSetGlobalStackTrace ⟨p, incarnation p⟩)
              (by rw [handlerStep, hs]; rfl), handlerRun_step _ rfl, handlerRun_step _ rfl, handlerRun_done,
              fltpCheckAndSet_nt]
            rfl

end

end Dmsk.Monitor
