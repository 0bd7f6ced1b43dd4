import Dmsk.ProcessCollector
import Dmsk.StackTrace

/-!
# The process and thread notifications

`Filter.cpp`: the notify routines that keep the process collector and classify
the creation of a thread. A captured stack and the address of a new object are
data of the notification.
-/

namespace Dmsk

structure DrvData (w : ℕ) where
  processCollector : ProcessCollector w
  processCreateGoodStackTrace : Option (StackTrace w)
  nt : NtModule w

structure ThreadCreate (w : ℕ) where
  currentProcessPid : Handle w
  processId : Handle w
  /-- What `StackTrace stacktrace` captures. -/
  frames : Frames w
  /-- What `new StackTrace()` captures, unless the allocation fails. -/
  baseline : Option (Frames w)

/-- What a thread-create notification comes to. `remoteThread` is reported;
`checked` reached the comparison with the baseline, and a hollow process is
reported. -/
inductive Verdict
  | ownThread
  | notMonitored
  | remoteThread
  | noBaseline
  | checked (hollow : Bool)
deriving DecidableEq, Repr

inductive Notification (w : ℕ)
  /-- With what `new Process` returns. -/
  | processCreate (pid : Handle w) (process : Option (Addr w))
  | processTerminate (pid : Handle w)
  | threadCreate (n : ThreadCreate w)

variable {w : ℕ}

def fltpHandleProcessCreate (d : DrvData w) (processId : Handle w) (process : Option (Addr w)) :
    Except Fault (DrvData w) := do
  return { d with processCollector := ← d.processCollector.insertProcess process processId }

def fltpHandleProcessTerminate (d : DrvData w) (processId : Handle w) : Except Fault (DrvData w) := do
  return { d with processCollector := ← d.processCollector.terminateProcess processId }

/-- `createInfo` is what a creation carries and a termination does not. -/
def fltCreateProcessNotifyRoutine (d : DrvData w) (processId : Handle w)
    (createInfo : Option (Option (Addr w))) : Except Fault (DrvData w) :=
  match createInfo with
  | some process => fltpHandleProcessCreate d processId process
  | none => fltpHandleProcessTerminate d processId

def fltpCheckAndSetGlobalStackTrace (d : DrvData w) (baseline : Option (Frames w)) : DrvData w :=
  match d.processCreateGoodStackTrace with
  | none => { d with processCreateGoodStackTrace := baseline.map (StackTrace.new d.nt) }
  | some _ => d

theorem fltpCheckAndSet_collector (d : DrvData w) (baseline : Option (Frames w)) :
    (fltpCheckAndSetGlobalStackTrace d baseline).processCollector = d.processCollector := by
  unfold fltpCheckAndSetGlobalStackTrace
  split <;> rfl

theorem fltpCheckAndSet_nt (d : DrvData w) (baseline : Option (Frames w)) :
    (fltpCheckAndSetGlobalStackTrace d baseline).nt = d.nt := by
  unfold fltpCheckAndSetGlobalStackTrace
  split <;> rfl

def hollowCheck (d : DrvData w) (stacktrace : StackTrace w) : Verdict :=
  match d.processCreateGoodStackTrace with
  | none => .noBaseline
  | some good => .checked (!good.areNtTracesSame stacktrace)

def fltpHandleThreadCreate (d : DrvData w) (n : ThreadCreate w) : Except Fault (DrvData w × Verdict) :=
  if n.currentProcessPid = n.processId then return (d, .ownThread)
  else do
    match ← d.processCollector.getProcess n.processId with
    | none => return (d, .notMonitored)
    | some process =>
      let stacktrace := StackTrace.new d.nt n.frames
      if ← d.processCollector.wasMainThreadCreated process then return (d, .remoteThread)
      else
        let c ← d.processCollector.setMainThreadCreated process
        let d := fltpCheckAndSetGlobalStackTrace { d with processCollector := c } n.baseline
        return (d, hollowCheck d stacktrace)

def handle (d : DrvData w) : Notification w → Except Fault (DrvData w × Option Verdict)
  | .processCreate pid process => return (← fltCreateProcessNotifyRoutine d pid (some process), none)
  | .processTerminate pid => return (← fltCreateProcessNotifyRoutine d pid none, none)
  | .threadCreate n => do
    let (d, v) ← fltpHandleThreadCreate d n
    return (d, some v)

structure DrvData.Init (d : DrvData w) : Prop where
  constructed : Constructed d.processCollector.heap d.processCollector.activeProcesses.self
  empty : d.processCollector.activeProcesses.noElements = 0
  noBaseline : d.processCreateGoodStackTrace = none

theorem DrvData.Init.records {d : DrvData w} (h0 : d.Init) : Records d.processCollector [] :=
  ⟨⟨isRing_nil h0.constructed.1 h0.constructed.2, by rw [h0.empty]; simp⟩, by simp⟩

def freshDriver : DrvData 8 where
  processCollector := ⟨fun a => if a = 1 then some ⟨1, 1, none⟩ else none, ⟨1, 0⟩⟩
  processCreateGoodStackTrace := none
  nt := ⟨0, 16⟩

theorem freshDriver_init : freshDriver.Init := ⟨⟨rfl, rfl⟩, rfl, rfl⟩

def remoteThread : ThreadCreate 8 := ⟨4, 5, ⟨[3, 20], by decide⟩, some ⟨[3, 20], by decide⟩⟩

end Dmsk
