import Dmsk.Filter
import Dmsk.Transition

/-!
# The baseline from load to unload

Thread-create handlers set the baseline under the lock of the driver's global
data and read it later without the lock, twice: for the test against null and
for the comparison. `DriverUnload` removes the notification, which waits for the
handlers that run, and deletes the baseline. A handler starts here when it has
captured its own stack trace and is to check for a hollow process.
-/

namespace Dmsk.Baseline

variable {w : ℕ}

/-- An object from `new StackTrace()`, named by its place in the order of the allocations. -/
structure Object (w : ℕ) where
  trace : StackTrace w
  deletions : ℕ := 0
deriving DecidableEq, Repr

inductive Holder
  | handler (i : ℕ)
  | unload
deriving DecidableEq, Repr

/-- Positions of a handler, named after the next step. A null pointer or a
deleted object that is used for the comparison is a fault. -/
inductive Pc (w : ℕ)
  | lock (stacktrace : StackTrace w)
  | check (stacktrace : StackTrace w)
  | create (stacktrace : StackTrace w)
  | install (stacktrace : StackTrace w) (object : Option ℕ)
  | unlock (stacktrace : StackTrace w)
  | test (stacktrace : StackTrace w)
  | load (stacktrace : StackTrace w)
  | compare (stacktrace : StackTrace w) (object : Option ℕ)
  | noBaseline
  | decided
  | fault
deriving DecidableEq, Repr

def Pc.finished : Pc w → Bool
  | .noBaseline | .decided | .fault => true
  | _ => false

/-- Positions of `DriverUnload`. In `removing` it waits for the handlers. -/
inductive Unload
  | loaded
  | removing
  | removed
  | locked
  | uninitialized
  | unloaded
deriving DecidableEq, Repr

structure Decision (w : ℕ) where
  handler : ℕ
  stacktrace : StackTrace w
  object : ℕ
  hollow : Bool
deriving DecidableEq, Repr

/-- `installed` are the objects that the pointer was ever set to. -/
structure State (w : ℕ) where
  handlers : List (Pc w) := []
  lock : Option Holder := none
  processCreateGoodStackTrace : Option ℕ := none
  objects : List (Object w) := []
  installed : List ℕ := []
  decisions : List (Decision w) := []
  unload : Unload := .loaded
deriving DecidableEq, Repr

inductive Act (w : ℕ)
  | threadCreate (frames : Frames w)
  /-- A step of a handler, with what `new StackTrace()` captures unless it fails. -/
  | handler (i : ℕ) (captured : Option (Frames w))
  | unload

namespace State

def goto (s : State w) (i : ℕ) (pc : Pc w) : State w := { s with handlers := s.handlers.set i pc }

def setLock (s : State w) (lock : Option Holder) : State w := { s with lock := lock }

/-- `new StackTrace()`. -/
def newStackTrace (s : State w) (m : NtModule w) (frames : Frames w) : State w :=
  { s with objects := s.objects ++ [{ trace := StackTrace.new m frames }] }

def setBaseline (s : State w) (object : Option ℕ) : State w :=
  { s with processCreateGoodStackTrace := object, installed := s.installed ++ object.toList }

/-- `AreNtTracesSame` on an object that is not deleted. -/
def compare (s : State w) (i : ℕ) (stacktrace : StackTrace w) (id : ℕ) (object : Object w) : State w :=
  { s with decisions := s.decisions ++ [⟨i, stacktrace, id, !object.trace.areNtTracesSame stacktrace⟩] }

def deleteObject (s : State w) (id : ℕ) : State w :=
  { s with objects := s.objects.modify id fun o => { o with deletions := o.deletions + 1 } }

/-- `FltpCheckAndSetGlobalStackTrace` and what follows it in `FltpHandleThreadCreate`. -/
def handlerStep (m : NtModule w) (s : State w) (i : ℕ) (captured : Option (Frames w)) : Pc w → Option (State w)
  | .lock stacktrace => if s.lock = none then some ((s.setLock (some (.handler i))).goto i (.check stacktrace)) else none
  | .check stacktrace =>
    some (s.goto i (if s.processCreateGoodStackTrace.isSome then .unlock stacktrace else .create stacktrace))
  | .create stacktrace =>
    match captured with
    | some frames => some ((s.newStackTrace m frames).goto i (.install stacktrace (some s.objects.length)))
    | none => some (s.goto i (.install stacktrace none))
  | .install stacktrace object => some ((s.setBaseline object).goto i (.unlock stacktrace))
  | .unlock stacktrace => some ((s.setLock none).goto i (.test stacktrace))
  | .test stacktrace => some (s.goto i (if s.processCreateGoodStackTrace.isSome then .load stacktrace else .noBaseline))
  | .load stacktrace => some (s.goto i (.compare stacktrace s.processCreateGoodStackTrace))
  | .compare stacktrace object =>
    match object with
    | some id =>
      match s.objects[id]? with
      | some o => some (if o.deletions = 0 then (s.compare i stacktrace id o).goto i .decided else s.goto i .fault)
      | none => some (s.goto i .fault)
    | none => some (s.goto i .fault)
  | .noBaseline | .decided | .fault => none

/-- `GdrvUninitGlobalData`, the part about the baseline. -/
def uninitBaseline (s : State w) : State w :=
  match s.processCreateGoodStackTrace with
  | some id => { s.deleteObject id with processCreateGoodStackTrace := none, unload := .uninitialized }
  | none => { s with unload := .uninitialized }

def unloadStep (s : State w) : Option (State w) :=
  match s.unload with
  | .loaded => some { s with unload := .removing }
  | .removing => if s.handlers.all Pc.finished then some { s with unload := .removed } else none
  | .removed => if s.lock = none then some { s.setLock (some .unload) with unload := .locked } else none
  | .locked => some s.uninitBaseline
  | .uninitialized => some { s.setLock none with unload := .unloaded }
  | .unloaded => none

def step (m : NtModule w) (s : State w) : Act w → Option (State w)
  | .threadCreate frames =>
    if s.unload = .loaded then some { s with handlers := s.handlers ++ [.lock (StackTrace.new m frames)] } else none
  | .handler i captured => s.handlers[i]?.bind (s.handlerStep m i captured)
  | .unload => s.unloadStep

end State

/-- `GdrvInitGlobalData` sets the pointer to null before the notification is registered. -/
def driver (m : NtModule w) : System (State w) (Act w) where
  init s := s = {}
  step := State.step m

end Dmsk.Baseline
