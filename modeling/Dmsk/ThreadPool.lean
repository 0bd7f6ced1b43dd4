import Mathlib.Logic.Function.Basic
import Dmsk.Transition

/-!
# The thread pool

`ThreadPool` of the console application: `EnqueueItem`, `GetWorkerItem`,
`DoWork` and `Shutdown` as steps of their threads. A step is one access to
what the threads share: the mutex `itemsLock`, the queue under it, the flag
`pendingShutdown`, or one of the two manual-reset events. The lock's owner
is part of the state, so between taking and releasing it other threads run.

Producers are any threads that call `EnqueueItem`; a callback may call it too,
so a worker inside a callback carries the call's own position.
-/

namespace Dmsk.ThreadPool

/-- An item of the queue. `make_shared` makes a new one on every call of
`EnqueueItem`; `id` tells it from the others. `callback` stands for the
callback together with its context. -/
structure ThreadWorkerItem (κ : Type) where
  id : Nat
  callback : κ
  deriving DecidableEq, Repr

inductive Thread (n : Nat) (P : Type) where
  | worker (w : Fin n)
  | producer (p : P)
  deriving DecidableEq

/-- Positions in `EnqueueItem`; `idle` is outside of it. -/
inductive EnqueuePc (κ : Type) where
  | idle
  | lock (c : κ)
  | check (c : κ)
  | emplace (c : κ)
  | signal (x : ThreadWorkerItem κ)
  | unlock (x : ThreadWorkerItem κ)
  | refuse

inductive GetPc (κ : Type) where
  | lock
  | take
  | reset (x : ThreadWorkerItem κ)
  | unlock (r : Option (ThreadWorkerItem κ))

/-- The loop of `DoWork` a worker is in: `while (!pendingShutdown)`, or the
one after it that drains the queue. -/
inductive Loop where
  | serve
  | drain
  deriving DecidableEq

/-- Positions of a thread: user code of a producer, then those of `DoWork`. -/
inductive Pc (κ : Type) where
  | user (e : EnqueuePc κ)
  | test
  | get (m : Loop) (g : GetPc κ)
  | callback (m : Loop) (x : ThreadWorkerItem κ) (e : EnqueuePc κ)
  | wait
  | finished

inductive ShutdownPc where
  | notCalled
  | signal
  | waitThreads (i : Nat)
  | returned
  deriving DecidableEq

/-- What the threads share. The last four fields record the run: the items
pushed, popped, whose callback has returned, and whose `EnqueueItem` has. -/
structure PoolData (n : Nat) (P κ σ : Type) where
  pendingShutdown : Bool
  terminationSignaled : Bool
  itemEnqueued : Bool
  itemsLock : Option (Thread n P)
  items : List (ThreadWorkerItem κ)
  shared : σ
  accepted : List (ThreadWorkerItem κ)
  dequeued : List (ThreadWorkerItem κ)
  executed : List (ThreadWorkerItem κ)
  returned : List (ThreadWorkerItem κ)

/-- `threads w` says that the handle of worker `w` is still open. -/
structure Pool (n : Nat) (P κ σ : Type) extends PoolData n P κ σ where
  pc : Thread n P → Pc κ
  threads : Fin n → Bool
  shutdownPc : ShutdownPc

inductive Act (n : Nat) (P κ : Type) where
  | call (t : Thread n P) (c : κ)
  | enqueue (t : Thread n P)
  | work (w : Fin n)
  | shutdown

variable {n : Nat} {P κ σ : Type}

def Pc.enqueue : Pc κ → Option (EnqueuePc κ)
  | .user e => some e
  | .callback _ _ e => some e
  | _ => none

def Pc.setEnqueue (e : EnqueuePc κ) : Pc κ → Pc κ
  | .user _ => .user e
  | .callback m x _ => .callback m x e
  | p => p

/-- `ThreadPool::EnqueueItem`, one step. -/
def enqueueItem (t : Thread n P) (d : PoolData n P κ σ) :
    EnqueuePc κ → Option (PoolData n P κ σ × EnqueuePc κ)
  | .idle => none
  | .lock c => if d.itemsLock.isNone then some ({ d with itemsLock := some t }, .check c) else none
  | .check c => some (d, if d.pendingShutdown then .refuse else .emplace c)
  | .emplace c =>
    let x := ⟨d.accepted.length, c⟩
    some ({ d with items := d.items ++ [x], accepted := d.accepted ++ [x] }, .signal x)
  | .signal x => some (if d.items.length = 1 then { d with itemEnqueued := true } else d, .unlock x)
  | .unlock x => some ({ d with itemsLock := none, returned := d.returned ++ [x] }, .idle)
  | .refuse => some ({ d with itemsLock := none }, .idle)

/-- `ThreadPool::GetWorkerItem`, one step: the next position or what it returns. -/
def getWorkerItem (t : Thread n P) (d : PoolData n P κ σ) :
    GetPc κ → Option (PoolData n P κ σ × (GetPc κ ⊕ Option (ThreadWorkerItem κ)))
  | .lock => if d.itemsLock.isNone then some ({ d with itemsLock := some t }, .inl .take) else none
  | .take =>
    match d.items with
    | [] => some (d, .inl (.unlock none))
    | x :: xs => some ({ d with items := xs, dequeued := d.dequeued ++ [x] }, .inl (.reset x))
  | .reset x => some (if d.items.isEmpty then { d with itemEnqueued := false } else d, .inl (.unlock (some x)))
  | .unlock r => some ({ d with itemsLock := none }, .inr r)

def Loop.afterGet : Loop → Option (ThreadWorkerItem κ) → Pc κ
  | m, some x => .callback m x .idle
  | .serve, none => .wait
  | .drain, none => .finished

def Loop.afterCallback : Loop → Pc κ
  | .serve => .test
  | .drain => .get .drain .lock

/-- `ThreadPool::DoWork`, one step. `exec` is what a callback does to the
state it shares with the others. -/
def doWork (exec : κ → σ → σ) (t : Thread n P) (d : PoolData n P κ σ) : Pc κ → Option (PoolData n P κ σ × Pc κ)
  | .test => some (d, .get (if d.pendingShutdown then .drain else .serve) .lock)
  | .get m g =>
    (getWorkerItem t d g).map fun r =>
      (r.1, match r.2 with
        | .inl g' => .get m g'
        | .inr x => m.afterGet x)
  | .callback m x .idle =>
    some ({ d with shared := exec x.callback d.shared, executed := d.executed ++ [x] }, m.afterCallback)
  -- both events are manual-reset: the wait ends while either is signalled
  | .wait => if d.terminationSignaled || d.itemEnqueued then some (d, .test) else none
  | _ => none

def Pc.isFinished : Pc κ → Bool
  | .finished => true
  | _ => false

/-- `ThreadPool::Shutdown` and the loop of `WaitThreads` in it, one step. -/
def shutdown (s : Pool n P κ σ) : Option (Pool n P κ σ) :=
  match s.shutdownPc with
  | .notCalled | .returned => some { s with pendingShutdown := true, shutdownPc := .signal }
  | .signal => some { s with terminationSignaled := true, shutdownPc := .waitThreads 0 }
  | .waitThreads i =>
    if h : i < n then
      if s.threads ⟨i, h⟩ then
        if (s.pc (.worker ⟨i, h⟩)).isFinished then
          some { s with threads := fun w => if w = ⟨i, h⟩ then false else s.threads w, shutdownPc := .waitThreads (i + 1) }
        else none
      else some { s with shutdownPc := .waitThreads (i + 1) }
    else some { s with shutdownPc := .returned }

section
variable [DecidableEq P]

/-- Thread `t` has changed the shared data and moved to `p`. -/
def Pool.move (s : Pool n P κ σ) (t : Thread n P) (r : PoolData n P κ σ × Pc κ) : Pool n P κ σ :=
  { s with toPoolData := r.1, pc := Function.update s.pc t r.2 }

def step (exec : κ → σ → σ) (s : Pool n P κ σ) : Act n P κ → Option (Pool n P κ σ)
  | .call t c =>
    match (s.pc t).enqueue with
    | some .idle => some (s.move t (s.toPoolData, (s.pc t).setEnqueue (.lock c)))
    | _ => none
  | .enqueue t =>
    (s.pc t).enqueue.bind fun e =>
      (enqueueItem t s.toPoolData e).map fun r => s.move t (r.1, (s.pc t).setEnqueue r.2)
  | .work w => (doWork exec (.worker w) s.toPoolData (s.pc (.worker w))).map (s.move (.worker w))
  | .shutdown => shutdown s

/-- A pool whose constructor has returned: all workers run, nothing was enqueued. -/
def start (shared : σ) : Pool n P κ σ where
  pendingShutdown := false
  terminationSignaled := false
  itemEnqueued := false
  itemsLock := none
  items := []
  shared := shared
  accepted := []
  dequeued := []
  executed := []
  returned := []
  pc
    | .worker _ => .test
    | .producer _ => .user .idle
  threads := fun _ => true
  shutdownPc := .notCalled

def pool (n : Nat) (P : Type) [DecidableEq P] (exec : κ → σ → σ) (shared : σ) : System (Pool n P κ σ) (Act n P κ) where
  init s := s = start shared
  step := step exec

end

end Dmsk.ThreadPool
