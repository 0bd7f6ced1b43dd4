import Mathlib.Data.List.FinRange
import Mathlib.Data.List.Nodup
import Mathlib.Logic.Function.Basic
import Dmsk.Transition

/-!
# The handles of the thread pool

`ThreadPool::ThreadPool`, `Shutdown`, `WaitThreads`, `DisposeEvents`,
`CleanupThreadPool` and the destructor as the sequences of kernel calls that
the owning thread makes, loops written out. The workers, whose code is in
`Dmsk.ThreadPool`, count here only by the handles they use: one that was
created may wait on the events, set or reset one, or end, at any time.

A handle is named after the call that creates it, so it is never reused.
-/

namespace Dmsk.PoolHandles

inductive Event where
  | terminationSignaled
  | itemEnqueuedNotification
  deriving DecidableEq, Repr

inductive Handle (n : ℕ) where
  | event (e : Event)
  | thread (i : Fin n)
  deriving DecidableEq, Repr

inductive Phase where
  | constructing
  | alive
  | shuttingDown
  | destroying
  | thrown
  | destroyed
  deriving DecidableEq, Repr

inductive Task (n : ℕ) where
  | createEvent (e : Event)
  | createThread (i : Fin n)
  | setPendingShutdown
  | setEvent (e : Event)
  | waitThread (i : Fin n)
  | closeThread (i : Fin n)
  | disposeEvent (e : Event)
  | enter (p : Phase)
  deriving DecidableEq

inductive Use where
  | waitForMultipleObjects
  | resetEvent
  | setEvent
  | finish
  deriving DecidableEq

inductive Act (n : ℕ) where
  | owner (succeeds : Bool)
  | enqueueItem
  | shutdown
  | destruct
  | worker (i : Fin n) (u : Use)

/-- `events` and `threads` are the vectors of the pool; `created` and `closed`
what the kernel did; `misused` the arguments of its calls that were null or no
open handle. -/
structure State (n : ℕ) where
  events : Event → Option (Handle n)
  threads : Fin n → Option (Handle n)
  pendingShutdown : Bool
  phase : Phase
  todo : List (Task n)
  created : List (Handle n)
  closed : List (Handle n)
  finished : Fin n → Bool
  misused : List (Option (Handle n))

inductive Status where
  | fresh
  | opened
  | closed
  deriving DecidableEq

variable {n : ℕ}

/-! ## The code -/

def waitThreads (n : ℕ) : List (Task n) := (List.finRange n).map .waitThread

def disposeEvents (n : ℕ) : List (Task n) :=
  [.disposeEvent .terminationSignaled, .disposeEvent .itemEnqueuedNotification]

def cleanupThreadPool (n : ℕ) : List (Task n) := waitThreads n ++ disposeEvents n

def shutdown (n : ℕ) : List (Task n) := .setPendingShutdown :: .setEvent .terminationSignaled :: waitThreads n

def construct (n : ℕ) : List (Task n) :=
  [.createEvent .terminationSignaled, .createEvent .itemEnqueuedNotification] ++
    (List.finRange n).map .createThread ++ [.enter .alive]

def destruct (n : ℕ) : List (Task n) := shutdown n ++ cleanupThreadPool n ++ [.enter .destroyed]

def State.status (s : State n) (h : Handle n) : Status :=
  if h ∈ s.closed then .closed else if h ∈ s.created then .opened else .fresh

def State.touch (s : State n) (h : Option (Handle n)) : State n :=
  if h.any (fun h => s.status h = .opened) then s else { s with misused := s.misused ++ [h] }

/-- The object behind a thread's handle is signalled once the thread has ended. -/
def State.isSignaled (s : State n) : Handle n → Bool
  | .thread i => s.finished i
  | .event _ => false

/-- One step of the owning thread; `succeeds` is what a creating call does. -/
def owner (succeeds : Bool) (s : State n) : Option (State n) :=
  match s.todo with
  | [] => none
  | .createEvent e :: rest =>
    if succeeds then
      some { s with events := Function.update s.events e (some (.event e)), created := s.created ++ [.event e], todo := rest }
    else some { s with todo := cleanupThreadPool n ++ [.enter .thrown] }
  | .createThread i :: rest =>
    if succeeds then
      some { s with threads := Function.update s.threads i (some (.thread i)), created := s.created ++ [.thread i], todo := rest }
    else some { s with todo := shutdown n ++ cleanupThreadPool n ++ [.enter .thrown] }
  | .setPendingShutdown :: rest => some { s with pendingShutdown := true, todo := rest }
  | .setEvent e :: rest => some { s.touch (s.events e) with todo := rest }
  | .waitThread i :: rest =>
    match s.threads i with
    | none => some { s with todo := rest }
    | some h => if s.isSignaled h then some { s.touch (some h) with todo := .closeThread i :: rest } else none
  | .closeThread i :: rest =>
    some { s.touch (s.threads i) with
      closed := s.closed ++ (s.threads i).toList, threads := Function.update s.threads i none, todo := rest }
  | .disposeEvent e :: rest =>
    match s.events e with
    | none => some { s with todo := rest }
    | some h =>
      some { s.touch (some h) with
        closed := s.closed ++ [h], events := Function.update s.events e none, todo := rest }
  | .enter p :: rest => some { s with phase := p, todo := rest }

def worker (i : Fin n) (s : State n) : Use → State n
  | .waitForMultipleObjects => (s.touch (s.events .terminationSignaled)).touch (s.events .itemEnqueuedNotification)
  | .resetEvent => s.touch (s.events .itemEnqueuedNotification)
  | .setEvent => s.touch (s.events .itemEnqueuedNotification)
  | .finish => { s with finished := Function.update s.finished i true }

/-- The pool may be used between its constructor and its destructor; `SetEvent`
in `EnqueueItem` depends on the queue, so it may happen at any time meanwhile. -/
def step (s : State n) : Act n → Option (State n)
  | .owner succeeds => owner succeeds s
  | .enqueueItem =>
    if s.phase = .alive ∨ s.phase = .shuttingDown then some (s.touch (s.events .itemEnqueuedNotification)) else none
  | .shutdown =>
    if s.phase = .alive then some { s with phase := .shuttingDown, todo := shutdown n ++ [.enter .alive] } else none
  | .destruct => if s.phase = .alive then some { s with phase := .destroying, todo := destruct n } else none
  | .worker i u => if .thread i ∈ s.created ∧ s.finished i = false then some (worker i s u) else none

def start (n : ℕ) : State n where
  events := fun _ => none
  threads := fun _ => none
  pendingShutdown := false
  phase := .constructing
  todo := construct n
  created := []
  closed := []
  finished := fun _ => false
  misused := []

def handles (n : ℕ) : System (State n) (Act n) where
  init s := s = start n
  step := step

variable {s t : State n} {h : Handle n}

/-! ## Statuses -/

theorem status_fresh : s.status h = .fresh ↔ h ∉ s.created ∧ h ∉ s.closed := by
  unfold State.status
  by_cases hd : h ∈ s.closed
  · simp [hd]
  · by_cases hc : h ∈ s.created <;> simp [hd, hc]

theorem status_opened : s.status h = .opened ↔ h ∈ s.created ∧ h ∉ s.closed := by
  unfold State.status
  by_cases hd : h ∈ s.closed
  · simp [hd]
  · by_cases hc : h ∈ s.created <;> simp [hd, hc]

theorem status_congr (hc : t.created = s.created) (hd : t.closed = s.closed) : t.status = s.status := by
  funext h
  unfold State.status
  rw [hc, hd]

theorem status_create (hf : s.status h = .fresh) (hc : t.created = s.created ++ [h]) (hd : t.closed = s.closed) :
    t.status = Function.update s.status h .opened := by
  have hnd := (status_fresh.mp hf).2
  funext x
  unfold State.status
  rw [hc, hd]
  by_cases hx : x = h
  · subst hx
    simp [hnd]
  · simp [hx]

def shut (σ : Handle n → Status) (h : Handle n) : Handle n → Status :=
  Function.update σ h (if σ h = .opened then .closed else σ h)

theorem shut_of_ne {σ : Handle n → Status} {x : Handle n} (hx : x ≠ h) : shut σ h x = σ x := Function.update_of_ne hx _ _

theorem shut_self_ne (σ : Handle n → Status) (h : Handle n) : shut σ h h ≠ .opened := by
  unfold shut
  rw [Function.update_self]
  by_cases ho : σ h = .opened
  · simp [ho]
  · simp [ho]

theorem shut_ne {σ : Handle n → Status} {x : Handle n} (hx : σ x ≠ .opened) : shut σ h x ≠ .opened := by
  by_cases hxh : x = h
  · subst hxh
    exact shut_self_ne σ x
  · rwa [shut_of_ne hxh]

theorem shut_of_not_opened {σ : Handle n → Status} (ho : σ h ≠ .opened) : shut σ h = σ := by
  unfold shut
  rw [if_neg ho, Function.update_eq_self]

theorem status_close (ho : s.status h = .opened) (hc : t.created = s.created) (hd : t.closed = s.closed ++ [h]) :
    t.status = shut s.status h := by
  funext x
  by_cases hx : x = h
  · subst hx
    unfold shut
    rw [Function.update_self, if_pos ho]
    unfold State.status
    simp [hd]
  · rw [shut_of_ne hx]
    unfold State.status
    rw [hc, hd]
    simp [hx]

theorem touch_of_opened (ho : s.status h = .opened) : s.touch (some h) = s := by
  unfold State.touch
  rw [if_pos (by simpa using ho)]

/-! ## What the rest of the code needs -/

def Phase.isOver : Phase → Bool
  | .thrown | .destroyed => true
  | _ => false

def Phase.isServing : Phase → Bool
  | .alive | .shuttingDown => true
  | _ => false

/-- From the statuses `σ` on the tasks are in order, whatever the creating
calls return: events are disposed of after the threads were joined, and no
handle is left open at the end. -/
def Valid : List (Task n) → (Handle n → Status) → Prop
  | [], _ => True
  | .createEvent e :: rest, σ => σ (.event e) = .fresh ∧ Valid rest (Function.update σ (.event e) .opened)
  | .createThread i :: rest, σ =>
    σ (.thread i) = .fresh ∧ (∀ e, σ (.event e) = .opened) ∧ Valid rest (Function.update σ (.thread i) .opened)
  | .setPendingShutdown :: rest, σ => Valid rest σ
  | .setEvent e :: rest, σ => σ (.event e) = .opened ∧ Valid rest σ
  | .waitThread i :: rest, σ => Valid rest (shut σ (.thread i))
  | .closeThread i :: rest, σ => σ (.thread i) = .opened ∧ Valid rest (shut σ (.thread i))
  | .disposeEvent e :: rest, σ => (∀ i, σ (.thread i) ≠ .opened) ∧ Valid rest (shut σ (.event e))
  | .enter p :: rest, σ =>
    (p.isOver = true → ∀ h, σ h ≠ .opened) ∧ (p.isServing = true → ∀ e, σ (.event e) = .opened) ∧ rest = []

/-- What holds after `WaitThreads` holds before it of the threads joined. -/
theorem valid_waitThreads {k : List (Task n)} : ∀ (l : List (Fin n)) {σ : Handle n → Status},
    (∀ σ', (∀ e, σ' (.event e) = σ (.event e)) → (∀ i ∈ l, σ' (.thread i) ≠ .opened) →
      (∀ h, σ h ≠ .opened → σ' h ≠ .opened) → Valid k σ') → Valid (l.map .waitThread ++ k) σ := by
  intro l
  induction l with
  | nil =>
    intro σ hk
    exact hk σ (fun _ => rfl) (fun _ hi => nomatch hi) fun _ ho => ho
  | cons i l ih =>
    intro σ hk
    show Valid (l.map .waitThread ++ k) (shut σ (.thread i))
    apply ih
    intro σ' he hl hm
    apply hk
    · intro e
      rw [he e, shut_of_ne (by simp)]
    · intro j hj
      rcases List.mem_cons.mp hj with rfl | hj
      · exact hm _ (shut_self_ne σ _)
      · exact hl j hj
    · intro x hx
      exact hm x (shut_ne hx)

theorem valid_cleanup {p : Phase} (hp : p.isServing = false) (σ : Handle n → Status) :
    Valid (cleanupThreadPool n ++ [.enter p]) σ := by
  unfold cleanupThreadPool waitThreads
  rw [List.append_assoc]
  apply valid_waitThreads
  intro σ' _ hl _
  have hthread : ∀ i, σ' (.thread i) ≠ .opened := fun i => hl i (List.mem_finRange i)
  refine ⟨hthread, ?_, ?_, ?_, rfl⟩
  · intro i
    exact shut_ne (hthread i)
  · intro _ h
    cases h with
    | thread i => exact shut_ne (shut_ne (hthread i))
    | event e =>
      cases e with
      | terminationSignaled => exact shut_ne (shut_self_ne _ _)
      | itemEnqueuedNotification => exact shut_self_ne _ _
  · intro hs
    rw [hp] at hs
    cases hs

theorem valid_shutdown {k : List (Task n)} {σ : Handle n → Status} (hσ : ∀ e, σ (.event e) = .opened)
    (hk : ∀ σ' : Handle n → Status, (∀ e, σ' (.event e) = .opened) → Valid k σ') : Valid (shutdown n ++ k) σ := by
  refine ⟨hσ _, ?_⟩
  apply valid_waitThreads
  intro σ' he _ _
  apply hk
  intro e
  rw [he e, hσ e]

theorem valid_createThreads : ∀ (l : List (Fin n)) {σ : Handle n → Status}, l.Nodup →
    (∀ i ∈ l, σ (.thread i) = .fresh) → (∀ e, σ (.event e) = .opened) →
    Valid (l.map .createThread ++ [.enter .alive]) σ := by
  intro l
  induction l with
  | nil =>
    intro σ _ _ he
    exact ⟨(fun h => nomatch h), fun _ => he, rfl⟩
  | cons i l ih =>
    intro σ hl hf he
    obtain ⟨hi, hl⟩ := List.nodup_cons.mp hl
    refine ⟨hf i (by simp), he, ih hl ?_ ?_⟩
    · intro j hj
      have hji : (Handle.thread j : Handle n) ≠ .thread i := by
        intro hji
        cases hji
        exact hi hj
      rw [Function.update_of_ne hji]
      exact hf j (List.mem_cons_of_mem _ hj)
    · intro e
      rw [Function.update_of_ne (by simp)]
      exact he e

theorem valid_construct (n : ℕ) : Valid (construct n) fun _ => .fresh := by
  refine ⟨rfl, ?_, ?_⟩
  · rw [Function.update_of_ne (by simp)]
  · apply valid_createThreads _ (List.nodup_finRange n)
    · intro i _
      rw [Function.update_of_ne (by simp), Function.update_of_ne (by simp)]
    · intro e
      cases e with
      | terminationSignaled => rw [Function.update_of_ne (by simp), Function.update_self]
      | itemEnqueuedNotification => rw [Function.update_self]

/-! ## What every step keeps -/

def State.slot (s : State n) : Handle n → Option (Handle n)
  | .event e => s.events e
  | .thread i => s.threads i

/-- The vectors hold the open handles, and a worker that has not ended keeps
the events open. -/
structure Books (s : State n) : Prop where
  slot : ∀ h, s.slot h = if s.status h = .opened then some h else none
  created : s.created.Nodup
  closed : s.closed.Nodup
  sub : ∀ h ∈ s.closed, h ∈ s.created
  joined : ∀ i, .thread i ∈ s.closed → s.finished i = true
  running : ∀ i, .thread i ∈ s.created → s.finished i = false → ∀ e, s.status (.event e) = .opened
  misused : s.misused = []

theorem Books.congr (hb : Books s) (hs : t.slot = s.slot) (hc : t.created = s.created) (hd : t.closed = s.closed)
    (hf : t.finished = s.finished) (hm : t.misused = s.misused) : Books t := by
  have hst := status_congr hc hd
  constructor
  · rw [hst, hs]; exact hb.slot
  · rw [hc]; exact hb.created
  · rw [hd]; exact hb.closed
  · rw [hc, hd]; exact hb.sub
  · rw [hd, hf]; exact hb.joined
  · rw [hc, hf, hst]; exact hb.running
  · rw [hm]; exact hb.misused

theorem Books.opened (hb : Books s) (ho : s.status h = .opened) : s.slot h = some h := by
  rw [hb.slot, if_pos ho]

theorem Books.of_slot (hb : Books s) {x : Handle n} (hx : s.slot h = some x) : x = h ∧ s.status h = .opened := by
  rw [hb.slot] at hx
  by_cases ho : s.status h = .opened
  · rw [if_pos ho] at hx
    cases hx
    exact ⟨rfl, ho⟩
  · rw [if_neg ho] at hx
    cases hx

theorem Books.of_slot_none (hb : Books s) (hx : s.slot h = none) : s.status h ≠ .opened := by
  intro ho
  rw [hb.opened ho] at hx
  cases hx

theorem Books.touch (hb : Books s) (ho : s.status h = .opened) : s.touch (s.slot h) = s := by
  rw [hb.opened ho]
  exact touch_of_opened ho

theorem Books.create (hb : Books s) (hf : s.status h = .fresh) (hs : t.slot = Function.update s.slot h (some h))
    (hc : t.created = s.created ++ [h]) (hd : t.closed = s.closed) (hfin : t.finished = s.finished)
    (hm : t.misused = s.misused) (hrun : ∀ i, h = .thread i → ∀ e, s.status (.event e) = .opened) : Books t := by
  have hst := status_create hf hc hd
  have hnew := (status_fresh.mp hf).1
  constructor
  · intro x
    rw [hs, hst]
    by_cases hx : x = h
    · subst hx; simp
    · rw [Function.update_of_ne hx, Function.update_of_ne hx]
      exact hb.slot x
  · rw [hc]
    exact List.Nodup.append hb.created (List.nodup_singleton _) (by simpa using hnew)
  · rw [hd]; exact hb.closed
  · rw [hc, hd]
    intro x hx
    exact List.mem_append_left _ (hb.sub x hx)
  · rw [hd, hfin]; exact hb.joined
  · rw [hc, hfin, hst]
    intro i hi hrunning e
    by_cases he : Handle.event e = h
    · rw [he, Function.update_self]
    · rw [Function.update_of_ne he]
      rcases List.mem_append.mp hi with hi | hi
      · exact hb.running i hi hrunning e
      · exact hrun i (List.mem_singleton.mp hi).symm e
  · rw [hm]; exact hb.misused

theorem Books.close (hb : Books s) (ho : s.status h = .opened) (hs : t.slot = Function.update s.slot h none)
    (hc : t.created = s.created) (hd : t.closed = s.closed ++ [h]) (hfin : t.finished = s.finished)
    (hm : t.misused = s.misused) (hjoin : ∀ i, h = .thread i → s.finished i = true)
    (hdisp : ∀ e, h = .event e → ∀ i, s.status (.thread i) ≠ .opened) : Books t := by
  have hst := status_close ho hc hd
  obtain ⟨hin, hout⟩ := status_opened.mp ho
  constructor
  · intro x
    rw [hs, hst]
    by_cases hx : x = h
    · subst hx
      rw [Function.update_self, if_neg (shut_self_ne _ _)]
    · rw [Function.update_of_ne hx, shut_of_ne hx]
      exact hb.slot x
  · rw [hc]; exact hb.created
  · rw [hd]
    exact List.Nodup.append hb.closed (List.nodup_singleton _) (by simpa using hout)
  · rw [hc, hd]
    intro x hx
    rcases List.mem_append.mp hx with hx | hx
    · exact hb.sub x hx
    · rw [List.mem_singleton.mp hx]; exact hin
  · rw [hd, hfin]
    intro i hi
    rcases List.mem_append.mp hi with hi | hi
    · exact hb.joined i hi
    · exact hjoin i (List.mem_singleton.mp hi).symm
  · rw [hc, hfin, hst]
    intro i hi hrunning e
    by_cases he : Handle.event e = h
    -- no thread is open any more, so none is running
    · have hni := hdisp e he.symm i
      rw [Ne, status_opened, not_and_not_right] at hni
      rw [hb.joined i (hni hi)] at hrunning
      cases hrunning
    · rw [shut_of_ne he]
      exact hb.running i hi hrunning e
  · rw [hm]; exact hb.misused

/-- The tasks of `Shutdown`, which leave the events alone. -/
def Task.keepsEvents : Task n → Bool
  | .createEvent _ | .createThread _ | .disposeEvent _ => false
  | _ => true

structure Plan (s : State n) : Prop where
  valid : Valid s.todo s.status
  closing : ∀ i, .closeThread i ∈ s.todo → s.finished i = true
  serving : s.phase.isServing = true → (∀ e, s.status (.event e) = .opened) ∧ ∀ t ∈ s.todo, t.keepsEvents = true
  ended : s.phase.isOver = true → s.todo = [] ∧ ∀ h, s.status h ≠ .opened

structure Inv (s : State n) : Prop where
  books : Books s
  plan : Plan s

theorem Plan.tail {a : Task n} {rest : List (Task n)} {σ : Handle n → Status} (hp : Plan s) (htodo : s.todo = a :: rest)
    (ht : t.todo = rest) (hphase : t.phase = s.phase) (hfin : t.finished = s.finished) (hst : t.status = σ)
    (hvalid : Valid rest σ)
    (hopen : a.keepsEvents = true → ∀ e, s.status (.event e) = .opened → σ (.event e) = .opened) : Plan t := by
  subst hst
  constructor
  · rw [ht]; exact hvalid
  · rw [ht, hfin]
    intro i hi
    apply hp.closing i
    rw [htodo]
    exact List.mem_cons_of_mem _ hi
  · rw [hphase, ht]
    intro hs
    obtain ⟨he, hk⟩ := hp.serving hs
    rw [htodo] at hk
    exact ⟨fun e => hopen (hk a (by simp)) e (he e), fun b hb => hk b (List.mem_cons_of_mem _ hb)⟩
  · rw [hphase]
    intro ho
    have := (hp.ended ho).1
    rw [htodo] at this
    cases this

/-- A routine takes over, and closes no thread it has not waited for. -/
theorem Plan.replace (hphase : t.phase.isOver = false) (hvalid : Valid t.todo t.status)
    (hclose : ∀ i, .closeThread i ∉ t.todo)
    (hserve : t.phase.isServing = true → (∀ e, t.status (.event e) = .opened) ∧ ∀ a ∈ t.todo, a.keepsEvents = true) :
    Plan t := by
  refine ⟨hvalid, fun i hi => absurd hi (hclose i), hserve, ?_⟩
  rw [hphase]
  intro h
  cases h

theorem closeThread_notMem_cleanup (i : Fin n) (p : Phase) : .closeThread i ∉ cleanupThreadPool n ++ [.enter p] := by
  simp [cleanupThreadPool, waitThreads, disposeEvents]

theorem closeThread_notMem_shutdown (i : Fin n) : .closeThread i ∉ shutdown n := by
  simp [shutdown, waitThreads]

theorem Plan.not_over {a : Task n} {rest : List (Task n)} (hp : Plan s) (htodo : s.todo = a :: rest) :
    s.phase.isOver = false := by
  cases ho : s.phase.isOver with
  | false => rfl
  | true =>
    have := (hp.ended ho).1
    rw [htodo] at this
    cases this

theorem Plan.not_serving {a : Task n} {rest : List (Task n)} (hp : Plan s) (htodo : s.todo = a :: rest)
    (ha : a.keepsEvents = false) : s.phase.isServing = false := by
  cases hs : s.phase.isServing with
  | false => rfl
  | true =>
    have := (hp.serving hs).2 a (by rw [htodo]; simp)
    rw [ha] at this
    cases this

theorem slot_events (s : State n) (e : Event) (x : Option (Handle n)) (t : State n)
    (he : t.events = Function.update s.events e x) (ht : t.threads = s.threads) :
    t.slot = Function.update s.slot (.event e) x := by
  funext y
  cases y with
  | event e' =>
    by_cases hee : e' = e
    · subst hee; simp [State.slot, he]
    · simp [State.slot, he, hee]
  | thread i => simp [State.slot, ht]

theorem slot_threads (s : State n) (i : Fin n) (x : Option (Handle n)) (t : State n)
    (he : t.events = s.events) (ht : t.threads = Function.update s.threads i x) :
    t.slot = Function.update s.slot (.thread i) x := by
  funext y
  cases y with
  | event e => simp [State.slot, he]
  | thread j =>
    by_cases hij : j = i
    · subst hij; simp [State.slot, ht]
    · simp [State.slot, ht, hij]

theorem slot_congr (he : t.events = s.events) (ht : t.threads = s.threads) : t.slot = s.slot := by
  funext y
  cases y with
  | event e => exact congrFun he e
  | thread i => exact congrFun ht i

theorem inv_createEvent {e : Event} {rest : List (Task n)} {b : Bool} (hI : Inv s) (htodo : s.todo = .createEvent e :: rest)
    (hs : owner b s = some t) : Inv t := by
  have hp := hI.plan
  have hnover := hp.not_over htodo
  have hnserv := hp.not_serving htodo rfl
  have hv := hp.valid
  rw [htodo] at hv
  simp only [owner, htodo] at hs
  cases b with
  | true =>
    cases hs
    refine ⟨hI.books.create hv.1 (slot_events _ e _ _ rfl rfl) rfl rfl rfl rfl nofun, ?_⟩
    exact hp.tail htodo rfl rfl rfl (status_create hv.1 rfl rfl) hv.2 nofun
  | false =>
    cases hs
    refine ⟨hI.books.congr (slot_congr rfl rfl) rfl rfl rfl rfl, Plan.replace hnover ?_ ?_ ?_⟩
    · exact valid_cleanup rfl _
    · exact fun i => closeThread_notMem_cleanup i _
    · intro h
      rw [hnserv] at h
      cases h

theorem inv_createThread {i : Fin n} {rest : List (Task n)} {b : Bool} (hI : Inv s) (htodo : s.todo = .createThread i :: rest)
    (hs : owner b s = some t) : Inv t := by
  have hp := hI.plan
  have hnover := hp.not_over htodo
  have hnserv := hp.not_serving htodo rfl
  have hv := hp.valid
  rw [htodo] at hv
  simp only [owner, htodo] at hs
  cases b with
  | true =>
    cases hs
    refine ⟨hI.books.create hv.1 (slot_threads _ i _ _ rfl rfl) rfl rfl rfl rfl (fun _ _ => hv.2.1), ?_⟩
    exact hp.tail htodo rfl rfl rfl (status_create hv.1 rfl rfl) hv.2.2 nofun
  | false =>
    cases hs
    refine ⟨hI.books.congr (slot_congr rfl rfl) rfl rfl rfl rfl, Plan.replace hnover ?_ ?_ ?_⟩
    · show Valid (shutdown n ++ cleanupThreadPool n ++ [.enter .thrown]) s.status
      rw [List.append_assoc]
      exact valid_shutdown hv.2.1 fun σ' _ => valid_cleanup rfl σ'
    · intro j hj
      change .closeThread j ∈ shutdown n ++ cleanupThreadPool n ++ [.enter .thrown] at hj
      rw [List.append_assoc] at hj
      rcases List.mem_append.mp hj with hj | hj
      · exact closeThread_notMem_shutdown j hj
      · exact closeThread_notMem_cleanup j _ hj
    · intro h
      rw [hnserv] at h
      cases h

theorem inv_waitThread {i : Fin n} {rest : List (Task n)} {b : Bool} (hI : Inv s) (htodo : s.todo = .waitThread i :: rest)
    (hs : owner b s = some t) : Inv t := by
  have hp := hI.plan
  have hv := hp.valid
  rw [htodo] at hv
  simp only [owner, htodo] at hs
  cases hslot : s.threads i with
  | none =>
    simp only [hslot] at hs
    cases hs
    have hno : s.status (.thread i) ≠ .opened := hI.books.of_slot_none hslot
    have hrest : Valid rest s.status := by
      rw [← shut_of_not_opened hno]
      exact hv
    exact ⟨hI.books.congr (slot_congr rfl rfl) rfl rfl rfl rfl,
      hp.tail htodo rfl rfl rfl (status_congr rfl rfl) hrest fun _ _ he => he⟩
  | some x =>
    obtain ⟨rfl, ho⟩ := hI.books.of_slot (h := .thread i) hslot
    simp only [hslot, touch_of_opened ho] at hs
    split at hs
    · rename_i hsig
      cases hs
      refine ⟨hI.books.congr (slot_congr rfl rfl) rfl rfl rfl rfl, ⟨ho, hv⟩, ?_, ?_, ?_⟩
      · intro j hj
        rcases List.mem_cons.mp hj with hj | hj
        · cases hj
          exact hsig
        · exact hp.closing j (by rw [htodo]; exact List.mem_cons_of_mem _ hj)
      · intro hserv
        obtain ⟨he, hk⟩ := hp.serving hserv
        refine ⟨he, ?_⟩
        intro a ha
        rcases List.mem_cons.mp ha with rfl | ha
        · rfl
        · exact hk a (by rw [htodo]; exact List.mem_cons_of_mem _ ha)
      · intro hover
        have := hp.not_over htodo
        rw [show s.phase.isOver = true from hover] at this
        cases this
    · cases hs

theorem inv_closeThread {i : Fin n} {rest : List (Task n)} {b : Bool} (hI : Inv s) (htodo : s.todo = .closeThread i :: rest)
    (hs : owner b s = some t) : Inv t := by
  have hp := hI.plan
  have hv := hp.valid
  rw [htodo] at hv
  have hslot : s.threads i = some (.thread i) := hI.books.opened hv.1
  have hfin := hp.closing i (by rw [htodo]; simp)
  simp only [owner, htodo, hslot, touch_of_opened hv.1] at hs
  cases hs
  refine ⟨hI.books.close hv.1 (slot_threads _ i _ _ rfl rfl) rfl rfl rfl rfl ?_ nofun, ?_⟩
  · intro j hj
    cases hj
    exact hfin
  · refine hp.tail htodo rfl rfl rfl (status_close hv.1 rfl rfl) hv.2 ?_
    intro _ e he
    rw [shut_of_ne (by simp)]
    exact he

theorem inv_disposeEvent {e : Event} {rest : List (Task n)} {b : Bool} (hI : Inv s)
    (htodo : s.todo = .disposeEvent e :: rest) (hs : owner b s = some t) : Inv t := by
  have hp := hI.plan
  have hv := hp.valid
  rw [htodo] at hv
  simp only [owner, htodo] at hs
  cases hslot : s.events e with
  | none =>
    simp only [hslot] at hs
    cases hs
    have hno : s.status (.event e) ≠ .opened := hI.books.of_slot_none hslot
    have hrest : Valid rest s.status := by
      rw [← shut_of_not_opened hno]
      exact hv.2
    exact ⟨hI.books.congr (slot_congr rfl rfl) rfl rfl rfl rfl,
      hp.tail htodo rfl rfl rfl (status_congr rfl rfl) hrest nofun⟩
  | some x =>
    obtain ⟨rfl, ho⟩ := hI.books.of_slot (h := .event e) hslot
    simp only [hslot, touch_of_opened ho] at hs
    cases hs
    refine ⟨hI.books.close ho (slot_events _ e _ _ rfl rfl) rfl rfl rfl rfl nofun (fun _ _ => hv.1), ?_⟩
    exact hp.tail htodo rfl rfl rfl (status_close ho rfl rfl) hv.2 nofun

theorem inv_owner {b : Bool} (hI : Inv s) (hs : owner b s = some t) : Inv t := by
  cases htodo : s.todo with
  | nil =>
    simp only [owner, htodo] at hs
    cases hs
  | cons a rest =>
    have hp := hI.plan
    have hv := hp.valid
    rw [htodo] at hv
    cases a with
    | createEvent e => exact inv_createEvent hI htodo hs
    | createThread i => exact inv_createThread hI htodo hs
    | setPendingShutdown =>
      simp only [owner, htodo] at hs
      cases hs
      exact ⟨hI.books.congr (slot_congr rfl rfl) rfl rfl rfl rfl,
        hp.tail htodo rfl rfl rfl (status_congr rfl rfl) hv fun _ _ he => he⟩
    | setEvent e =>
      have hslot : s.events e = some (.event e) := hI.books.opened hv.1
      simp only [owner, htodo, hslot, touch_of_opened hv.1] at hs
      cases hs
      exact ⟨hI.books.congr (slot_congr rfl rfl) rfl rfl rfl rfl,
        hp.tail htodo rfl rfl rfl (status_congr rfl rfl) hv.2 fun _ _ he => he⟩
    | waitThread i => exact inv_waitThread hI htodo hs
    | closeThread i => exact inv_closeThread hI htodo hs
    | disposeEvent e => exact inv_disposeEvent hI htodo hs
    | enter p =>
      simp only [owner, htodo] at hs
      cases hs
      obtain ⟨hover, hserv, rfl⟩ := hv
      refine ⟨hI.books.congr (slot_congr rfl rfl) rfl rfl rfl rfl, trivial, (fun i hi => nomatch hi), ?_, ?_⟩
      · intro h
        exact ⟨hserv h, fun a ha => nomatch ha⟩
      · intro h
        exact ⟨rfl, hover h⟩

theorem inv_worker {i : Fin n} {u : Use} (hI : Inv s) (hi : .thread i ∈ s.created) (hrun : s.finished i = false) :
    Inv (worker i s u) := by
  have hopen := hI.books.running i hi hrun
  have hsame : ∀ e, s.touch (s.events e) = s := fun e => hI.books.touch (h := .event e) (hopen e)
  cases u with
  | waitForMultipleObjects =>
    simp only [worker, hsame]
    exact hI
  | resetEvent =>
    simp only [worker, hsame]
    exact hI
  | setEvent =>
    simp only [worker, hsame]
    exact hI
  | finish =>
    have hmono : ∀ j, s.finished j = true → (worker i s .finish).finished j = true := by
      intro j hj
      by_cases hji : j = i
      · subst hji
        exact Function.update_self _ _ _
      · exact (Function.update_of_ne hji _ _).trans hj
    have hst : (worker i s .finish).status = s.status := status_congr rfl rfl
    obtain ⟨hb, hp⟩ := hI
    refine ⟨⟨?_, hb.created, hb.closed, hb.sub, fun j hj => hmono j (hb.joined j hj), ?_, hb.misused⟩,
      ?_, fun j hj => hmono j (hp.closing j hj), ?_, ?_⟩
    · rw [hst]; exact hb.slot
    · rw [hst]
      intro j hj hrunning
      apply hb.running j hj
      cases hfin : s.finished j with
      | false => rfl
      | true =>
        rw [hmono j hfin] at hrunning
        cases hrunning
    · rw [hst]; exact hp.valid
    · rw [hst]; exact hp.serving
    · rw [hst]; exact hp.ended

theorem inv_shutdown (hI : Inv s) (hphase : s.phase = .alive) :
    Inv { s with phase := .shuttingDown, todo := shutdown n ++ [.enter .alive] } := by
  have ho := (hI.plan.serving (by rw [hphase]; rfl)).1
  refine ⟨hI.books.congr (slot_congr rfl rfl) rfl rfl rfl rfl, Plan.replace rfl ?_ ?_ ?_⟩
  · exact valid_shutdown ho fun σ' he => ⟨nofun, fun _ => he, rfl⟩
  · intro i hi
    rcases List.mem_append.mp hi with hi | hi
    · exact closeThread_notMem_shutdown i hi
    · simp at hi
  · intro _
    refine ⟨ho, ?_⟩
    intro a ha
    simp only [shutdown, waitThreads, List.cons_append, List.mem_cons, List.mem_append, List.mem_map,
      List.not_mem_nil, or_false] at ha
    rcases ha with rfl | rfl | ⟨i, -, rfl⟩ | rfl <;> rfl

theorem inv_destruct (hI : Inv s) (hphase : s.phase = .alive) : Inv { s with phase := .destroying, todo := destruct n } := by
  have ho := (hI.plan.serving (by rw [hphase]; rfl)).1
  refine ⟨hI.books.congr (slot_congr rfl rfl) rfl rfl rfl rfl, Plan.replace rfl ?_ ?_ nofun⟩
  · show Valid (shutdown n ++ cleanupThreadPool n ++ [.enter .destroyed]) s.status
    rw [List.append_assoc]
    exact valid_shutdown ho fun σ' _ => valid_cleanup rfl σ'
  · intro i hi
    change .closeThread i ∈ shutdown n ++ cleanupThreadPool n ++ [.enter .destroyed] at hi
    rw [List.append_assoc] at hi
    rcases List.mem_append.mp hi with hi | hi
    · exact closeThread_notMem_shutdown i hi
    · exact closeThread_notMem_cleanup i _ hi

theorem inv_step {a : Act n} (hI : Inv s) (hs : step s a = some t) : Inv t := by
  cases a with
  | owner b => exact inv_owner hI hs
  | enqueueItem =>
    simp only [step] at hs
    split at hs
    · rename_i hphase
      cases hs
      have hserv : s.phase.isServing = true := by rcases hphase with h | h <;> rw [h] <;> rfl
      have ho := (hI.plan.serving hserv).1 .itemEnqueuedNotification
      rw [show s.touch (s.events .itemEnqueuedNotification) = s from hI.books.touch (h := .event _) ho]
      exact hI
    · cases hs
  | shutdown =>
    simp only [step] at hs
    split at hs
    · rename_i hphase
      cases hs
      exact inv_shutdown hI hphase
    · cases hs
  | destruct =>
    simp only [step] at hs
    split at hs
    · rename_i hphase
      cases hs
      exact inv_destruct hI hphase
    · cases hs
  | worker i u =>
    simp only [step] at hs
    split at hs
    · rename_i hrun
      cases hs
      exact inv_worker hI hrun.1 hrun.2
    · cases hs

theorem inv_start (n : ℕ) : Inv (start n) := by
  have hst : (start n).status = fun _ => .fresh := rfl
  refine ⟨⟨?_, List.nodup_nil, List.nodup_nil, nofun, nofun, nofun, rfl⟩, ?_, ?_, nofun, nofun⟩
  · intro h
    cases h <;> rfl
  · rw [hst]
    exact valid_construct n
  · intro i hi
    simp [start, construct] at hi

theorem inv_reachable (h : (handles n).Reachable s) : Inv s := by
  refine h.invariant (I := Inv) ?_ fun s a t hI hs => inv_step (a := a) hI hs
  intro s hs
  subst hs
  exact inv_start n

/-- **Handle discipline.** In every reachable state no call was given a handle
that was null or not open; a closed thread has ended, and with a closed event
every thread created has; and once the constructor has thrown or the destructor
has returned, every handle created has been closed exactly once. -/
theorem handle_discipline (n : ℕ) (s : State n) (hr : (handles n).Reachable s) :
    s.misused = [] ∧
    (∀ i, .thread i ∈ s.closed → s.finished i = true) ∧
    (∀ e, .event e ∈ s.closed → ∀ i, .thread i ∈ s.created → s.finished i = true) ∧
    s.created.Nodup ∧ (∀ h, s.closed.count h ≤ 1) ∧ (∀ h ∈ s.closed, h ∈ s.created) ∧
    (s.phase = .thrown ∨ s.phase = .destroyed → ∀ h ∈ s.created, s.closed.count h = 1) := by
  obtain ⟨hb, hp⟩ := inv_reachable hr
  refine ⟨hb.misused, hb.joined, ?_, hb.created, fun h => List.nodup_iff_count_le_one.mp hb.closed h, hb.sub, ?_⟩
  · intro e he i hi
    cases hrun : s.finished i with
    | true => rfl
    | false => exact absurd he (status_opened.mp (hb.running i hi hrun e)).2
  · intro hphase h hh
    have hover : s.phase.isOver = true := by rcases hphase with hp | hp <;> rw [hp] <;> rfl
    have hclosed : h ∈ s.closed := by
      by_contra hn
      exact (hp.ended hover).2 h (status_opened.mpr ⟨hh, hn⟩)
    exact List.count_eq_one_of_mem hb.closed hclosed

/-- The second `CreateThread` fails while the first thread waits. -/
def secondThreadFails : List (Act 2) :=
  List.flatten [.replicate 3 (.owner true), [.worker 0 .waitForMultipleObjects, .owner false], .replicate 2 (.owner true),
    [.worker 0 .finish], .replicate 8 (.owner true)]

def twoShutdowns : List (Act 1) :=
  List.flatten [.replicate 4 (.owner true), [.enqueueItem, .worker ⟨0, Nat.one_pos⟩ .resetEvent, .shutdown], .replicate 2 (.owner true),
    [.worker ⟨0, Nat.one_pos⟩ .finish], .replicate 3 (.owner true), [.shutdown], .replicate 4 (.owner true), [.destruct],
    .replicate 7 (.owner true)]

def thrownEnd : State 2 := ((handles 2).exec (fun _ _ => True) (start 2) secondThreadFails).get (by decide)

def destroyedEnd : State 1 := ((handles 1).exec (fun _ _ => True) (start 1) twoShutdowns).get (by decide)

theorem handle_discipline_ends : thrownEnd.phase = .thrown ∧ (∀ h ∈ thrownEnd.created, thrownEnd.closed.count h = 1) ∧
    destroyedEnd.phase = .destroyed ∧ ∀ h ∈ destroyedEnd.created, destroyedEnd.closed.count h = 1 := by
  have ht : (handles 2).Reachable thrownEnd := System.reach_of_exec rfl secondThreadFails (Option.some_get _).symm
  have hd : (handles 1).Reachable destroyedEnd := System.reach_of_exec rfl twoShutdowns (Option.some_get _).symm
  have hthrown : thrownEnd.phase = .thrown := by decide
  have hdestroyed : destroyedEnd.phase = .destroyed := by decide
  obtain ⟨-, -, -, -, -, -, h1⟩ := handle_discipline 2 thrownEnd ht
  obtain ⟨-, -, -, -, -, -, h2⟩ := handle_discipline 1 destroyedEnd hd
  exact ⟨hthrown, h1 (.inl hthrown), hdestroyed, h2 (.inr hdestroyed)⟩

end Dmsk.PoolHandles
