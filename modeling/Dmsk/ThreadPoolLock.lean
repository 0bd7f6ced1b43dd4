import Mathlib.Data.Multiset.AddSub
import Dmsk.ThreadPool

/-!
# The pool's lock and its wake-up event

What one step of a thread can do is said once (`Moves`, `step_cases`). The
lock's owner is the one thread inside a critical section (`Mutex`), and
`ITEM_ENQUEUED_NOTIFICATION_EVENT` agrees with the queue up to the owner's
position (`EventOk`): it is set by the push onto an empty queue and reset by
the pop that empties it, each a step later. So no wake-up is lost.
-/

namespace Dmsk.ThreadPool

variable {n : Nat} {P κ σ : Type}

/-! ## What a position says about its thread -/

def EnqueuePc.holds : EnqueuePc κ → Bool
  | .idle | .lock _ => false
  | _ => true

def GetPc.holds : GetPc κ → Bool
  | .lock => false
  | _ => true

def Pc.holds : Pc κ → Bool
  | .user e => e.holds
  | .get _ g => g.holds
  | .callback _ _ e => e.holds
  | _ => false

/-- The thread has read `pendingShutdown` as false and not pushed yet. -/
def EnqueuePc.passed : EnqueuePc κ → Bool
  | .emplace _ => true
  | _ => false

def Pc.passed : Pc κ → Bool
  | .user e => e.passed
  | .callback _ _ e => e.passed
  | _ => false

/-- The item the thread has pushed while its `EnqueueItem` has not returned. -/
def EnqueuePc.pushed : EnqueuePc κ → Option (ThreadWorkerItem κ)
  | .signal x | .unlock x => some x
  | _ => none

def Pc.pushed : Pc κ → Option (ThreadWorkerItem κ)
  | .user e => e.pushed
  | .callback _ _ e => e.pushed
  | _ => none

def Pc.isUser : Pc κ → Bool
  | .user _ => true
  | _ => false

/-- The item the worker has popped while its callback has not returned. -/
def Pc.hand : Pc κ → Multiset (ThreadWorkerItem κ)
  | .get _ (.reset x) | .get _ (.unlock (some x)) | .callback _ x _ => {x}
  | _ => 0

/-- The worker has read `pendingShutdown` as true. -/
def Pc.draining : Pc κ → Bool
  | .get .drain _ | .callback .drain _ _ | .finished => true
  | _ => false

/-- The worker has found the queue empty while draining it. -/
def Pc.closed : Pc κ → Bool
  | .get .drain (.unlock none) | .finished => true
  | _ => false

/-- What `ITEM_ENQUEUED_NOTIFICATION_EVENT` is while the owner of the lock is
at this position: it lags behind the queue from a push to `SetEvent` and from
a pop to `ResetEvent`. -/
def EnqueuePc.event (items : List (ThreadWorkerItem κ)) : EnqueuePc κ → Bool
  | .signal _ => decide (2 ≤ items.length)
  | _ => !items.isEmpty

def Pc.event (items : List (ThreadWorkerItem κ)) : Pc κ → Bool
  | .user e => e.event items
  | .callback _ _ e => e.event items
  | .get _ (.reset _) => true
  | _ => !items.isEmpty

/-- A thread is in `EnqueueItem` as a user of the pool or in a callback. -/
theorem Pc.enqueue_cases {p : Pc κ} {e : EnqueuePc κ} (h : p.enqueue = some e) :
    p = .user e ∨ ∃ m x, p = .callback m x e := by
  cases p with
  | user e' => cases h; exact .inl rfl
  | callback m x e' => cases h; exact .inr ⟨m, x, rfl⟩
  | _ => cases h

section
variable {p : Pc κ} {e : EnqueuePc κ} (h : p.enqueue = some e)
include h

theorem holds_enqueue : p.holds = e.holds := by
  rcases p.enqueue_cases h with rfl | ⟨m, x, rfl⟩ <;> rfl

theorem holds_setEnqueue (e' : EnqueuePc κ) : (p.setEnqueue e').holds = e'.holds := by
  rcases p.enqueue_cases h with rfl | ⟨m, x, rfl⟩ <;> rfl

theorem passed_enqueue : p.passed = e.passed := by
  rcases p.enqueue_cases h with rfl | ⟨m, x, rfl⟩ <;> rfl

theorem pushed_enqueue : p.pushed = e.pushed := by
  rcases p.enqueue_cases h with rfl | ⟨m, x, rfl⟩ <;> rfl

theorem event_enqueue (items : List (ThreadWorkerItem κ)) : p.event items = e.event items := by
  rcases p.enqueue_cases h with rfl | ⟨m, x, rfl⟩ <;> rfl

theorem event_setEnqueue (e' : EnqueuePc κ) (items : List (ThreadWorkerItem κ)) :
    (p.setEnqueue e').event items = e'.event items := by
  rcases p.enqueue_cases h with rfl | ⟨m, x, rfl⟩ <;> rfl

theorem passed_setEnqueue (e' : EnqueuePc κ) : (p.setEnqueue e').passed = e'.passed := by
  rcases p.enqueue_cases h with rfl | ⟨m, x, rfl⟩ <;> rfl

theorem pushed_setEnqueue (e' : EnqueuePc κ) : (p.setEnqueue e').pushed = e'.pushed := by
  rcases p.enqueue_cases h with rfl | ⟨m, x, rfl⟩ <;> rfl

theorem isFinished_enqueue : p.isFinished = false := by
  rcases p.enqueue_cases h with rfl | ⟨m, x, rfl⟩ <;> rfl

end

@[simp] theorem hand_setEnqueue (p : Pc κ) (e : EnqueuePc κ) : (p.setEnqueue e).hand = p.hand := by
  cases p <;> rfl

@[simp] theorem isUser_setEnqueue (p : Pc κ) (e : EnqueuePc κ) : (p.setEnqueue e).isUser = p.isUser := by
  cases p <;> rfl

@[simp] theorem draining_setEnqueue (p : Pc κ) (e : EnqueuePc κ) : (p.setEnqueue e).draining = p.draining := by
  cases p with
  | callback m _ _ => cases m <;> rfl
  | _ => rfl

@[simp] theorem closed_setEnqueue (p : Pc κ) (e : EnqueuePc κ) : (p.setEnqueue e).closed = p.closed := by
  cases p <;> rfl

/-! ## What a step can do -/

/-- A step of thread `t` from position `p` to `q`, with its effect on the shared data. -/
inductive Moves (exec : κ → σ → σ) (t : Thread n P) (d : PoolData n P κ σ) : Pc κ → PoolData n P κ σ → Pc κ → Prop
  | call {p c} : p.enqueue = some .idle → Moves exec t d p d (p.setEnqueue (.lock c))
  | lock {p c} : p.enqueue = some (.lock c) → d.itemsLock = none →
      Moves exec t d p { d with itemsLock := some t } (p.setEnqueue (.check c))
  | check {p c} : p.enqueue = some (.check c) →
      Moves exec t d p d (p.setEnqueue (if d.pendingShutdown then .refuse else .emplace c))
  | emplace {p c} (x : ThreadWorkerItem κ) : p.enqueue = some (.emplace c) → x = ⟨d.accepted.length, c⟩ →
      Moves exec t d p { d with items := d.items ++ [x], accepted := d.accepted ++ [x] } (p.setEnqueue (.signal x))
  | signal {p x} : p.enqueue = some (.signal x) →
      Moves exec t d p (if d.items.length = 1 then { d with itemEnqueued := true } else d) (p.setEnqueue (.unlock x))
  | unlock {p x} : p.enqueue = some (.unlock x) →
      Moves exec t d p { d with itemsLock := none, returned := d.returned ++ [x] } (p.setEnqueue .idle)
  | refuse {p} : p.enqueue = some .refuse → Moves exec t d p { d with itemsLock := none } (p.setEnqueue .idle)
  | test : Moves exec t d .test d (.get (if d.pendingShutdown then .drain else .serve) .lock)
  | getLock {m} : d.itemsLock = none → Moves exec t d (.get m .lock) { d with itemsLock := some t } (.get m .take)
  | takeNone {m} : d.items = [] → Moves exec t d (.get m .take) d (.get m (.unlock none))
  | takeSome {m x xs} : d.items = x :: xs →
      Moves exec t d (.get m .take) { d with items := xs, dequeued := d.dequeued ++ [x] } (.get m (.reset x))
  | reset {m x} : Moves exec t d (.get m (.reset x))
      (if d.items.isEmpty then { d with itemEnqueued := false } else d) (.get m (.unlock (some x)))
  | getUnlock {m r} : Moves exec t d (.get m (.unlock r)) { d with itemsLock := none } (m.afterGet r)
  | callback {m x} : Moves exec t d (.callback m x .idle)
      { d with shared := exec x.callback d.shared, executed := d.executed ++ [x] } m.afterCallback
  | wait : d.terminationSignaled = true ∨ d.itemEnqueued = true → Moves exec t d .wait d .test

theorem moves_of_enqueueItem {exec : κ → σ → σ} {t : Thread n P} {d d' : PoolData n P κ σ} {p : Pc κ} {e e' : EnqueuePc κ}
    (hp : p.enqueue = some e) (h : enqueueItem t d e = some (d', e')) : Moves exec t d p d' (p.setEnqueue e') := by
  cases e with
  | idle => cases h
  | lock c =>
    simp only [enqueueItem] at h
    split at h
    · rename_i hl
      cases h
      exact .lock hp (Option.isNone_iff_eq_none.mp hl)
    · cases h
  | check c => cases h; exact .check hp
  | emplace c => cases h; exact .emplace _ hp rfl
  | signal x => cases h; exact .signal hp
  | unlock x => cases h; exact .unlock hp
  | refuse => cases h; exact .refuse hp

theorem moves_of_doWork {exec : κ → σ → σ} {t : Thread n P} {d d' : PoolData n P κ σ} {p q : Pc κ}
    (h : doWork exec t d p = some (d', q)) : Moves exec t d p d' q := by
  cases p with
  | user e => cases h
  | test => cases h; exact .test
  | get m g =>
    cases g with
    | lock =>
      simp only [doWork, getWorkerItem] at h
      split at h
      · rename_i hl
        cases h
        exact .getLock (Option.isNone_iff_eq_none.mp hl)
      · cases h
    | take =>
      simp only [doWork, getWorkerItem] at h
      split at h
      · rename_i hi; cases h; exact .takeNone hi
      · rename_i x xs hi; cases h; exact .takeSome hi
    | reset x => cases h; exact .reset
    | unlock r => cases h; exact .getUnlock
  | callback m x e =>
    cases e with
    | idle => cases h; exact .callback
    | _ => cases h
  | wait =>
    simp only [doWork] at h
    split at h
    · rename_i hw
      cases h
      exact .wait (by simpa using hw)
    · cases h
  | finished => cases h

inductive ShutdownMoves (s : Pool n P κ σ) : Pool n P κ σ → Prop
  | call : s.shutdownPc = .notCalled ∨ s.shutdownPc = .returned →
      ShutdownMoves s { s with pendingShutdown := true, shutdownPc := .signal }
  | signal : s.shutdownPc = .signal →
      ShutdownMoves s { s with terminationSignaled := true, shutdownPc := .waitThreads 0 }
  | join (w : Fin n) : s.shutdownPc = .waitThreads w → (s.pc (.worker w)).isFinished = true →
      ShutdownMoves s { s with threads := fun v => if v = w then false else s.threads v, shutdownPc := .waitThreads (w + 1) }
  | skip (w : Fin n) : s.shutdownPc = .waitThreads w → s.threads w = false →
      ShutdownMoves s { s with shutdownPc := .waitThreads (w + 1) }
  | done {i} : s.shutdownPc = .waitThreads i → n ≤ i → ShutdownMoves s { s with shutdownPc := .returned }

theorem shutdown_moves {s s' : Pool n P κ σ} (h : shutdown s = some s') : ShutdownMoves s s' := by
  unfold shutdown at h
  split at h
  · rename_i hp; cases h; exact .call (.inl hp)
  · rename_i hp; cases h; exact .call (.inr hp)
  · rename_i hp; cases h; exact .signal hp
  · rename_i i hp
    split at h
    · rename_i hi
      split at h
      · split at h
        · rename_i hf; cases h; exact .join ⟨i, hi⟩ hp hf
        · cases h
      · rename_i ht; cases h; exact .skip ⟨i, hi⟩ hp (by simpa using ht)
    · rename_i hi; cases h; exact .done hp (Nat.le_of_not_lt hi)

section
variable [DecidableEq P] {exec : κ → σ → σ} {s s' : Pool n P κ σ}

theorem step_cases {a : Act n P κ} (h : step exec s a = some s') :
    (∃ t d' q, Moves exec t s.toPoolData (s.pc t) d' q ∧ s' = s.move t (d', q)) ∨ ShutdownMoves s s' := by
  cases a with
  | call t c =>
    simp only [step] at h
    split at h
    · rename_i hp; cases h; exact .inl ⟨t, _, _, .call hp, rfl⟩
    · cases h
  | enqueue t =>
    simp only [step, Option.bind_eq_some_iff, Option.map_eq_some_iff] at h
    obtain ⟨e, hp, ⟨d', e'⟩, he, rfl⟩ := h
    exact .inl ⟨t, d', _, moves_of_enqueueItem hp he, rfl⟩
  | work w =>
    simp only [step, Option.map_eq_some_iff] at h
    obtain ⟨⟨d', q⟩, hw, rfl⟩ := h
    exact .inl ⟨.worker w, d', q, moves_of_doWork hw, rfl⟩
  | shutdown => exact .inr (shutdown_moves h)

@[simp] theorem move_data (t : Thread n P) (r : PoolData n P κ σ × Pc κ) : (s.move t r).toPoolData = r.1 := rfl

@[simp] theorem move_pc (t : Thread n P) (r : PoolData n P κ σ × Pc κ) :
    (s.move t r).pc = Function.update s.pc t r.2 := rfl

/-! ## The lock -/

/-- The owner of the lock is the one thread inside a critical section. -/
def Mutex (s : Pool n P κ σ) : Prop := ∀ u, (s.pc u).holds = true ↔ s.itemsLock = some u

theorem mutex_keep (h : Mutex s) {t : Thread n P} {d' : PoolData n P κ σ} {q : Pc κ}
    (hq : q.holds = (s.pc t).holds) (hl : d'.itemsLock = s.itemsLock) : Mutex (s.move t (d', q)) := by
  intro u
  simp only [move_data, move_pc, hl]
  by_cases hu : u = t
  · subst hu; simpa [hq] using h u
  · simpa [hu] using h u

theorem mutex_take (h : Mutex s) {t : Thread n P} {d' : PoolData n P κ σ} {q : Pc κ} (hl : s.itemsLock = none)
    (hq : q.holds = true) (hl' : d'.itemsLock = some t) : Mutex (s.move t (d', q)) := by
  intro u
  simp only [move_data, move_pc, hl']
  by_cases hu : u = t
  · subst hu; simp [hq]
  · have hn : (s.pc u).holds ≠ true := fun hh => by
      have := (h u).mp hh; rw [hl] at this; cases this
    simp [hu, hn, Ne.symm hu]

theorem mutex_release (h : Mutex s) {t : Thread n P} {d' : PoolData n P κ σ} {q : Pc κ}
    (hp : (s.pc t).holds = true) (hq : q.holds = false) (hl' : d'.itemsLock = none) : Mutex (s.move t (d', q)) := by
  intro u
  simp only [move_data, move_pc, hl']
  by_cases hu : u = t
  · subst hu; simp [hq]
  · have hn : (s.pc u).holds ≠ true := fun hh => by
      have := ((h t).mp hp).symm.trans ((h u).mp hh)
      exact hu (Option.some.inj this).symm
    simp [hu, hn]

theorem mutex_moves {t : Thread n P} {d' : PoolData n P κ σ} {p q : Pc κ} (h : Mutex s) (hp : s.pc t = p)
    (hm : Moves exec t s.toPoolData p d' q) : Mutex (s.move t (d', q)) := by
  cases hm with
  | call he => exact mutex_keep h (by rw [hp, holds_setEnqueue he, holds_enqueue he]; rfl) rfl
  | lock he hl => exact mutex_take h hl (holds_setEnqueue he _) rfl
  | check he =>
    refine mutex_keep h ?_ rfl
    rw [hp, holds_setEnqueue he, holds_enqueue he]
    split <;> rfl
  | emplace x he _ => exact mutex_keep h (by rw [hp, holds_setEnqueue he, holds_enqueue he]; rfl) rfl
  | signal he =>
    apply mutex_keep h (by rw [hp, holds_setEnqueue he, holds_enqueue he]; rfl)
    split <;> rfl
  | unlock he => exact mutex_release h (by rw [hp, holds_enqueue he]; rfl) (holds_setEnqueue he _) rfl
  | refuse he => exact mutex_release h (by rw [hp, holds_enqueue he]; rfl) (holds_setEnqueue he _) rfl
  | test => exact mutex_keep h (by rw [hp]; rfl) rfl
  | getLock hl => exact mutex_take h hl rfl rfl
  | takeNone _ => exact mutex_keep h (by rw [hp]; rfl) rfl
  | takeSome _ => exact mutex_keep h (by rw [hp]; rfl) rfl
  | reset =>
    apply mutex_keep h (by rw [hp]; rfl)
    split <;> rfl
  | @getUnlock m r =>
    refine mutex_release h (by rw [hp]; rfl) ?_ rfl
    cases m <;> cases r <;> rfl
  | @callback m x =>
    refine mutex_keep h ?_ rfl
    rw [hp]; cases m <;> rfl
  | wait _ => exact mutex_keep h (by rw [hp]; rfl) rfl

omit [DecidableEq P] in
theorem mutex_start (shared : σ) : Mutex (start shared : Pool n P κ σ) := by
  intro u
  cases u <;> simp [start, Pc.holds, EnqueuePc.holds]

/-! ## The event -/

/-- `ITEM_ENQUEUED_NOTIFICATION_EVENT` is what the owner's position says. -/
def EventOk (s : Pool n P κ σ) : Prop :=
  s.itemEnqueued = match s.itemsLock with
    | none => !s.items.isEmpty
    | some u => (s.pc u).event s.items

theorem event_outside (hx : Mutex s) (h : EventOk s) {t : Thread n P} {d' : PoolData n P κ σ} {q : Pc κ}
    (hp : (s.pc t).holds = false) (hl : d'.itemsLock = s.itemsLock) (hi : d'.items = s.items)
    (he : d'.itemEnqueued = s.itemEnqueued) : EventOk (s.move t (d', q)) := by
  unfold EventOk at h ⊢
  simp only [move_data, move_pc, hl, hi, he]
  rw [h]
  cases hs : s.itemsLock with
  | none => rfl
  | some u =>
    have hu : u ≠ t := fun e => by
      subst e; rw [(hx u).mpr hs] at hp; cases hp
    simp [hu]

theorem event_inside (hx : Mutex s) {t : Thread n P} {d' : PoolData n P κ σ} {q : Pc κ}
    (hp : (s.pc t).holds = true) (hl : d'.itemsLock = s.itemsLock) (he : d'.itemEnqueued = q.event d'.items) :
    EventOk (s.move t (d', q)) := by
  unfold EventOk
  simp only [move_data, move_pc, hl, (hx t).mp hp, Function.update_self]
  exact he

omit [DecidableEq P] in
theorem event_owner (hx : Mutex s) (h : EventOk s) {t : Thread n P} (hp : (s.pc t).holds = true) :
    s.itemEnqueued = (s.pc t).event s.items := by
  unfold EventOk at h
  rw [h, (hx t).mp hp]

theorem event_take (h : EventOk s) {t : Thread n P} {q : Pc κ} (hl : s.itemsLock = none)
    (hq : q.event s.items = !s.items.isEmpty) :
    EventOk (s.move t ({ s.toPoolData with itemsLock := some t }, q)) := by
  unfold EventOk at h ⊢
  simp only [move_data, move_pc, Function.update_self, hq]
  rw [h, hl]

theorem event_release (hx : Mutex s) (h : EventOk s) {t : Thread n P} {d' : PoolData n P κ σ} {q : Pc κ}
    (hp : (s.pc t).holds = true) (hpe : (s.pc t).event s.items = !s.items.isEmpty) (hl : d'.itemsLock = none)
    (hi : d'.items = s.items) (he : d'.itemEnqueued = s.itemEnqueued) : EventOk (s.move t (d', q)) := by
  unfold EventOk
  simp only [move_data, hl, hi, he]
  rw [event_owner hx h hp, hpe]

theorem event_moves {t : Thread n P} {d' : PoolData n P κ σ} {p q : Pc κ} (hx : Mutex s) (h : EventOk s)
    (hp : s.pc t = p) (hm : Moves exec t s.toPoolData p d' q) : EventOk (s.move t (d', q)) := by
  have ho := event_owner hx h (t := t)
  rw [hp] at ho
  cases hm with
  | call he => exact event_outside hx h (by rw [hp, holds_enqueue he]; rfl) rfl rfl rfl
  | lock he hl => exact event_take h hl (event_setEnqueue he _ _)
  | check he =>
    apply event_inside hx (by rw [hp, holds_enqueue he]; rfl) rfl
    rw [ho (holds_enqueue he), event_setEnqueue he, event_enqueue he]
    split <;> rfl
  | emplace x he hxc =>
    refine event_inside hx (by rw [hp, holds_enqueue he]; rfl) rfl ?_
    simp only
    rw [ho (holds_enqueue he), event_setEnqueue he, event_enqueue he]
    cases hi : s.items <;> simp [EnqueuePc.event]
  | signal he =>
    apply event_inside hx (by rw [hp, holds_enqueue he]; rfl) (by split <;> rfl)
    have hev := ho (holds_enqueue he)
    rw [event_enqueue he] at hev
    rw [event_setEnqueue he]
    -- a push onto a longer queue found the event signalled already
    split
    · rename_i h1
      cases hi : s.items <;> simp_all [EnqueuePc.event]
    · rename_i h1
      rw [hev]
      cases hi : s.items with
      | nil => rfl
      | cons y ys => cases ys <;> simp_all [EnqueuePc.event]
  | unlock he =>
    exact event_release hx h (by rw [hp, holds_enqueue he]; rfl) (by rw [hp, event_enqueue he]; rfl) rfl rfl rfl
  | refuse he =>
    exact event_release hx h (by rw [hp, holds_enqueue he]; rfl) (by rw [hp, event_enqueue he]; rfl) rfl rfl rfl
  | test => exact event_outside hx h (by rw [hp]; rfl) rfl rfl rfl
  | getLock hl => exact event_take h hl rfl
  | takeNone _ => exact event_inside hx (by rw [hp]; rfl) rfl (ho rfl)
  | @takeSome m x xs hi =>
    refine event_inside hx (by rw [hp]; rfl) rfl ?_
    have hev := ho rfl
    rw [hi] at hev
    exact hev
  | @reset m x =>
    apply event_inside hx (by rw [hp]; rfl) (by split <;> rfl)
    have hev := ho rfl
    simp only [Pc.event] at hev
    cases hi : s.items <;> simp [Pc.event, hi, hev]
  | getUnlock => exact event_release hx h (by rw [hp]; rfl) (by rw [hp]; rfl) rfl rfl rfl
  | callback => exact event_outside hx h (by rw [hp]; rfl) rfl rfl rfl
  | wait _ => exact event_outside hx h (by rw [hp]; rfl) rfl rfl rfl

omit [DecidableEq P] in
theorem event_start (shared : σ) : EventOk (start shared : Pool n P κ σ) := rfl

end

end Dmsk.ThreadPool
