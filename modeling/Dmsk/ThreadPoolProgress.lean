import Mathlib.Algebra.Order.BigOperators.Group.Finset
import Mathlib.Data.Nat.Cast.Basic
import Dmsk.Progress
import Dmsk.ThreadPoolSound

/-!
# Shutdown returns

Once `Shutdown` was called, every position of a thread is a bounded number of
steps away from its end: a producer finds the flag set and is refused, a worker
drains the queue and finishes. `rank` adds these distances up; what is still
queued costs the worker that takes it one round of its loop. Only a new call of
`EnqueueItem` lengthens the run, by the steps until it is refused.
-/

namespace Dmsk.ThreadPool

variable {n : Nat} {P κ σ : Type} {exec : κ → σ → σ} {shared : σ} {s s' : Pool n P κ σ}

def threadEquiv (n : Nat) (P : Type) : Fin n ⊕ P ≃ Thread n P where
  toFun := Sum.elim .worker .producer
  invFun
    | .worker w => .inl w
    | .producer p => .inr p
  left_inv t := by cases t <;> rfl
  right_inv t := by cases t <;> rfl

instance [Fintype P] : Fintype (Thread n P) := .ofEquiv _ (threadEquiv n P)

def Act.isCall : Act n P κ → Bool
  | .call _ _ => true
  | _ => false

/-! ## The rank -/

/-- Steps until the call of `EnqueueItem` ends, and those of the item it pushes. -/
def EnqueuePc.rank : EnqueuePc κ → Nat
  | .idle => 0
  | .lock _ => 3
  | .check _ => 2
  | .emplace _ => 8
  | .signal _ => 2
  | .unlock _ | .refuse => 1

def Pc.rank : Pc κ → Nat
  | .user e => e.rank
  | .test => 4
  | .wait => 5
  | .get .serve .lock => 8
  | .get .serve .take => 7
  | .get .drain .lock => 3
  | .get .drain .take => 2
  | .get .serve (.reset _) => 7
  | .get .drain (.reset _) => 6
  | .get .serve (.unlock _) => 6
  | .get .drain (.unlock (some _)) => 5
  | .get .drain (.unlock none) => 1
  | .callback .serve _ e => 5 + e.rank
  | .callback .drain _ e => 4 + e.rank
  | .finished => 0

def ShutdownPc.rank (n : Nat) : ShutdownPc → Nat
  | .notCalled => n + 3
  | .signal => n + 2
  | .waitThreads i => n - i + 1
  | .returned => 0

def rank [Fintype P] (s : Pool n P κ σ) : Nat :=
  ∑ t, (s.pc t).rank + 5 * s.items.length + s.shutdownPc.rank n

theorem rank_setEnqueue {p : Pc κ} {e : EnqueuePc κ} (h : p.enqueue = some e) (e' : EnqueuePc κ) :
    (p.setEnqueue e').rank + e.rank = p.rank + e'.rank := by
  cases p with
  | user u =>
    cases h
    simp only [Pc.setEnqueue, Pc.rank]
    omega
  | callback m x u =>
    cases h
    cases m <;> simp only [Pc.setEnqueue, Pc.rank] <;> omega
  | _ => cases h

theorem rank_enqueueItem {t : Thread n P} {d d' : PoolData n P κ σ} {e e' : EnqueuePc κ} (hf : d.pendingShutdown = true)
    (h : enqueueItem t d e = some (d', e')) : e'.rank + 5 * d'.items.length + 1 ≤ e.rank + 5 * d.items.length := by
  cases e with
  | idle => cases h
  | lock c =>
    simp only [enqueueItem] at h
    split at h
    · cases h
      simp only [EnqueuePc.rank]
      omega
    · cases h
  | check c =>
    cases h
    simp only [hf, ite_true, EnqueuePc.rank]
    omega
  | emplace c =>
    cases h
    simp only [EnqueuePc.rank, List.length_append, List.length_singleton]
    omega
  | signal x =>
    cases h
    have : (if d.items.length = 1 then { d with itemEnqueued := true } else d).items = d.items := by split <;> rfl
    rw [this]
    simp only [EnqueuePc.rank]
    omega
  | unlock x =>
    cases h
    simp only [EnqueuePc.rank]
    omega
  | refuse =>
    cases h
    simp only [EnqueuePc.rank]
    omega

theorem rank_doWork {t : Thread n P} {d d' : PoolData n P κ σ} {p q : Pc κ} (hf : d.pendingShutdown = true)
    (h : doWork exec t d p = some (d', q)) : q.rank + 5 * d'.items.length + 1 ≤ p.rank + 5 * d.items.length := by
  cases p with
  | user e => cases h
  | test =>
    cases h
    simp only [hf, ite_true, Pc.rank]
    omega
  | get m g =>
    cases g with
    | lock =>
      simp only [doWork, getWorkerItem] at h
      split at h
      · cases h
        cases m <;> simp only [Pc.rank] <;> omega
      · cases h
    | take =>
      simp only [doWork, getWorkerItem] at h
      split at h
      · cases h
        cases m <;> simp only [Pc.rank] <;> omega
      · rename_i x xs hi
        cases h
        rw [hi, List.length_cons]
        cases m <;> simp only [Pc.rank] <;> omega
    | reset x =>
      cases h
      have : (if d.items.isEmpty then { d with itemEnqueued := false } else d).items = d.items := by split <;> rfl
      rw [this]
      cases m <;> simp only [Pc.rank] <;> omega
    | unlock r =>
      cases h
      cases m <;> cases r <;> simp only [Loop.afterGet, Pc.rank, EnqueuePc.rank] <;> omega
  | callback m x e =>
    cases e with
    | idle =>
      cases h
      cases m <;> simp only [Loop.afterCallback, Pc.rank, EnqueuePc.rank] <;> omega
    | _ => cases h
  | wait =>
    simp only [doWork] at h
    split at h
    · cases h
      simp only [Pc.rank]
      omega
    · cases h
  | finished => cases h

theorem rank_move [DecidableEq P] [Fintype P] {t : Thread n P} {d' : PoolData n P κ σ} {q : Pc κ} {k : Nat}
    (h : q.rank + 5 * d'.items.length + 1 ≤ (s.pc t).rank + 5 * s.items.length + k) :
    rank (s.move t (d', q)) + 1 ≤ rank s + k := by
  have hsum := sum_update Pc.rank s.pc t q
  simp only [rank, move_data, move_pc]
  have hsh : (s.move t (d', q)).shutdownPc = s.shutdownPc := rfl
  rw [hsh]
  omega

theorem rank_shutdown [Fintype P] (hc : s.shutdownPc ≠ .notCalled) (hret : s.shutdownPc ≠ .returned)
    (hm : ShutdownMoves s s') : rank s' + 1 ≤ rank s := by
  cases hm with
  | call h => exact absurd h (by simp [hc, hret])
  | signal h =>
    simp only [rank, h, ShutdownPc.rank]
    omega
  | join w h _ =>
    have := w.isLt
    simp only [rank, h, ShutdownPc.rank]
    omega
  | skip w h _ =>
    have := w.isLt
    simp only [rank, h, ShutdownPc.rank]
    omega
  | @done i h hi =>
    simp only [rank, h, ShutdownPc.rank]
    omega

/-- A step takes one from the rank, up to four that a new call of `EnqueueItem` adds. -/
theorem rank_step [DecidableEq P] [Fintype P] {a : Act n P κ} (hf : s.pendingShutdown = true)
    (hc : s.shutdownPc ≠ .notCalled) (hret : s.shutdownPc ≠ .returned) (hs : step exec s a = some s') :
    rank s' + 1 ≤ rank s + if a.isCall then 4 else 0 := by
  cases a with
  | call t c =>
    simp only [step] at hs
    split at hs
    · rename_i hp
      cases hs
      apply rank_move
      have := rank_setEnqueue hp (.lock c)
      simp only [EnqueuePc.rank] at this
      simp only [Act.isCall, ite_true]
      omega
    · cases hs
  | enqueue t =>
    simp only [step, Option.bind_eq_some_iff, Option.map_eq_some_iff] at hs
    obtain ⟨e, hp, ⟨d', e'⟩, he, rfl⟩ := hs
    apply rank_move
    have hle := rank_enqueueItem hf he
    have := rank_setEnqueue hp e'
    simp only [Act.isCall]
    omega
  | work w =>
    simp only [step, Option.map_eq_some_iff] at hs
    obtain ⟨⟨d', q⟩, hw, rfl⟩ := hs
    exact rank_move (rank_doWork hf hw)
  | shutdown => exact rank_shutdown hc hret (shutdown_moves hs)

/-! ## Somebody can go on -/

section
variable [DecidableEq P]

theorem isUser_worker {v : Fin n} (hr : (pool n P exec shared).Reachable s) : (s.pc (.worker v)).isUser = false := by
  refine hr.invariant (I := fun s => (s.pc (.worker v)).isUser = false) ?_ ?_
  · intro s hs
    subst hs
    rfl
  · intro s a s' hI hs
    rcases step_cases hs with ⟨t, d', q, hm, rfl⟩ | hm
    · by_cases ht : t = .worker v
      · subst ht
        rw [move_pc, Function.update_self]
        generalize s.pc (.worker v) = p at hI hm
        cases hm with
        | test => rfl
        | @getUnlock m r => cases m <;> cases r <;> rfl
        | @callback m x => cases m <;> rfl
        | getLock _ => rfl
        | takeNone _ => rfl
        | takeSome _ => rfl
        | reset => rfl
        | wait _ => rfl
        | _ => simpa using hI
      · simpa [Ne.symm ht] using hI
    · cases hm <;> exact hI

/-- The owner of the lock is never made to wait. -/
theorem owner_steps (h : Inv exec shared s) {t : Thread n P} (hl : s.itemsLock = some t) :
    ∃ a, a.isCall = false ∧ (step exec s a).isSome := by
  have hh := (h.mutex t).mpr hl
  have call : ∀ e : EnqueuePc κ, (s.pc t).enqueue = some e → e.holds = true → (step exec s (.enqueue t)).isSome := by
    intro e he ho
    simp only [step, he, Option.bind_some, Option.isSome_map]
    cases e <;> first | rfl | cases ho
  cases hp : s.pc t with
  | user e => exact ⟨.enqueue t, rfl, call e (by rw [hp]; rfl) (by rwa [hp] at hh)⟩
  | callback m x e => exact ⟨.enqueue t, rfl, call e (by rw [hp]; rfl) (by rwa [hp] at hh)⟩
  | get m g =>
    obtain ⟨v, rfl⟩ := h.items.worker (t := t) (by rw [hp]; rfl)
    refine ⟨.work v, rfl, ?_⟩
    rw [hp] at hh
    simp only [step, hp, Option.isSome_map]
    cases g with
    | lock => cases hh
    | take =>
      simp only [doWork, getWorkerItem, Option.isSome_map]
      split <;> rfl
    | reset x => rfl
    | unlock r => rfl
  | _ =>
    rw [hp] at hh
    cases hh

/-- A worker that `Shutdown` waits for goes on, or waits for the owner of the lock. -/
theorem worker_steps (h : Inv exec shared s) {w : Fin n} (hu : (s.pc (.worker w)).isUser = false)
    (hf : (s.pc (.worker w)).isFinished = false) (ht : s.terminationSignaled = true) (hl : s.itemsLock = none) :
    ∃ a, a.isCall = false ∧ (step exec s a).isSome := by
  cases hp : s.pc (.worker w) with
  | user e =>
    rw [hp] at hu
    cases hu
  | finished =>
    rw [hp] at hf
    cases hf
  | test => exact ⟨.work w, rfl, by simp [step, hp, doWork]⟩
  | wait => exact ⟨.work w, rfl, by simp [step, hp, doWork, ht]⟩
  | get m g =>
    refine ⟨.work w, rfl, ?_⟩
    simp only [step, hp, Option.isSome_map, doWork]
    cases g with
    | lock => simp [getWorkerItem, hl]
    | take =>
      simp only [getWorkerItem]
      split <;> rfl
    | reset x => rfl
    | unlock r => rfl
  | callback m x e =>
    cases e with
    | idle => exact ⟨.work w, rfl, by simp [step, hp, doWork]⟩
    | lock c => exact ⟨.enqueue (.worker w), rfl, by simp [step, hp, Pc.enqueue, enqueueItem, hl]⟩
    | _ =>
      have := (h.mutex (.worker w)).mp (by rw [hp]; rfl)
      rw [hl] at this
      cases this

theorem somebody_steps (hr : (pool n P exec shared).Reachable s) (hc : s.shutdownPc ≠ .notCalled)
    (hret : s.shutdownPc ≠ .returned) : ∃ a, a.isCall = false ∧ (step exec s a).isSome := by
  have h := inv_reachable hr
  cases hp : s.shutdownPc with
  | notCalled => exact absurd hp hc
  | returned => exact absurd hp hret
  | signal => exact ⟨.shutdown, rfl, by simp [step, shutdown, hp]⟩
  | waitThreads i =>
    by_cases hi : i < n
    · cases hth : s.threads ⟨i, hi⟩ with
      | false => exact ⟨.shutdown, rfl, by simp [step, shutdown, hp, hi, hth]⟩
      | true =>
        cases hf : (s.pc (.worker ⟨i, hi⟩)).isFinished with
        | true => exact ⟨.shutdown, rfl, by simp [step, shutdown, hp, hi, hth, hf]⟩
        | false =>
          cases hl : s.itemsLock with
          | some t => exact owner_steps h hl
          | none => exact worker_steps h (isUser_worker hr) hf (h.closing.signaled _ hp) hl
    · exact ⟨.shutdown, rfl, by simp [step, shutdown, hp, hi]⟩

theorem shutdownPc_step {a : Act n P κ} (hc : s.shutdownPc ≠ .notCalled) (hs : step exec s a = some s') :
    s'.shutdownPc ≠ .notCalled := by
  rcases step_cases hs with ⟨t, d', q, _, rfl⟩ | hm
  · exact hc
  · cases hm <;> simp

omit [DecidableEq P] in
theorem rank_le [Fintype P] : rank s ≤ 13 * (n + Fintype.card P) + 5 * s.items.length + n + 3 := by
  have hpc : ∀ p : Pc κ, p.rank ≤ 13 := by
    have he : ∀ e : EnqueuePc κ, e.rank ≤ 8 := fun e => by cases e <;> simp [EnqueuePc.rank]
    intro p
    cases p with
    | user e =>
      have := he e
      simp only [Pc.rank]
      omega
    | callback m x e =>
      have := he e
      cases m <;> simp only [Pc.rank] <;> omega
    | get m g =>
      cases g with
      | unlock r => cases m <;> cases r <;> simp [Pc.rank]
      | _ => cases m <;> simp [Pc.rank]
    | _ => simp [Pc.rank]
  have hcard : Fintype.card (Thread n P) = n + Fintype.card P := by
    rw [Fintype.card_congr (threadEquiv n P).symm, Fintype.card_sum, Fintype.card_fin]
  have hsum : ∑ t, (s.pc t).rank ≤ (n + Fintype.card P) * 13 := by
    have := Finset.sum_le_card_nsmul Finset.univ (fun t => (s.pc t).rank) 13 fun t _ => hpc _
    rwa [Finset.card_univ, hcard, nsmul_eq_mul, Nat.cast_id] at this
  have hsh : s.shutdownPc.rank n ≤ n + 3 := by
    cases s.shutdownPc <;> simp only [ShutdownPc.rank] <;> omega
  unfold rank
  omega

/-- **Shutdown returns.** From a state in which `Shutdown` was called, whatever
the schedule, the threads can take a bounded number of steps before it returns,
four more for every further call of `EnqueueItem`; and until it returns some
thread can go on without such a call. -/
theorem shutdown_returns [Fintype P] (exec : κ → σ → σ) (shared : σ) (s : Pool n P κ σ)
    (hr : (pool n P exec shared).Reachable s) (hc : s.shutdownPc ≠ .notCalled) (as : List (Act n P κ)) (t : Pool n P κ σ)
    (hrun : (pool n P exec shared).exec (fun u _ => u.shutdownPc ≠ .returned) s as = some t) :
    as.length ≤ 13 * (n + Fintype.card P) + 5 * s.items.length + n + 3 + 4 * as.countP Act.isCall ∧
    (t.shutdownPc ≠ .returned → ∃ a, a.isCall = false ∧ (step exec t a).isSome) := by
  have hI : ∀ (u : Pool n P κ σ) a v, ((pool n P exec shared).Reachable u ∧ u.shutdownPc ≠ .notCalled) →
      u.shutdownPc ≠ .returned → step exec u a = some v →
      (pool n P exec shared).Reachable v ∧ v.shutdownPc ≠ .notCalled :=
    fun u a v hu _ hs => ⟨hu.1.next trivial hs, shutdownPc_step hu.2 hs⟩
  constructor
  · have hlen : rank t + as.length ≤ rank s + (as.map fun a => if a.isCall then 4 else 0).sum :=
      System.exec_length_le hI
        (fun u a v hu hret hs => rank_step ((inv_reachable hu.1).closing.flag hu.2) hu.2 hret hs) as ⟨hr, hc⟩ hrun
    have hcost : (as.map fun a => if a.isCall then 4 else 0).sum = 4 * as.countP Act.isCall := by
      clear hlen hrun
      induction as with
      | nil => rfl
      | cons a as ih =>
        rw [List.map_cons, List.sum_cons, ih, List.countP_cons]
        split <;> omega
    have := rank_le (s := s)
    omega
  · intro hret
    have ht := (System.path_of_exec as hrun).keeps hI ⟨hr, hc⟩
    exact somebody_steps ht.1 ht.2 hret

/-- A worker waits, a producer is about to push, and `Shutdown` has set the flag. -/
def closingRun : List (Act 1 Unit Nat) := windowRun.dropLast ++ [.shutdown]

def closingEnd : Pool 1 Unit Nat Nat :=
  ((pool 1 Unit (· + ·) 0).exec (fun _ _ => True) (start 0) closingRun).get (by decide)

/-- The push and one more call of `EnqueueItem`, which is refused. -/
def refusedRun : List (Act 1 Unit Nat) :=
  .replicate 3 (.enqueue (.producer ())) ++ [.call (.producer ()) 7] ++ .replicate 3 (.enqueue (.producer ()))

def refusedEnd : Pool 1 Unit Nat Nat :=
  ((pool 1 Unit (· + ·) 0).exec (fun s _ => s.shutdownPc ≠ .returned) closingEnd refusedRun).get (by decide)

theorem shutdown_returns_refused : refusedRun.length ≤ 34 ∧ ∃ a, a.isCall = false ∧ (step (· + ·) refusedEnd a).isSome := by
  have hr : (pool 1 Unit (· + ·) 0).Reachable closingEnd := System.reach_of_exec rfl closingRun (Option.some_get _).symm
  have h := shutdown_returns (· + ·) 0 closingEnd hr (by decide) refusedRun refusedEnd (Option.some_get _).symm
  exact ⟨h.1, h.2 (by decide)⟩

end

end Dmsk.ThreadPool
