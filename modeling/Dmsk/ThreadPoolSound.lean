import Dmsk.Counting
import Dmsk.ThreadPoolLock

/-!
# The pool runs every accepted item once

The queue is first in, first out; an item that was popped is in a worker's
hand until its callback has returned. A worker that has found the queue empty
while draining it did so under the lock and after `pendingShutdown` was set,
so no producer can still be between its check of the flag and its push
(`Closed`). `Shutdown` returns once every worker has come that far.
-/

namespace Dmsk.ThreadPool

variable {n : Nat} {P κ σ : Type} [DecidableEq P] {exec : κ → σ → σ} {s s' : Pool n P κ σ}

/-! ## Items -/

theorem update_worker (f : Thread n P → Pc κ) (v : Fin n) (q : Pc κ) :
    (fun w => Function.update f (.worker v) q (.worker w)) = Function.update (fun w => f (.worker w)) v q := by
  funext w
  by_cases hw : w = v
  · subst hw; simp
  · simp [hw]

def hands (s : Pool n P κ σ) : Multiset (ThreadWorkerItem κ) := ∑ w, (s.pc (.worker w)).hand

/-- The history fields and the queue agree. -/
structure Items (exec : κ → σ → σ) (shared : σ) (s : Pool n P κ σ) : Prop where
  fifo : s.accepted = s.dequeued ++ s.items
  ids : s.accepted.map (·.id) = List.range s.accepted.length
  flow : (s.dequeued : Multiset (ThreadWorkerItem κ)) = s.executed + hands s
  producers : ∀ p, (s.pc (.producer p)).isUser = true
  pushed : ∀ u x, (s.pc u).pushed = some x → x ∈ s.accepted
  returned : ∀ x ∈ s.returned, x ∈ s.accepted
  shared_eq : s.shared = s.executed.foldl (fun st x => exec x.callback st) shared

theorem hands_same {t : Thread n P} {d' : PoolData n P κ σ} {q : Pc κ} (hq : q.hand = (s.pc t).hand) :
    hands (s.move t (d', q)) = hands s := by
  cases t with
  | producer p => simp [hands]
  | worker v =>
    simp only [hands, move_pc]
    have := sum_update_same Pc.hand (fun w => s.pc (.worker w)) v q hq
    rwa [← update_worker] at this

theorem hands_move {v : Fin n} {d' : PoolData n P κ σ} {q : Pc κ} :
    hands (s.move (.worker v) (d', q)) + (s.pc (.worker v)).hand = hands s + q.hand := by
  simp only [hands, move_pc]
  have := sum_update Pc.hand (fun w => s.pc (.worker w)) v q
  rwa [← update_worker] at this

/-- A step that leaves the items where they are. -/
structure KeepsItems (d d' : PoolData n P κ σ) : Prop where
  items : d'.items = d.items := by rfl
  accepted : d'.accepted = d.accepted := by rfl
  dequeued : d'.dequeued = d.dequeued := by rfl
  executed : d'.executed = d.executed := by rfl
  shared : d'.shared = d.shared := by rfl

theorem items_frame {shared : σ} (h : Items exec shared s) {t : Thread n P} {d' : PoolData n P κ σ} {q : Pc κ}
    (hk : KeepsItems s.toPoolData d') (hr : ∀ x ∈ d'.returned, x ∈ s.accepted) (hq : q.hand = (s.pc t).hand)
    (hus : ∀ p, t = .producer p → q.isUser = true) (hpu : ∀ x, q.pushed = some x → x ∈ s.accepted) :
    Items exec shared (s.move t (d', q)) where
  fifo := by simp only [move_data, hk.items, hk.accepted, hk.dequeued, h.fifo]
  ids := by simp only [move_data, hk.accepted, h.ids]
  flow := by
    rw [hands_same hq]
    simp only [move_data, hk.dequeued, hk.executed, h.flow]
  producers p := by
    by_cases ht : t = .producer p
    · subst ht; simp [hus p rfl]
    · simp [Ne.symm ht, h.producers]
  pushed u x hx := by
    simp only [move_data, hk.accepted]
    by_cases hu : u = t
    · subst hu; exact hpu x (by simpa using hx)
    · exact h.pushed u x (by simpa [hu] using hx)
  returned x hx := by simp only [move_data, hk.accepted]; exact hr x hx
  shared_eq := by simp only [move_data, hk.shared, hk.executed, h.shared_eq]

omit [DecidableEq P] in
/-- Only a worker is at a position of `DoWork`. -/
theorem Items.worker {shared : σ} (h : Items exec shared s) {t : Thread n P} (ht : (s.pc t).isUser = false) :
    ∃ v, t = .worker v := by
  cases t with
  | worker v => exact ⟨v, rfl⟩
  | producer r =>
    rw [h.producers r] at ht
    cases ht

omit [DecidableEq P] in
theorem Items.isUser_setEnqueue {shared : σ} (h : Items exec shared s) {t : Thread n P} {p : Pc κ} (hp : s.pc t = p)
    (e : EnqueuePc κ) : ∀ r, t = .producer r → (p.setEnqueue e).isUser = true := by
  rintro r rfl
  rw [ThreadPool.isUser_setEnqueue, ← hp, h.producers r]

/-- A step of `EnqueueItem` besides the push. -/
theorem items_enqueue {shared : σ} (h : Items exec shared s) {t : Thread n P} {d' : PoolData n P κ σ} {p : Pc κ}
    {e e' : EnqueuePc κ} (hp : s.pc t = p) (he : p.enqueue = some e) (hk : KeepsItems s.toPoolData d')
    (hr : ∀ x ∈ d'.returned, x ∈ s.accepted) (hpu : ∀ x, e'.pushed = some x → x ∈ s.accepted) :
    Items exec shared (s.move t (d', p.setEnqueue e')) := by
  refine items_frame h hk hr (by simp [hp]) (h.isUser_setEnqueue hp e') ?_
  rw [pushed_setEnqueue he]
  exact hpu

/-- A step of `DoWork` with the same item in hand. -/
theorem items_doWork {shared : σ} (h : Items exec shared s) {v : Fin n} {d' : PoolData n P κ σ} {p q : Pc κ}
    (hp : s.pc (.worker v) = p) (hk : KeepsItems s.toPoolData d') (hr : d'.returned = s.returned) (hq : q.hand = p.hand)
    (hpu : q.pushed = none) : Items exec shared (s.move (.worker v) (d', q)) := by
  refine items_frame h hk (fun x hx => h.returned x (hr ▸ hx)) (hp ▸ hq) nofun fun x hx => ?_
  rw [hpu] at hx
  cases hx

theorem items_flow {shared : σ} (h : Items exec shared s) {v : Fin n} {d' : PoolData n P κ σ} {q : Pc κ}
    (hfi : d'.accepted = d'.dequeued ++ d'.items) (ha : d'.accepted = s.accepted)
    (hf : (d'.dequeued : Multiset (ThreadWorkerItem κ)) + s.executed + (s.pc (.worker v)).hand =
      s.dequeued + d'.executed + q.hand)
    (hpu : q.pushed = none) (hr : d'.returned = s.returned)
    (hs : d'.shared = d'.executed.foldl (fun st x => exec x.callback st) shared) :
    Items exec shared (s.move (.worker v) (d', q)) where
  fifo := hfi
  ids := by simp only [move_data, ha, h.ids]
  flow := by
    have hm : hands (s.move (.worker v) (d', q)) + (s.pc (.worker v)).hand = hands s + q.hand := hands_move
    simp only [move_data]
    apply add_left_cancel (a := ↑s.executed + (s.pc (.worker v)).hand)
    calc (↑s.executed + (s.pc (.worker v)).hand) + ↑d'.dequeued
        = ↑d'.dequeued + ↑s.executed + (s.pc (.worker v)).hand := by ac_rfl
      _ = ↑s.dequeued + ↑d'.executed + q.hand := hf
      _ = ↑s.executed + ↑d'.executed + (hands s + q.hand) := by rw [h.flow]; ac_rfl
      _ = ↑s.executed + ↑d'.executed + (hands (s.move (.worker v) (d', q)) + (s.pc (.worker v)).hand) := by rw [hm]
      _ = _ := by ac_rfl
  producers p := by simp [h.producers]
  pushed u x hx := by
    simp only [move_data, ha]
    by_cases hu : u = .worker v
    · subst hu
      rw [move_pc, Function.update_self, hpu] at hx
      cases hx
    · exact h.pushed u x (by simpa [hu] using hx)
  returned x hx := by simp only [move_data, ha]; exact h.returned x (by simpa [hr] using hx)
  shared_eq := hs

theorem items_emplace {shared : σ} (h : Items exec shared s) {t : Thread n P} {p : Pc κ} {c : κ}
    {x : ThreadWorkerItem κ} (hp : s.pc t = p) (he : p.enqueue = some (.emplace c)) (hx : x = ⟨s.accepted.length, c⟩) :
    Items exec shared
      (s.move t ({ s.toPoolData with items := s.items ++ [x], accepted := s.accepted ++ [x] }, p.setEnqueue (.signal x))) where
  fifo := by simp [h.fifo]
  ids := by simp [h.ids, hx, List.range_succ]
  flow := by
    rw [hands_same (by simp [hp])]
    exact h.flow
  producers r := by
    by_cases ht : t = .producer r
    · subst ht; simpa using h.isUser_setEnqueue hp (.signal x) r rfl
    · simp [Ne.symm ht, h.producers]
  pushed u y hy := by
    simp only [move_data]
    by_cases hu : u = t
    · subst hu
      rw [move_pc, Function.update_self, pushed_setEnqueue he] at hy
      cases hy
      simp
    · exact List.mem_append_left _ (h.pushed u y (by simpa [hu] using hy))
  returned y hy := List.mem_append_left _ (h.returned y hy)
  shared_eq := h.shared_eq

theorem items_moves {shared : σ} (h : Items exec shared s) {t : Thread n P} {d' : PoolData n P κ σ} {p q : Pc κ}
    (hp : s.pc t = p) (hm : Moves exec t s.toPoolData p d' q) : Items exec shared (s.move t (d', q)) := by
  have hpu := h.pushed t
  rw [hp] at hpu
  have hw : p.isUser = false → ∃ v, t = .worker v := fun hf => h.worker (hp ▸ hf)
  cases hm with
  | call he => exact items_enqueue h hp he {} h.returned nofun
  | lock he _ => exact items_enqueue h hp he {} h.returned nofun
  | check he =>
    refine items_enqueue h hp he {} h.returned ?_
    split <;> nofun
  | emplace x he hx => exact items_emplace h hp he hx
  | signal he =>
    rw [pushed_enqueue he] at hpu
    split <;> exact items_enqueue h hp he {} h.returned hpu
  | @unlock _ x he =>
    rw [pushed_enqueue he] at hpu
    refine items_enqueue h hp he {} ?_ nofun
    intro y hy
    rcases List.mem_append.mp hy with hy | hy
    · exact h.returned y hy
    · rw [List.mem_singleton.mp hy]; exact hpu x rfl
  | refuse he => exact items_enqueue h hp he {} h.returned nofun
  | test =>
    obtain ⟨v, rfl⟩ := hw rfl
    exact items_doWork h hp {} rfl rfl rfl
  | getLock _ =>
    obtain ⟨v, rfl⟩ := hw rfl
    exact items_doWork h hp {} rfl rfl rfl
  | takeNone _ =>
    obtain ⟨v, rfl⟩ := hw rfl
    exact items_doWork h hp {} rfl rfl rfl
  | @takeSome m x xs hi =>
    obtain ⟨v, rfl⟩ := hw rfl
    refine items_flow h ?_ rfl ?_ rfl rfl h.shared_eq
    · simp [h.fifo, hi]
    · rw [hp]
      simp only [Pc.hand, ← Multiset.coe_add, Multiset.coe_singleton, add_zero]
      ac_rfl
  | reset =>
    obtain ⟨v, rfl⟩ := hw rfl
    split <;> exact items_doWork h hp {} rfl rfl rfl
  | @getUnlock m r =>
    obtain ⟨v, rfl⟩ := hw rfl
    refine items_doWork h hp {} rfl ?_ ?_
    · cases m <;> cases r <;> rfl
    · cases m <;> cases r <;> rfl
  | @callback m x =>
    obtain ⟨v, rfl⟩ := hw rfl
    refine items_flow h h.fifo rfl ?_ ?_ rfl ?_
    · rw [hp]
      cases m <;> simp only [Pc.hand, Loop.afterCallback, ← Multiset.coe_add, Multiset.coe_singleton, add_zero] <;> ac_rfl
    · cases m <;> rfl
    · simp [List.foldl_append, h.shared_eq]
  | wait _ =>
    obtain ⟨v, rfl⟩ := hw rfl
    exact items_doWork h hp {} rfl rfl rfl

omit [DecidableEq P] in
theorem items_start (shared : σ) : Items exec shared (start shared : Pool n P κ σ) where
  fifo := rfl
  ids := rfl
  flow := by simp [hands, start, Pc.hand]
  producers _ := rfl
  pushed u x hx := by cases u <;> cases hx
  returned _ hx := by cases hx
  shared_eq := rfl

/-! ## Closing -/

section
variable {t : Thread n P} {d d' : PoolData n P κ σ} {p q : Pc κ}

omit [DecidableEq P]

theorem moves_flags (hm : Moves exec t d p d' q) :
    d'.pendingShutdown = d.pendingShutdown ∧ d'.terminationSignaled = d.terminationSignaled := by
  cases hm with
  | signal => split <;> exact ⟨rfl, rfl⟩
  | reset => split <;> exact ⟨rfl, rfl⟩
  | _ => exact ⟨rfl, rfl⟩

theorem moves_items (hm : Moves exec t d p d' q) (hi : d.items = []) (hp : p.passed = false) : d'.items = [] := by
  cases hm with
  | emplace x he _ =>
    rw [passed_enqueue he] at hp
    cases hp
  | takeSome h => rw [hi] at h; cases h
  | signal => split <;> exact hi
  | reset => split <;> exact hi
  | _ => exact hi

theorem moves_passed (hm : Moves exec t d p d' q) (hq : q.passed = true) : d.pendingShutdown = false := by
  cases hm with
  | check he =>
    rw [passed_setEnqueue he] at hq
    split at hq
    · cases hq
    · rename_i hf; simpa using hf
  | call he => rw [passed_setEnqueue he] at hq; cases hq
  | lock he => rw [passed_setEnqueue he] at hq; cases hq
  | emplace _ he => rw [passed_setEnqueue he] at hq; cases hq
  | signal he => rw [passed_setEnqueue he] at hq; cases hq
  | unlock he => rw [passed_setEnqueue he] at hq; cases hq
  | refuse he => rw [passed_setEnqueue he] at hq; cases hq
  | @getUnlock m r => cases m <;> cases r <;> cases hq
  | @callback m x => cases m <;> cases hq
  | _ => cases hq

theorem moves_draining (hm : Moves exec t d p d' q) (hq : q.draining = true) :
    p.draining = true ∨ d.pendingShutdown = true := by
  cases hm with
  | test =>
    right
    cases hf : d.pendingShutdown
    · simp [hf, Pc.draining] at hq
    · rfl
  | @getLock m => left; cases m <;> exact hq
  | @takeNone m => left; cases m <;> exact hq
  | @takeSome m => left; cases m <;> exact hq
  | @reset m => left; cases m <;> exact hq
  | @getUnlock m r =>
    left
    cases m with
    | drain => rfl
    | serve => cases r <;> cases hq
  | @callback m x =>
    left
    cases m with
    | drain => rfl
    | serve => cases hq
  | wait => cases hq
  | _ => left; simpa using hq

theorem moves_closed (hm : Moves exec t d p d' q) (hq : q.closed = true) :
    p.closed = true ∨ (d.items = [] ∧ p.holds = true ∧ p.passed = false) := by
  cases hm with
  | takeNone hi => exact .inr ⟨hi, rfl, rfl⟩
  | test => split at hq <;> cases hq
  | @getLock m => cases m <;> cases hq
  | @takeSome m => cases m <;> cases hq
  | @reset m => cases m <;> cases hq
  | @getUnlock m r =>
    cases m with
    | serve => cases r <;> cases hq
    | drain =>
      cases r with
      | some x => cases hq
      | none => exact .inl rfl
  | @callback m => cases m <;> cases hq
  | wait => cases hq
  | _ => left; simpa using hq

theorem moves_unfinished (hm : Moves exec t d p d' q) : p.isFinished = false := by
  cases hm with
  | call he => exact isFinished_enqueue he
  | lock he => exact isFinished_enqueue he
  | check he => exact isFinished_enqueue he
  | emplace _ he => exact isFinished_enqueue he
  | signal he => exact isFinished_enqueue he
  | unlock he => exact isFinished_enqueue he
  | refuse he => exact isFinished_enqueue he
  | _ => rfl

end

/-- Where the threads and `Shutdown` are relative to the flag and the handles. -/
structure Closing (s : Pool n P κ σ) : Prop where
  flag : s.shutdownPc ≠ .notCalled → s.pendingShutdown = true
  draining : ∀ u, (s.pc u).draining = true → s.pendingShutdown = true
  closed : ∀ u, (s.pc u).closed = true → s.items = [] ∧ ∀ v, (s.pc v).passed = false
  joined : ∀ w, s.threads w = false → (s.pc (.worker w)).isFinished = true
  waited : ∀ i, s.shutdownPc = .waitThreads i → ∀ w : Fin n, w < i → s.threads w = false
  done : s.shutdownPc = .returned → ∀ w, s.threads w = false
  signaled : ∀ i, s.shutdownPc = .waitThreads i → s.terminationSignaled = true

theorem draining_of_closed {p : Pc κ} (h : p.closed = true) : p.draining = true := by
  cases p with
  | get m g => cases m <;> first | rfl | cases h
  | finished => rfl
  | _ => cases h

theorem closed_of_finished {p : Pc κ} (h : p.isFinished = true) : p.closed = true := by
  cases p <;> first | rfl | cases h

theorem holds_of_passed {p : Pc κ} (h : p.passed = true) : p.holds = true := by
  cases p with
  | user e => cases e <;> first | rfl | cases h
  | callback m x e => cases e <;> first | rfl | cases h
  | _ => cases h

/-- Whoever is closed after a step was so before, or found the queue empty under
the lock; nobody was between its check of the flag and its push. -/
theorem closing_before {t u : Thread n P} {d' : PoolData n P κ σ} {p q : Pc κ} (hx : Mutex s) (h : Closing s)
    (hp : s.pc t = p) (hm : Moves exec t s.toPoolData p d' q) (hu : ((s.move t (d', q)).pc u).closed = true) :
    s.items = [] ∧ s.pendingShutdown = true ∧ ∀ v, (s.pc v).passed = false := by
  have old : ∀ v, (s.pc v).closed = true → s.items = [] ∧ s.pendingShutdown = true ∧ ∀ v, (s.pc v).passed = false :=
    fun v hv => ⟨(h.closed v hv).1, h.draining v (draining_of_closed hv), (h.closed v hv).2⟩
  by_cases hut : u = t
  · subst hut
    rw [move_pc, Function.update_self] at hu
    rcases moves_closed hm hu with hc | ⟨hi, hh, hpp⟩
    · exact old u (by rw [hp]; exact hc)
    · refine ⟨hi, ?_, ?_⟩
      · rcases moves_draining hm (draining_of_closed hu) with hd | hd
        · exact h.draining u (by rw [hp]; exact hd)
        · exact hd
      · intro v
        rw [← hp] at hh hpp
        cases hv : (s.pc v).passed with
        | false => rfl
        | true =>
          have := ((hx u).mp hh).symm.trans ((hx v).mp (holds_of_passed hv))
          rw [← Option.some.inj this, hpp] at hv
          cases hv
  · exact old u (by simpa [hut] using hu)

theorem closing_moves {t : Thread n P} {d' : PoolData n P κ σ} {p q : Pc κ} (hx : Mutex s) (h : Closing s)
    (hp : s.pc t = p) (hm : Moves exec t s.toPoolData p d' q) : Closing (s.move t (d', q)) where
  flag hs := (moves_flags hm).1.trans (h.flag hs)
  draining u hu := by
    apply (moves_flags hm).1.trans
    by_cases hut : u = t
    · subst hut
      rw [move_pc, Function.update_self] at hu
      rcases moves_draining hm hu with hd | hd
      · exact h.draining u (by rw [hp]; exact hd)
      · exact hd
    · exact h.draining u (by simpa [hut] using hu)
  closed u hu := by
    obtain ⟨hi, hf, hn⟩ := closing_before hx h hp hm hu
    refine ⟨moves_items hm hi (hp ▸ hn t), ?_⟩
    intro v
    by_cases hvt : v = t
    · subst hvt
      rw [move_pc, Function.update_self]
      cases hq : q.passed with
      | false => rfl
      | true => rw [moves_passed hm hq] at hf; cases hf
    · simpa [hvt] using hn v
  joined w hw := by
    have hf := h.joined w hw
    by_cases ht : t = .worker w
    · subst ht
      rw [hp, moves_unfinished hm] at hf
      cases hf
    · simpa [Ne.symm ht] using hf
  waited := h.waited
  done := h.done
  signaled i hi := (moves_flags hm).2.trans (h.signaled i hi)

omit [DecidableEq P] in
theorem closing_shutdown (h : Closing s) (hm : ShutdownMoves s s') : Closing s' := by
  cases hm with
  | call _ => exact ⟨fun _ => rfl, fun _ _ => rfl, h.closed, h.joined, nofun, nofun, nofun⟩
  | signal hp => exact ⟨fun _ => h.flag (by rw [hp]; nofun), h.draining, h.closed, h.joined, fun _ e w hw => by
      cases e; exact absurd hw (Nat.not_lt_zero _), nofun, fun _ _ => rfl⟩
  | join w hp hf =>
    refine ⟨fun _ => h.flag (by rw [hp]; nofun), h.draining, h.closed, fun v hv => ?_, fun _ e v hv => ?_, nofun,
      fun _ _ => h.signaled _ hp⟩
    · by_cases hvw : v = w
      · subst hvw; exact hf
      · exact h.joined v (by simpa [hvw] using hv)
    · cases e
      by_cases hvw : v = w
      · simp [hvw]
      · have : v.val ≠ w.val := fun e => hvw (Fin.ext e)
        simpa [hvw] using h.waited w hp v (by omega)
  | skip w hp ht =>
    refine ⟨fun _ => h.flag (by rw [hp]; nofun), h.draining, h.closed, h.joined, fun _ e v hv => ?_, nofun,
      fun _ _ => h.signaled _ hp⟩
    cases e
    by_cases hvw : v = w
    · subst hvw; exact ht
    · have : v.val ≠ w.val := fun e => hvw (Fin.ext e)
      exact h.waited w hp v (by omega)
  | done hp hi =>
    exact ⟨fun _ => h.flag (by rw [hp]; nofun), h.draining, h.closed, h.joined, nofun, fun _ w =>
      h.waited _ hp w (Nat.lt_of_lt_of_le w.isLt hi), nofun⟩

omit [DecidableEq P] in
theorem closing_start (shared : σ) : Closing (start shared : Pool n P κ σ) where
  flag h := absurd rfl h
  draining u hu := by cases u <;> cases hu
  closed u hu := by cases u <;> cases hu
  joined _ hw := by cases hw
  waited _ h := by cases h
  done h := by cases h
  signaled _ h := by cases h

/-! ## Every reachable state -/

structure Inv (exec : κ → σ → σ) (shared : σ) (s : Pool n P κ σ) : Prop where
  mutex : Mutex s
  event : EventOk s
  items : Items exec shared s
  closing : Closing s

theorem inv_step {shared : σ} {a : Act n P κ} (h : Inv exec shared s) (hs : step exec s a = some s') :
    Inv exec shared s' := by
  rcases step_cases hs with ⟨t, d', q, hm, rfl⟩ | hm
  · exact ⟨mutex_moves h.mutex rfl hm, event_moves h.mutex h.event rfl hm, items_moves h.items rfl hm,
      closing_moves h.mutex h.closing rfl hm⟩
  · have hc := closing_shutdown h.closing hm
    obtain ⟨hx, he, hi, -⟩ := h
    cases hm <;> exact ⟨hx, he, ⟨hi.1, hi.2, hi.3, hi.4, hi.5, hi.6, hi.7⟩, hc⟩

theorem inv_reachable {shared : σ} (h : (pool n P exec shared).Reachable s) : Inv exec shared s := by
  refine h.invariant (I := Inv exec shared) ?_ fun s a s' hI hs => inv_step (a := a) hI hs
  intro s hs
  subst hs
  exact ⟨mutex_start shared, event_start shared, items_start shared, closing_start shared⟩

/-! ## Exactly once -/

/-- A step of a call of `EnqueueItem` by `t` that ends in its exception. -/
def Refusing (s : Pool n P κ σ) (t : Thread n P) : Prop :=
  match (s.pc t).enqueue with
  | some (.lock _) | some .refuse => True
  | some (.check _) => s.pendingShutdown = true
  | _ => False

theorem refusing_step {t : Thread n P} (hr : Refusing s t) (hs : step exec s (.enqueue t) = some s') :
    s'.items = s.items ∧ s'.itemEnqueued = s.itemEnqueued ∧ s'.terminationSignaled = s.terminationSignaled ∧
      s'.accepted = s.accepted := by
  simp only [step, Option.bind_eq_some_iff, Option.map_eq_some_iff] at hs
  obtain ⟨e, he, ⟨d', e'⟩, hd, rfl⟩ := hs
  unfold Refusing at hr
  rw [he] at hr
  cases e with
  | lock c =>
    simp only [enqueueItem] at hd
    split at hd <;> cases hd
    exact ⟨rfl, rfl, rfl, rfl⟩
  | check c => cases hd; exact ⟨rfl, rfl, rfl, rfl⟩
  | refuse => cases hd; exact ⟨rfl, rfl, rfl, rfl⟩
  | _ => cases hr

theorem accepted_stays {shared : σ} {w : Fin n} {a : Act n P κ} (h : Inv exec shared s)
    (hw : (s.pc (.worker w)).isFinished = true) (hs : step exec s a = some s') :
    (s'.pc (.worker w)).isFinished = true ∧ s'.accepted = s.accepted := by
  have hn := (h.closing.closed _ (closed_of_finished hw)).2
  rcases step_cases hs with ⟨t, d', q, hm, rfl⟩ | hm
  · constructor
    · by_cases ht : t = .worker w
      · subst ht
        rw [moves_unfinished hm] at hw
        cases hw
      · simpa [Ne.symm ht] using hw
    · generalize hp : s.pc t = p at hm
      cases hm with
      | emplace x he _ =>
        have := hn t
        rw [hp, passed_enqueue he] at this
        cases this
      | signal => simp only [move_data]; split <;> rfl
      | reset => simp only [move_data]; split <;> rfl
      | _ => rfl
  · cases hm <;> exact ⟨hw, rfl⟩

section
variable {shared : σ}

omit [DecidableEq P] in
theorem Inv.finished_of_returned (h : Inv exec shared s) (hret : s.shutdownPc = .returned) (w : Fin n) :
    (s.pc (.worker w)).isFinished = true := h.closing.joined w (h.closing.done hret w)

omit [DecidableEq P] in
theorem Inv.items_of_returned (h : Inv exec shared s) (hn : 0 < n) (hret : s.shutdownPc = .returned) :
    s.items = [] := (h.closing.closed (.worker ⟨0, hn⟩) (closed_of_finished (h.finished_of_returned hret _))).1

omit [DecidableEq P] in
theorem Inv.executed_perm (h : Inv exec shared s) (hn : 0 < n) (hret : s.shutdownPc = .returned) :
    s.executed.Perm s.accepted := by
  have hhands : hands s = 0 := by
    apply Finset.sum_eq_zero
    intro w _
    have := h.finished_of_returned hret w
    cases hp : s.pc (.worker w) <;> rw [hp] at this <;> first | rfl | cases this
  have hf := h.items.flow
  rw [hhands, add_zero] at hf
  rw [h.items.fifo, h.items_of_returned hn hret, List.append_nil]
  exact (Multiset.coe_eq_coe.mp hf).symm

end

/-- **Exactly once.** What was pushed was popped or is still queued, in that
order; the shared state is what the callbacks that were run have made of it; a
refused call changes nothing; and when `Shutdown` has returned, every pushed
item has been run once, the queue is empty and stays closed. -/
theorem accepted_run_once (hn : 0 < n) (exec : κ → σ → σ) (shared : σ) (s : Pool n P κ σ)
    (hr : (pool n P exec shared).Reachable s) :
    s.accepted = s.dequeued ++ s.items ∧
    s.shared = s.executed.foldl (fun st x => exec x.callback st) shared ∧
    (∀ t s', Refusing s t → step exec s (.enqueue t) = some s' →
      s'.items = s.items ∧ s'.itemEnqueued = s.itemEnqueued ∧ s'.terminationSignaled = s.terminationSignaled ∧
        s'.accepted = s.accepted) ∧
    (s.shutdownPc = .returned →
      s.items = [] ∧ s.executed.Nodup ∧ s.executed.Perm s.accepted ∧ (∀ x ∈ s.returned, x ∈ s.executed) ∧
        ∀ s', (pool n P exec shared).Path (fun _ _ => True) s s' → s'.accepted = s.accepted) := by
  have h := inv_reachable hr
  refine ⟨h.items.fifo, h.items.shared_eq, fun t s' => refusing_step, ?_⟩
  intro hret
  have hempty := h.items_of_returned hn hret
  have hperm := h.executed_perm hn hret
  refine ⟨hempty, hperm.nodup_iff.mpr ?_, hperm, fun x hx => hperm.mem_iff.mpr (h.items.returned x hx), ?_⟩
  · exact List.Nodup.of_map (·.id) (h.items.ids ▸ List.nodup_range)
  · intro s' hp
    have keep := hp.keeps (I := fun u => (pool n P exec shared).Reachable u ∧
      (u.pc (.worker ⟨0, hn⟩)).isFinished = true ∧ u.accepted = s.accepted)
      (fun u a v ⟨hu, hw, ha⟩ _ hs => by
        obtain ⟨hw', ha'⟩ := accepted_stays (a := a) (inv_reachable hu) hw hs
        exact ⟨hu.next trivial hs, hw', ha'.trans ha⟩)
      ⟨hr, h.finished_of_returned hret _, rfl⟩
    exact keep.2.2

/-- One worker and one producer: an item is enqueued, run, and `Shutdown` returns. -/
def shortRun : List (Act 1 Unit Nat) :=
  [.call (.producer ()) 5, .enqueue (.producer ()), .enqueue (.producer ()), .enqueue (.producer ()),
   .enqueue (.producer ()), .enqueue (.producer ()), .work 0, .work 0, .work 0, .work 0, .work 0, .work 0,
   .shutdown, .shutdown, .work 0, .work 0, .work 0, .work 0, .shutdown, .shutdown]

def shortEnd : Pool 1 Unit Nat Nat :=
  ((pool 1 Unit (· + ·) 0).exec (fun _ _ => True) (start 0) shortRun).get (by decide)

theorem accepted_run_once_short : shortEnd.accepted = [⟨0, 5⟩] ∧ shortEnd.executed = [⟨0, 5⟩] ∧
    shortEnd.shared = shortEnd.executed.foldl (fun st x => x.callback + st) 0 ∧ shortEnd.items = [] ∧
    ∀ s', (pool 1 Unit (· + ·) 0).Path (fun _ _ => True) shortEnd s' → s'.accepted = [⟨0, 5⟩] := by
  have hr := System.reach_of_exec (S := pool 1 Unit (· + ·) 0) (s := shortEnd) rfl shortRun (Option.some_get _).symm
  obtain ⟨-, hshared, -, hreturned⟩ := accepted_run_once Nat.one_pos (· + ·) 0 shortEnd hr
  have h := hreturned (by decide)
  exact ⟨by decide, by decide, hshared, h.1, h.2.2.2.2⟩

/-! ## No lost wake-up -/

/-- Worker `w` is in `WaitForMultipleObjects` and neither event is signalled. -/
def Blocked (s : Pool n P κ σ) (w : Fin n) : Prop :=
  (match s.pc (.worker w) with | .wait => True | _ => False) ∧
    s.terminationSignaled = false ∧ s.itemEnqueued = false

def Awaits (s : Pool n P κ σ) (w : Fin n) : Prop := s.shutdownPc = .waitThreads w ∧ s.threads w = true

/-- An owner whose position says that the event lags behind a non-empty queue is
about to signal it. -/
theorem signal_of_event {p : Pc κ} {items : List (ThreadWorkerItem κ)} (hi : items ≠ []) (hp : p.event items = false) :
    items.length = 1 ∧ ∃ x, p.enqueue = some (.signal x) := by
  have hlen : 0 < items.length := List.length_pos_of_ne_nil hi
  have key : ∀ e : EnqueuePc κ, e.event items = false → items.length = 1 ∧ ∃ x, e = .signal x := fun e he => by
    cases e with
    | signal x => exact ⟨by simp [EnqueuePc.event] at he; omega, x, rfl⟩
    | _ => simp [EnqueuePc.event, hi] at he
  cases p with
  | user e =>
    obtain ⟨hl, x, rfl⟩ := key e hp
    exact ⟨hl, x, rfl⟩
  | callback m y e =>
    obtain ⟨hl, x, rfl⟩ := key e hp
    exact ⟨hl, x, rfl⟩
  | get m g => cases g <;> simp [Pc.event, hi] at hp
  | _ => simp [Pc.event, hi] at hp

/-- **No lost wake-up.** Outside the critical sections the event says whether the
queue is non-empty. A worker is blocked while the queue holds an item only from
a push onto the empty queue to the `SetEvent` of the same critical section,
which ends the wait; and `Shutdown` never waits for a blocked worker. -/
theorem no_lost_wakeup (exec : κ → σ → σ) (shared : σ) (s : Pool n P κ σ) (hr : (pool n P exec shared).Reachable s) :
    (s.itemsLock = none → (s.itemEnqueued = true ↔ s.items ≠ []) ∧ ∀ w, Blocked s w → s.items = []) ∧
    (∀ w, Blocked s w → s.items ≠ [] → ∃ t x s', s.itemsLock = some t ∧ (s.pc t).enqueue = some (.signal x) ∧
      s.items.length = 1 ∧ step exec s (.enqueue t) = some s' ∧ ∀ v, ¬ Blocked s' v) ∧
    (∀ w, Awaits s w → ¬ Blocked s w) := by
  have h := inv_reachable hr
  have hev := h.event
  unfold EventOk at hev
  refine ⟨?_, ?_, ?_⟩
  · intro hl
    rw [hl] at hev
    refine ⟨by rw [hev]; simp, ?_⟩
    intro w hb
    rw [hb.2.2] at hev
    simpa using hev.symm
  · intro w hb hi
    cases hl : s.itemsLock with
    | none =>
      rw [hl, hb.2.2] at hev
      exact absurd (by simpa using hev.symm) hi
    | some t =>
      rw [hl, hb.2.2] at hev
      obtain ⟨hlen, x, hx⟩ := signal_of_event hi hev.symm
      refine ⟨t, x, s.move t ({ s.toPoolData with itemEnqueued := true }, (s.pc t).setEnqueue (.unlock x)), rfl, hx,
        hlen, ?_, ?_⟩
      · simp [step, hx, enqueueItem, hlen]
      · intro v hv
        cases hv.2.2
  · intro w ha hb
    have := h.closing.signaled _ ha.1
    rw [hb.2.1] at this
    cases this

/-- The worker finds the queue empty and waits; the producer has pushed and not signalled yet. -/
def windowRun : List (Act 1 Unit Nat) :=
  [.work 0, .work 0, .work 0, .work 0, .call (.producer ()) 5, .enqueue (.producer ()), .enqueue (.producer ()),
   .enqueue (.producer ())]

def windowEnd : Pool 1 Unit Nat Nat :=
  ((pool 1 Unit (· + ·) 0).exec (fun _ _ => True) (start 0) windowRun).get (by decide)

theorem windowEnd_reachable : (pool 1 Unit (· + ·) 0).Reachable windowEnd :=
  System.reach_of_exec rfl windowRun (Option.some_get _).symm

theorem windowEnd_blocked : Blocked windowEnd 0 := ⟨trivial, by decide, by decide⟩

/-- Inside that window a worker is blocked while the queue holds an item. -/
theorem blocked_in_window : ¬ ∀ s, (pool 1 Unit (· + ·) 0).Reachable s → ∀ w, Blocked s w → s.items = [] := by
  intro h
  exact absurd (h _ windowEnd_reachable 0 windowEnd_blocked) (by decide)

theorem no_lost_wakeup_window : ∃ t x s', windowEnd.itemsLock = some t ∧
    (windowEnd.pc t).enqueue = some (.signal x) ∧ windowEnd.items.length = 1 ∧
      step (· + ·) windowEnd (.enqueue t) = some s' ∧ ∀ v, ¬ Blocked s' v :=
  (no_lost_wakeup (· + ·) 0 windowEnd windowEnd_reachable).2.1 0 windowEnd_blocked (by decide)

end Dmsk.ThreadPool
