import Mathlib.Algebra.Order.BigOperators.Group.Finset
import Mathlib.Data.Nat.Cast.Basic
import Mathlib.Data.Multiset.UnionInter
import Dmsk.ThreadPoolSchedule

/-!
# The order of the callbacks

The workers take the items in the order of `EnqueueItem` and finish them in
another one. An item is overtaken only by those that the other workers take
while it is in a worker's hand, so at any callback fewer earlier items than
there are workers are still to be finished. One worker keeps the order.
-/

namespace Dmsk.ThreadPool

variable {n : Nat} {P κ σ : Type} {exec : κ → σ → σ} {shared : σ} {s s' : Pool n P κ σ}

/-! ## What the workers hold -/

theorem card_hand_le (p : Pc κ) : p.hand.card ≤ 1 := by
  cases p with
  | get m g =>
    cases g with
    | unlock r => cases r <;> simp [Pc.hand]
    | _ => simp [Pc.hand]
  | _ => simp [Pc.hand]

theorem card_hands_le (s : Pool n P κ σ) : (hands s).card ≤ n := by
  have := Finset.sum_le_card_nsmul Finset.univ (fun w : Fin n => (s.pc (.worker w)).hand.card) 1 fun w _ => card_hand_le _
  rw [Finset.card_univ, Fintype.card_fin, nsmul_eq_mul, mul_one, Nat.cast_id] at this
  unfold hands
  rwa [Multiset.card_sum]

section
variable (h : Items exec shared s)
include h

theorem Items.dequeued_ids : s.dequeued.map (·.id) = List.range s.dequeued.length := by
  have := h.ids
  rw [h.fifo, List.map_append, List.length_append, List.range_add] at this
  exact (List.append_inj this (by simp)).1

theorem Items.getElem?_id {x : ThreadWorkerItem κ} (hx : x ∈ s.accepted) : s.accepted[x.id]? = some x := by
  obtain ⟨k, hk, rfl⟩ := List.getElem_of_mem hx
  have : (s.accepted.map (·.id))[k]? = some k := by rw [h.ids, List.getElem?_range hk]
  rw [List.getElem?_map, List.getElem?_eq_getElem hk] at this
  rw [show s.accepted[k].id = k from Option.some.inj this, List.getElem?_eq_getElem hk]

theorem Items.mem_dequeued {x : ThreadWorkerItem κ} (hx : x ∈ s.executed) : x ∈ s.dequeued := by
  rw [← Multiset.mem_coe, h.flow]
  exact Multiset.mem_add.mpr (.inl hx)

theorem Items.executed_nodup : (s.executed.map (·.id)).Nodup := by
  have hd : ((s.dequeued : Multiset (ThreadWorkerItem κ)).map (·.id)).Nodup := by
    rw [Multiset.map_coe, h.dequeued_ids]
    exact List.nodup_range
  rw [h.flow, Multiset.map_add] at hd
  exact Multiset.coe_nodup.mp (Multiset.nodup_of_le (Multiset.le_add_right _ _) hd)

/-- What was taken off the queue and not run is in a hand. -/
theorem Items.mem_hands {k : Nat} (hk : k < s.dequeued.length) (he : k ∉ s.executed.map (·.id)) :
    k ∈ (hands s).map (·.id) := by
  have : k ∈ (s.dequeued : Multiset (ThreadWorkerItem κ)).map (·.id) := by
    rw [Multiset.map_coe, h.dequeued_ids]
    exact List.mem_range.mpr hk
  rw [h.flow, Multiset.map_add, Multiset.mem_add] at this
  exact this.resolve_left he

end

/-- The earlier items that are still to be finished when an item is run. -/
def pendingBefore (l : List (ThreadWorkerItem κ)) (k : Nat) : List Nat := (List.range k).filter (· ∉ l.map (·.id))

theorem pendingBefore_callback (h : Items exec shared s) {v : Fin n} {m : Loop} {x : ThreadWorkerItem κ} {e : EnqueuePc κ}
    (hp : s.pc (.worker v) = .callback m x e) : (pendingBefore s.executed x.id).length < n := by
  have hx : x ∈ hands s := by
    unfold hands
    exact Multiset.mem_sum.mpr ⟨v, Finset.mem_univ v, by simp [hp, Pc.hand]⟩
  have hlt : x.id < s.dequeued.length := by
    have : x ∈ s.dequeued := by
      rw [← Multiset.mem_coe, h.flow]
      exact Multiset.mem_add.mpr (.inr hx)
    have := List.mem_map_of_mem this (f := (·.id))
    rw [h.dequeued_ids] at this
    exact List.mem_range.mp this
  have hle : ((x.id :: pendingBefore s.executed x.id : List Nat) : Multiset Nat) ≤ (hands s).map (·.id) := by
    apply (Multiset.le_iff_subset _).mpr
    · intro k hk
      rcases List.mem_cons.mp hk with rfl | hk
      · exact Multiset.mem_map_of_mem _ hx
      · obtain ⟨hr, hn⟩ := List.mem_filter.mp hk
        have := List.mem_range.mp hr
        exact h.mem_hands (by omega) (by simpa using hn)
    · apply Multiset.coe_nodup.mpr
      apply List.nodup_cons.mpr
      constructor
      · intro hm
        exact absurd (List.mem_range.mp (List.mem_filter.mp hm).1) (Nat.lt_irrefl _)
      · exact List.nodup_range.filter _
  have := Multiset.card_le_card hle
  rw [Multiset.card_map, Multiset.coe_card, List.length_cons] at this
  exact Nat.lt_of_lt_of_le this (card_hands_le s)

/-! ## Overtaking -/

def Overtakes (s : Pool n P κ σ) : Prop :=
  ∀ l x r, s.executed = l ++ x :: r → (pendingBefore l x.id).length < n

section
variable [DecidableEq P]

theorem overtakes_moves {t : Thread n P} {d' : PoolData n P κ σ} {p q : Pc κ} (h : Items exec shared s) (ho : Overtakes s)
    (hp : s.pc t = p) (hm : Moves exec t s.toPoolData p d' q) : Overtakes (s.move t (d', q)) := by
  cases hm with
  | @callback m x =>
    obtain ⟨v, rfl⟩ := h.worker (t := t) (by rw [hp]; rfl)
    intro l y r hy
    simp only [move_data] at hy
    rcases List.append_eq_append_iff.mp hy with ⟨l', hl, hr⟩ | ⟨r', hl, hr⟩
    · cases l' with
      | nil =>
        rw [List.nil_append] at hr
        cases hr
        rw [List.append_nil] at hl
        subst hl
        exact pendingBefore_callback h hp
      | cons z zs => simp at hr
    · cases r' with
      | nil =>
        rw [List.nil_append] at hr
        cases hr
        rw [List.append_nil] at hl
        rw [← hl]
        exact pendingBefore_callback h hp
      | cons z zs =>
        rw [List.cons_append] at hr
        injection hr with hz hr
        subst hz
        exact ho l y zs hl
  | signal =>
    intro l y r hy
    apply ho l y r
    simp only [move_data] at hy
    split at hy <;> exact hy
  | reset =>
    intro l y r hy
    apply ho l y r
    simp only [move_data] at hy
    split at hy <;> exact hy
  | _ => exact ho

theorem overtakes_reachable (hr : (pool n P exec shared).Reachable s) : Overtakes s := by
  refine (hr.invariant (I := fun s => Inv exec shared s ∧ Overtakes s) ?_ ?_).2
  · intro s hs
    subst hs
    refine ⟨⟨mutex_start shared, event_start shared, items_start shared, closing_start shared⟩, ?_⟩
    intro l x r hx
    simp [start] at hx
  · rintro s a s' ⟨hI, ho⟩ hs
    refine ⟨inv_step (a := a) hI hs, ?_⟩
    rcases step_cases hs with ⟨t, d', q, hm, rfl⟩ | hm
    · exact overtakes_moves hI.items ho rfl hm
    · cases hm <;> exact ho

end

/-- With nothing left to overtake, the items are run in order. -/
theorem executed_ids (h : Items exec shared s) (ho : Overtakes s) (hn : n = 1) :
    ∀ l r, s.executed = l ++ r → l.map (·.id) = List.range l.length := by
  intro l
  induction l using List.reverseRecOn with
  | nil => simp
  | append_singleton l x ih =>
    intro r hr
    rw [List.append_assoc] at hr
    have hl := ih _ hr
    have hempty : pendingBefore l x.id = [] := by
      have := ho l x r hr
      rw [hn] at this
      exact List.length_eq_zero_iff.mp (by omega)
    have hle : x.id ≤ l.length := by
      refine Nat.le_of_not_lt fun hlt => ?_
      have : l.length ∈ pendingBefore l x.id := List.mem_filter.mpr ⟨List.mem_range.mpr hlt, by simp [hl]⟩
      rw [hempty] at this
      cases this
    have hge : l.length ≤ x.id := by
      refine Nat.le_of_not_lt fun hlt => ?_
      have hnd := h.executed_nodup
      rw [hr, List.map_append, List.singleton_append, List.map_cons] at hnd
      exact (List.nodup_append.mp hnd).2.2 x.id (hl ▸ List.mem_range.mpr hlt) x.id (List.mem_cons_self) rfl
    simp [hl, List.range_succ, Nat.le_antisymm hle hge]

theorem executed_isPrefix (h : Items exec shared s) (ho : Overtakes s) (hn : n = 1) : s.executed <+: s.accepted := by
  have hid := executed_ids h ho hn s.executed [] (by simp)
  rw [List.prefix_iff_getElem?]
  intro i hi
  have hx := List.getElem_mem hi
  have hk : (s.executed.map (·.id))[i]? = some i := by rw [hid, List.getElem?_range hi]
  rw [List.getElem?_map, List.getElem?_eq_getElem hi] at hk
  have hacc : s.executed[i] ∈ s.accepted := by
    rw [h.fifo]
    exact List.mem_append_left _ (h.mem_dequeued hx)
  have := h.getElem?_id hacc
  rwa [show s.executed[i].id = i from Option.some.inj hk] at this

/-- **Bounded overtaking.** An item's `id` is its place in the order of
`EnqueueItem`. When a callback has run, fewer earlier items than there are
workers had not been finished before it. A pool of one worker runs the callbacks
in that order, and leaves what running them one after the other leaves. -/
theorem overtaking_bounded [DecidableEq P] (exec : κ → σ → σ) (shared : σ) (s : Pool n P κ σ)
    (hr : (pool n P exec shared).Reachable s) :
    (∀ l x r, s.executed = l ++ x :: r → s.accepted[x.id]? = some x ∧
      ((s.accepted.take x.id).filter fun y => y.id ∉ l.map (·.id)).length < n) ∧
    (n = 1 → s.executed <+: s.accepted ∧ s.shared = runInOrder exec ((callbacks s).take s.executed.length) shared) := by
  have h := (inv_reachable hr).items
  have ho := overtakes_reachable hr
  constructor
  · intro l x r hx
    have hacc : x ∈ s.accepted := by
      rw [h.fifo]
      exact List.mem_append_left _ (h.mem_dequeued (by simp [hx]))
    have hk := h.getElem?_id hacc
    refine ⟨hk, ?_⟩
    have hids : (s.accepted.take x.id).map (·.id) = List.range x.id := by
      obtain ⟨hlt, -⟩ := List.getElem?_eq_some_iff.mp hk
      rw [List.map_take, h.ids, List.take_range, Nat.min_eq_left (Nat.le_of_lt hlt)]
    have := ho l x r hx
    rwa [pendingBefore, ← hids, List.filter_map, List.length_map] at this
  · intro hn
    have hpre := executed_isPrefix h ho hn
    refine ⟨hpre, ?_⟩
    rw [h.shared_eq, runInOrder, callbacks, ← List.map_take, ← List.prefix_iff_eq_take.mp hpre, List.foldl_map]

theorem overtaking_bounded_two_workers : twoWorkersEnd.accepted[1]? = some ⟨1, 1⟩ ∧
    ((twoWorkersEnd.accepted.take 1).filter fun y => y.id ∉ ([] : List (ThreadWorkerItem Nat)).map (·.id)).length < 2 :=
  (overtaking_bounded square [3, 4] twoWorkersEnd (System.reach_of_exec rfl twoWorkersRun (Option.some_get _).symm)).1
    [] ⟨1, 1⟩ [⟨0, 0⟩] (by decide)

end Dmsk.ThreadPool
