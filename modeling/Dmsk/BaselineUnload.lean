import Dmsk.BaselineRuns
import Dmsk.Progress
import Mathlib.Algebra.Group.Action.Defs
import Mathlib.Algebra.Order.Group.Nat
import Mathlib.Algebra.Order.BigOperators.Group.List

/-!
# One baseline per load

What holds of the baseline at every moment, and that `DriverUnload` gets to the
end. The lock is always held by somebody who is inside it, so the handlers that
`DriverUnload` waits for go on until they have finished.
-/

namespace Dmsk.Baseline

variable {w : ℕ} {m : NtModule w}

/-! ## The steps that are left -/

def Pc.rank : Pc w → ℕ
  | .lock _ => 8
  | .check _ => 7
  | .create _ => 6
  | .install _ _ => 5
  | .unlock _ => 4
  | .test _ => 3
  | .load _ => 2
  | .compare _ _ => 1
  | .noBaseline | .decided | .fault => 0

def Unload.rank : Unload → ℕ
  | .loaded => 5
  | .removing => 4
  | .removed => 3
  | .locked => 2
  | .uninitialized => 1
  | .unloaded => 0

theorem Unload.rank_le {u : Unload} (h : u ≠ .loaded) : u.rank ≤ 4 := by
  cases u
  case loaded => exact absurd rfl h
  all_goals decide

def State.rank (s : State w) : ℕ := (s.handlers.map Pc.rank).sum + s.unload.rank

section
variable {s s' : State w} {g : Stage} {i : ℕ} {pc pc' : Pc w}

/-- What a step of a handler does to its position, to the pointer and to the lock. -/
structure Moves (s s' : State w) (i : ℕ) (pc pc' : Pc w) : Prop where
  handlers : s'.handlers = s.handlers.set i pc' := by rfl
  unload : s'.unload = s.unload := by rfl
  baseline : (∀ stacktrace object, pc ≠ .install stacktrace object) →
    s'.processCreateGoodStackTrace = s.processCreateGoodStackTrace := by exact fun _ => rfl
  rank : pc'.rank < pc.rank
  lock : s'.lock = s.lock ∧ (pc.critical = true → pc'.critical = true) ∨ s'.lock = none ∨
    s'.lock = some (.handler i) ∧ pc'.critical = true

theorem handlerStep_moves {captured : Option (Frames w)} (hs : s.handlerStep m i captured pc = some s') :
    ∃ pc', Moves s s' i pc pc' := by
  cases pc with
  | lock stacktrace =>
    simp only [State.handlerStep] at hs
    split at hs <;> cases hs
    exact ⟨.check stacktrace, { rank := Nat.lt_succ_self 7, lock := .inr (.inr ⟨rfl, rfl⟩) }⟩
  | check stacktrace =>
    cases hs
    refine ⟨_, { rank := ?_, lock := .inl ⟨rfl, fun _ => ?_⟩ }⟩
    · split <;> simp only [Pc.rank] <;> omega
    · split <;> rfl
  | create stacktrace =>
    cases captured <;> cases hs <;>
      exact ⟨.install stacktrace _, { rank := Nat.lt_succ_self 5, lock := .inl ⟨rfl, fun _ => rfl⟩ }⟩
  | install stacktrace object =>
    cases hs
    exact ⟨.unlock stacktrace, { baseline := fun hne => absurd rfl (hne _ _), rank := Nat.lt_succ_self 4,
                                 lock := .inl ⟨rfl, fun _ => rfl⟩ }⟩
  | unlock stacktrace =>
    cases hs
    exact ⟨.test stacktrace, { rank := Nat.lt_succ_self 3, lock := .inr (.inl rfl) }⟩
  | test stacktrace =>
    cases hs
    refine ⟨_, { rank := ?_, lock := .inl ⟨rfl, fun hc => by cases hc⟩ }⟩
    split <;> simp only [Pc.rank] <;> omega
  | load stacktrace =>
    cases hs
    exact ⟨.compare stacktrace _, { rank := Nat.lt_succ_self 1, lock := .inl ⟨rfl, fun hc => by cases hc⟩ }⟩
  | compare stacktrace object =>
    have hnot : ∀ pc' : Pc w, (Pc.compare stacktrace object).critical = true → pc'.critical = true := by
      intro pc' hc
      cases hc
    simp only [State.handlerStep] at hs
    split at hs
    · split at hs
      · cases hs
        split
        · exact ⟨.decided, { rank := Nat.one_pos, lock := .inl ⟨rfl, hnot _⟩ }⟩
        · exact ⟨.fault, { rank := Nat.one_pos, lock := .inl ⟨rfl, hnot _⟩ }⟩
      · cases hs
        exact ⟨.fault, { rank := Nat.one_pos, lock := .inl ⟨rfl, hnot _⟩ }⟩
    · cases hs
      exact ⟨.fault, { rank := Nat.one_pos, lock := .inl ⟨rfl, hnot _⟩ }⟩
  | noBaseline | decided | fault => cases hs

theorem rank_unloadStep (hs : s.unloadStep = some s') : s'.handlers = s.handlers ∧ s'.unload.rank + 1 = s.unload.rank := by
  rcases unloadStep_cases hs with ⟨hu, rfl⟩ | ⟨hu, -, rfl⟩ | ⟨hu, -, rfl⟩ | ⟨hu, rfl⟩ | ⟨hu, rfl⟩ <;> rw [hu]
  case inr.inr.inr.inl =>
    unfold State.uninitBaseline
    split <;> exact ⟨rfl, rfl⟩
  all_goals exact ⟨rfl, rfl⟩

/-- No handler starts once the unload has begun, and every step lowers the rank. -/
theorem rank_step {a : Act w} (hl : s.unload ≠ .loaded) (hs : s.step m a = some s') :
    s'.unload ≠ .loaded ∧ s'.rank + 1 ≤ s.rank := by
  cases a with
  | threadCreate frames =>
    rw [State.step, if_neg hl] at hs
    cases hs
  | handler i captured =>
    obtain ⟨pc, hpc, hs⟩ := Option.bind_eq_some_iff.mp hs
    obtain ⟨pc', hm⟩ := handlerStep_moves hs
    have hsum := System.sum_map_set Pc.rank hpc pc'
    have hrank := hm.rank
    rw [← hm.handlers] at hsum
    refine ⟨hm.unload ▸ hl, ?_⟩
    unfold State.rank
    rw [hm.unload]
    omega
  | unload =>
    obtain ⟨hh, hrank⟩ := rank_unloadStep hs
    have hle := Unload.rank_le hl
    constructor
    · intro hu
      rw [hu, Unload.rank] at hrank
      omega
    · unfold State.rank
      rw [hh]
      omega

theorem rank_le (hl : s.unload ≠ .loaded) : s.rank ≤ 8 * s.handlers.length + 4 := by
  have hsum : (s.handlers.map Pc.rank).sum ≤ s.handlers.length * 8 := by
    have hle : ∀ r ∈ s.handlers.map Pc.rank, r ≤ 8 := by
      intro r hr
      obtain ⟨pc, -, rfl⟩ := List.mem_map.mp hr
      cases pc <;> simp [Pc.rank]
    have := List.sum_le_card_nsmul _ 8 hle
    rwa [List.length_map, smul_eq_mul] at this
  have := Unload.rank_le hl
  unfold State.rank
  omega

/-! ## Who holds the lock -/

structure Held (s : State w) : Prop where
  handler : ∀ i : ℕ, s.lock = some (.handler i) → ∃ pc, s.handlers[i]? = some pc ∧ pc.critical = true
  unload : s.lock = some .unload → s.unload = .locked ∨ s.unload = .uninitialized

theorem Held.free (h : s.lock = none) : Held s where
  handler i hi := by
    rw [h] at hi
    cases hi
  unload hu := by
    rw [h] at hu
    cases hu

theorem Held.moves (h : Held s) (hpc : s.handlers[i]? = some pc) (hm : Moves s s' i pc pc') : Held s' := by
  have hset : s'.handlers[i]? = some pc' := by
    rw [hm.handlers]
    exact getElem?_goto hpc
  rcases hm.lock with ⟨hl, hc⟩ | hl | ⟨hl, hc⟩
  · refine ⟨?_, by rw [hl, hm.unload]; exact h.unload⟩
    intro j hj
    rw [hl] at hj
    obtain ⟨pcj, hpcj, hcj⟩ := h.handler j hj
    by_cases hji : j = i
    · subst hji
      obtain rfl : pc = pcj := Option.some.inj (hpc.symm.trans hpcj)
      exact ⟨pc', hset, hc hcj⟩
    · refine ⟨pcj, ?_, hcj⟩
      rw [hm.handlers, List.getElem?_set_ne (Ne.symm hji)]
      exact hpcj
  · exact .free hl
  · constructor
    · intro j hj
      rw [hl] at hj
      cases hj
      exact ⟨pc', hset, hc⟩
    · intro hu
      rw [hl] at hu
      cases hu

theorem Held.unloadStep (h : Held s) (hs : s.unloadStep = some s') : Held s' := by
  have hnot : s.unload ≠ .locked → s.unload ≠ .uninitialized → s.lock ≠ some .unload := by
    intro hne hne' hl
    rcases h.unload hl with hu | hu
    · exact hne hu
    · exact hne' hu
  rcases unloadStep_cases hs with ⟨hu, rfl⟩ | ⟨hu, -, rfl⟩ | ⟨-, -, rfl⟩ | ⟨-, rfl⟩ | ⟨-, rfl⟩
  · exact ⟨h.handler, fun hl => absurd hl (hnot (by simp [hu]) (by simp [hu]))⟩
  · exact ⟨h.handler, fun hl => absurd hl (hnot (by simp [hu]) (by simp [hu]))⟩
  · exact ⟨fun i hi => (nomatch hi), fun _ => .inl rfl⟩
  · unfold State.uninitBaseline
    split <;> exact ⟨h.handler, fun _ => .inr rfl⟩
  · exact .free rfl

theorem held_reachable (h : (driver m).Reachable s) : Held s := by
  refine System.Reachable.invariant (fun s hs => ?_) (fun s a s' hh hs => ?_) h
  · obtain rfl : s = {} := hs
    exact .free rfl
  cases a with
  | threadCreate frames =>
    change s.step m (.threadCreate frames) = some s' at hs
    simp only [State.step] at hs
    split at hs <;> cases hs
    refine ⟨?_, hh.unload⟩
    intro i hi
    obtain ⟨pc, hpc, hc⟩ := hh.handler i hi
    refine ⟨pc, ?_, hc⟩
    rw [List.getElem?_append_left (List.getElem?_eq_some_iff.mp hpc).1]
    exact hpc
  | handler i captured =>
    obtain ⟨pc, hpc, hs⟩ := Option.bind_eq_some_iff.mp hs
    obtain ⟨pc', hm⟩ := handlerStep_moves hs
    exact hh.moves hpc hm
  | unload => exact hh.unloadStep hs

/-! ## Somebody goes on -/

theorem handler_steps (hpc : s.handlers[i]? = some pc) (hf : pc.finished = false) (hl : s.lock = none ∨ pc.critical = true)
    (captured : Option (Frames w)) : (s.step m (.handler i captured)).isSome := by
  show (s.handlers[i]?.bind (s.handlerStep m i captured)).isSome
  rw [hpc, Option.bind_some]
  cases pc with
  | lock stacktrace =>
    have hfree : s.lock = none := hl.resolve_right fun hc => nomatch hc
    rw [State.handlerStep, if_pos hfree]
    rfl
  | create stacktrace => cases captured <;> rfl
  | compare stacktrace object =>
    simp only [State.handlerStep]
    split
    · split <;> rfl
    · rfl
  | check | install | unlock | test | load => rfl
  | noBaseline | decided | fault => cases hf

theorem Held.handlers_go_on (hh : Held s) (h : Inv s g) (hrun : ∃ pc ∈ s.handlers, pc.finished = false) :
    ∃ i, ∀ captured, (s.step m (.handler i captured)).isSome := by
  obtain ⟨pc, hmem, hf⟩ := hrun
  obtain ⟨i, hpc⟩ := List.mem_iff_getElem?.mp hmem
  cases hl : s.lock with
  | none => exact ⟨i, handler_steps hpc hf (.inl hl)⟩
  | some holder =>
    cases holder with
    | handler j =>
      obtain ⟨pcj, hj, hcj⟩ := hh.handler j hl
      refine ⟨j, handler_steps hj ?_ (.inr hcj)⟩
      by_contra hfj
      rw [Pc.critical_of_finished (by simpa using hfj)] at hcj
      cases hcj
    | unload =>
      -- `DriverUnload` takes the lock when all handlers have finished
      have hidle : s.Idle := by
        rcases hh.unload hl with hu | hu
        · exact h.idle (by simp [hu]) (by simp [hu])
        · exact h.idle (by simp [hu]) (by simp [hu])
      rw [hidle i pc hpc] at hf
      cases hf

theorem Held.unload_goes_on (hh : Held s) (hidle : ∀ pc ∈ s.handlers, pc.finished = true) (hu : s.unload ≠ .unloaded) :
    (s.step m .unload).isSome := by
  simp only [State.step, State.unloadStep]
  cases hpos : s.unload with
  | removing => simp only [if_pos (List.all_eq_true.mpr hidle), Option.isSome_some]
  | removed =>
    have hfree : s.lock = none := by
      cases hl : s.lock with
      | none => rfl
      | some holder =>
        cases holder with
        | handler j =>
          obtain ⟨pcj, hj, hcj⟩ := hh.handler j hl
          rw [Pc.critical_of_finished (hidle pcj (List.mem_of_getElem? hj))] at hcj
          cases hcj
        | unload =>
          have := hh.unload hl
          rw [hpos] at this
          rcases this with hp | hp <;> cases hp
    simp only [if_pos hfree, Option.isSome_some]
  | loaded | locked | uninitialized => rfl
  | unloaded => exact absurd hpos hu

end

/-! ## What holds at every moment -/

structure OneBaseline (m : NtModule w) (s : State w) : Prop where
  installedOnce : s.installed.length ≤ 1
  notReplaced : ∀ a t id, (driver m).step s a = some t → s.processCreateGoodStackTrace = some id →
    t.processCreateGoodStackTrace = some id ∨ s.unload = .locked ∧ a = .unload
  sameObject : ∀ d ∈ s.decisions, s.installed = [d.object] ∧
    ∃ o, s.objects[d.object]? = some o ∧ d.hollow = !o.trace.areNtTracesSame d.stacktrace
  allocated : ∀ (i : ℕ) (stacktrace : StackTrace w) (object : Option ℕ), s.handlers[i]? = some (.compare stacktrace object) →
    ∃ id o, object = some id ∧ s.installed = [id] ∧ s.objects[id]? = some o ∧ o.deletions = 0
  noFault : .fault ∉ s.handlers
  undecided : ∀ i : ℕ, s.handlers[i]? = some .noBaseline → ∀ d ∈ s.decisions, d.handler ≠ i
  deletedAtMostOnce : ∀ o ∈ s.objects, o.deletions ≤ 1
  deletedOnce : s.unload = .unloaded → ∀ o ∈ s.objects, o.deletions = 1
  handlersGoOn : (∃ pc ∈ s.handlers, pc.finished = false) → ∃ i, ∀ captured, ((driver m).step s (.handler i captured)).isSome
  unloadGoesOn : (∀ pc ∈ s.handlers, pc.finished = true) → s.unload ≠ .unloaded → ((driver m).step s .unload).isSome
  /-- Once the unload has begun every run is short, and one that cannot go on has deleted the baseline. -/
  comes : s.unload ≠ .loaded → ∀ as t, (driver m).exec (fun _ _ => True) s as = some t →
    as.length ≤ 8 * s.handlers.length + 4 ∧
      ((∀ a, (driver m).step t a = none) → t.unload = .unloaded ∧ ∀ o ∈ t.objects, o.deletions = 1)

section
variable {s s' : State w} {g : Stage}

theorem Stage.At.installed_eq (h : g.At s) (hg : g = .installed ∨ g = .deleted) : s.installed = [0] := by
  rcases hg with rfl | rfl <;> exact h.2.1

theorem Stage.At.installed_le (h : g.At s) : s.installed.length ≤ 1 := by
  cases g with
  | absent | created i => rw [h.2.1]; exact Nat.zero_le _
  | installed | deleted => rw [h.2.1]; exact Nat.le_refl _

theorem Inv.step_baseline (h : Inv s g) {a : Act w} (hs : s.step m a = some s') {id : ℕ}
    (hb : s.processCreateGoodStackTrace = some id) :
    s'.processCreateGoodStackTrace = some id ∨ s.unload = .locked ∧ a = .unload := by
  cases a with
  | threadCreate frames =>
    simp only [State.step] at hs
    split at hs <;> cases hs
    exact .inl hb
  | handler i captured =>
    obtain ⟨pc, hpc, hs⟩ := Option.bind_eq_some_iff.mp hs
    obtain ⟨pc', hm⟩ := handlerStep_moves hs
    refine .inl ((hm.baseline ?_).trans hb)
    rintro stacktrace object rfl
    have hfits := h.fits i _ hpc
    rw [(h.stage.installed hb).1] at hfits
    cases object with
    | none => cases hfits
    | some id => cases hfits.2
  | unload =>
    rcases unloadStep_cases hs with ⟨-, rfl⟩ | ⟨-, -, rfl⟩ | ⟨-, -, rfl⟩ | ⟨hu, rfl⟩ | ⟨-, rfl⟩
    · exact .inl hb
    · exact .inl hb
    · exact .inl hb
    · exact .inr ⟨hu, rfl⟩
    · exact .inl hb

theorem Inv.deletedOnce (h : Inv s g) (hu : s.unload = .unloaded) : ∀ o ∈ s.objects, o.deletions = 1 := by
  intro o ho
  have hstage := h.stage
  rcases h.unloaded (.inr hu) with rfl | rfl
  · rw [hstage.1] at ho
    cases ho
  · obtain ⟨t, ht⟩ := hstage.1
    rw [ht, List.mem_singleton] at ho
    subst ho
    rfl

theorem unloaded_of_stuck (h : (driver m).Reachable s) (hstuck : ∀ a, (driver m).step s a = none) : s.unload = .unloaded := by
  obtain ⟨g, hg⟩ := inv_reachable h
  have hh := held_reachable h
  by_contra hu
  have hidle : ∀ pc ∈ s.handlers, pc.finished = true := by
    intro pc hpc
    by_contra hf
    obtain ⟨i, hi⟩ := hh.handlers_go_on (m := m) hg ⟨pc, hpc, by simpa using hf⟩
    have hnone : s.step m (.handler i none) = none := hstuck (.handler i none)
    simpa [hnone] using hi none
  have hnone : s.step m .unload = none := hstuck .unload
  simpa [hnone] using hh.unload_goes_on (m := m) hidle hu

theorem unload_comes (h : (driver m).Reachable s) (hu : s.unload ≠ .loaded) (as : List (Act w)) (t : State w)
    (hrun : (driver m).exec (fun _ _ => True) s as = some t) : as.length ≤ 8 * s.handlers.length + 4 ∧
      ((∀ a, (driver m).step t a = none) → t.unload = .unloaded ∧ ∀ o ∈ t.objects, o.deletions = 1) := by
  constructor
  · have hlen : t.rank + as.length ≤ s.rank + (as.map fun _ => 0).sum :=
      System.exec_length_le (I := fun u => u.unload ≠ .loaded) (fun _ _ _ hl _ hs => (rank_step hl hs).1)
        (fun _ _ _ hl _ hs => (rank_step hl hs).2) as hu hrun
    have hcost : (as.map fun _ : Act w => 0).sum = 0 := by simp
    have := rank_le hu
    omega
  · intro hstuck
    have ht : (driver m).Reachable t := by
      obtain ⟨s₀, h₀, hp⟩ := h
      exact ⟨s₀, h₀, hp.trans (System.path_of_exec as hrun)⟩
    obtain ⟨g, hg⟩ := inv_reachable ht
    have hend := unloaded_of_stuck ht hstuck
    exact ⟨hend, hg.deletedOnce hend⟩

theorem Inv.oneBaseline (h : Inv s g) (hr : (driver m).Reachable s) : OneBaseline m s where
  installedOnce := h.stage.installed_le
  notReplaced _ _ _ hs hb := h.step_baseline hs hb
  sameObject d hd := by
    obtain ⟨-, hg, hobject, o, ho, hhollow⟩ := h.decisions d hd
    rw [hobject]
    exact ⟨h.stage.installed_eq hg, o, ho, hhollow⟩
  allocated i stacktrace object hi := by
    obtain ⟨rfl, rfl⟩ : g = .installed ∧ object = some 0 := h.fits i _ hi
    obtain ⟨⟨t, ht⟩, hinstalled, -⟩ := h.stage
    exact ⟨0, ⟨t, 0⟩, rfl, hinstalled, by rw [ht]; rfl, rfl⟩
  noFault hf := by
    obtain ⟨i, hi⟩ := List.mem_iff_getElem?.mp hf
    exact h.fits i _ hi
  undecided i hi d hd hdi := by
    have hdecided := (h.decisions d hd).decided
    rw [hdi, hi] at hdecided
    cases hdecided
  deletedAtMostOnce o ho := by
    have hstage := h.stage
    cases g with
    | absent =>
      rw [hstage.1] at ho
      cases ho
    | created i | installed | deleted =>
      obtain ⟨t, ht⟩ := hstage.1
      rw [ht, List.mem_singleton] at ho
      subst ho
      simp
  deletedOnce := h.deletedOnce
  handlersGoOn := (held_reachable hr).handlers_go_on h
  unloadGoesOn := (held_reachable hr).unload_goes_on (m := m)
  comes := unload_comes hr

end

/-- **In every interleaving at most one baseline is installed, every decision is
made against it before it is deleted, and each allocated baseline is deleted
exactly once when the driver is unloaded, which always comes to its end.** -/
theorem one_baseline {s : State w} (h : (driver m).Reachable s) : OneBaseline m s := by
  obtain ⟨g, hg⟩ := inv_reachable h
  exact hg.oneBaseline h

/-- The first handler gets no memory, and both compare with the baseline of the second. -/
def twoHandlersRun : List (Act 8) :=
  [.threadCreate (rtlCaptureStackBackTrace [3, 20]), .threadCreate (rtlCaptureStackBackTrace [5, 20]),
    .handler 0 none, .handler 0 none, .handler 0 none, .handler 0 none, .handler 0 none,
    .handler 1 none, .handler 1 none, .handler 1 (some (rtlCaptureStackBackTrace [4, 20])), .handler 1 none,
    .handler 0 none, .handler 1 none, .handler 0 none, .handler 1 none, .unload,
    .handler 1 none, .handler 0 none, .handler 1 none, .unload, .unload, .unload, .unload]

def twoHandlersEnd : State 8 := ((driver ⟨0, 16⟩).exec (fun _ _ => True) {} twoHandlersRun).get (by decide)

theorem one_baseline_twoHandlers : twoHandlersEnd.decisions.length = 2 ∧ ∀ o ∈ twoHandlersEnd.objects, o.deletions = 1 := by
  have h : (driver ⟨0, 16⟩).Reachable twoHandlersEnd :=
    System.reach_of_exec (C := fun _ _ => True) rfl twoHandlersRun (Option.some_get _).symm
  exact ⟨by decide, (one_baseline h).deletedOnce (by decide)⟩

end Dmsk.Baseline
