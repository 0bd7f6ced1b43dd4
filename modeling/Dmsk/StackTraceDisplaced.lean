import Dmsk.Filter
import Dmsk.StackTraceSound

/-!
# Traces whose frames are displaced

The comparison depends on the first nt run alone, wherever it lies in a trace.
A capture that is cut off inside the run loses the end of it, so two captures
from different depths of one stack, or with a filter above the driver and
without it, need not compare equal.
-/

namespace Dmsk

namespace StackTrace

variable {w : ℕ} {m : NtModule w}

/-- A stack around its first nt run. Without nt frame, all of it lies before. -/
structure Around (m : NtModule w) (stack before run after : List (BitVec w)) : Prop where
  split : stack = before ++ run ++ after
  outside : ∀ a ∈ before, isAddressInNtModule m a = false
  inside : ∀ a ∈ run, isAddressInNtModule m a = true
  closed : ∀ a ∈ after.head?, isAddressInNtModule m a = false
  noNt : run = [] → after = []

theorem exists_around (m : NtModule w) (stack : List (BitVec w)) : ∃ before run after, Around m stack before run after := by
  have hsplit := List.takeWhile_append_dropWhile (p := fun a => !isAddressInNtModule m a) (l := stack)
  generalize hrest : stack.dropWhile (fun a => !isAddressInNtModule m a) = rest at hsplit
  refine ⟨stack.takeWhile fun a => !isAddressInNtModule m a, rest.takeWhile (isAddressInNtModule m),
    rest.dropWhile (isAddressInNtModule m), ?_, ?_, ?_, ?_, ?_⟩
  · rw [List.append_assoc, List.takeWhile_append_dropWhile, hsplit]
  · intro a ha
    simpa using List.mem_takeWhile_imp ha
  · intro a ha
    exact List.mem_takeWhile_imp ha
  · intro a ha
    have hne : rest.dropWhile (isAddressInNtModule m) ≠ [] := by
      intro hnil
      rw [hnil] at ha
      cases ha
    rw [List.head?_eq_some_head hne] at ha
    rw [← Option.mem_some_iff.mp ha]
    simpa using List.head_dropWhile_not (isAddressInNtModule m) hne
  · intro hrun
    have hnil : rest = [] := by
      by_contra hne
      have hhead : isAddressInNtModule m (rest.head hne) = true := by
        subst hrest
        simpa using List.head_dropWhile_not (fun a => !isAddressInNtModule m a) hne
      rw [← List.cons_head_tail hne, List.takeWhile_cons_of_pos hhead] at hrun
      cases hrun
    rw [hnil]
    rfl

section
variable {stack before run after : List (BitVec w)}

theorem Around.firstRun_eq {frames : Frames w} (h : Around m frames.val before run after) : firstRun m frames = run := by
  have hdrop : frames.val.dropWhile (fun a => !isAddressInNtModule m a) = run ++ after := by
    rw [h.split, List.append_assoc, List.dropWhile_append_of_pos (by simpa using h.outside)]
    cases hrun : run with
    | nil => rw [h.noNt hrun]; rfl
    | cons a run =>
      have ha : isAddressInNtModule m a = true := h.inside a (by simp [hrun])
      rw [List.cons_append, List.dropWhile_cons_of_neg (by simp [ha])]
  unfold firstRun
  rw [hdrop, List.takeWhile_append_of_pos h.inside]
  cases hafter : after with
  | nil => simp
  | cons a after =>
    have ha : isAddressInNtModule m a = false := h.closed a (by simp [hafter])
    rw [List.takeWhile_cons_of_neg (by simp [ha]), List.append_nil]

theorem Around.displace (h : Around m stack before run after) {driver : List (BitVec w)}
    (hdriver : ∀ a ∈ driver, isAddressInNtModule m a = false) : Around m (driver ++ stack) (driver ++ before) run after where
  split := by rw [h.split]; simp only [List.append_assoc]
  outside a ha := by
    rcases List.mem_append.mp ha with ha | ha
    · exact hdriver a ha
    · exact h.outside a ha
  inside := h.inside
  closed := h.closed
  noNt := h.noNt

theorem Around.take (h : Around m stack before run after) (k : ℕ) :
    Around m (stack.take k) (before.take k) (run.take (k - before.length)) (after.take (k - before.length - run.length)) where
  split := by rw [h.split, List.take_append, List.take_append, List.length_append, Nat.sub_add_eq]
  outside a ha := h.outside a (List.mem_of_mem_take ha)
  inside a ha := h.inside a (List.mem_of_mem_take ha)
  closed a ha := by
    apply h.closed a
    cases after with
    | nil => rw [List.take_nil] at ha; cases ha
    | cons b after =>
      cases hk : k - before.length - run.length with
      | zero => rw [hk] at ha; cases ha
      | succ k => rwa [hk] at ha
  noNt hrun := by
    rcases List.take_eq_nil_iff.mp hrun with hk | hrun
    · rw [hk, Nat.zero_sub, List.take_zero]
    · rw [h.noNt hrun, List.take_nil]

end

/-! ## Displacement -/

theorem areNtTracesSame_congr {t u : StackTrace w} {xs ys : List (BitVec w)} (ht : t.Delimits xs) (hu : u.Delimits ys)
    (h : xs.dropLast = ys.dropLast) (v : StackTrace w) :
    t.areNtTracesSame v = u.areNtTracesSame v ∧ v.areNtTracesSame t = v.areNtTracesSame u := by
  have hlength : xs.length - 1 = ys.length - 1 := by simpa only [List.length_dropLast] using congrArg List.length h
  have hframes : ∀ k < xs.length - 1, t.backtrace[t.ntStartIdx.toNat + k]? = u.backtrace[u.ntStartIdx.toNat + k]? := by
    intro k hk
    have hxy : xs.dropLast[k]? = ys.dropLast[k]? := by rw [h]
    rw [List.getElem?_dropLast, List.getElem?_dropLast, if_pos hk, if_pos (hlength ▸ hk)] at hxy
    rw [ht.frames k (by omega), hu.frames k (by omega), hxy]
  unfold areNtTracesSame
  rw [ht.length, hu.length, ← hlength]
  refine ⟨?_, ?_⟩
  · split
    · rfl
    · rw [Bool.eq_iff_iff, sameFrom_iff, sameFrom_iff, Int.toNat_natCast]
      refine forall₂_congr fun k hk => ?_
      rw [hframes k hk]
  · split
    · rfl
    · rename_i hpasses
      rw [Bool.eq_iff_iff, sameFrom_iff, sameFrom_iff]
      refine forall₂_congr fun k hk => ?_
      rw [hframes k (by omega)]

section
variable {t u : StackTrace w} {xs ys : List (BitVec w)} (ht : t.Delimits xs) (hu : u.Delimits ys)
include ht hu

theorem alike_left_iff : (∀ v : StackTrace w, t.areNtTracesSame v = u.areNtTracesSame v) ↔ t.areNtTracesSame u = true := by
  constructor
  · intro h
    rw [h]
    exact (areNtTracesSame_eq hu hu).mpr rfl
  · intro h v
    exact (areNtTracesSame_congr ht hu ((areNtTracesSame_eq ht hu).mp h) v).1

theorem alike_right_iff : (∀ v : StackTrace w, v.areNtTracesSame t = v.areNtTracesSame u) ↔ t.areNtTracesSame u = true := by
  constructor
  · intro h
    rw [← h]
    exact (areNtTracesSame_eq ht ht).mpr rfl
  · intro h v
    exact (areNtTracesSame_congr ht hu ((areNtTracesSame_eq ht hu).mp h) v).2

end

end StackTrace

open StackTrace

variable {w : ℕ}

theorem hollowCheck_congr {t u : StackTrace w} (h : ∀ v : StackTrace w, v.areNtTracesSame t = v.areNtTracesSame u)
    (d : DrvData w) : hollowCheck d t = hollowCheck d u := by
  unfold hollowCheck
  cases d.processCreateGoodStackTrace with
  | none => rfl
  | some good =>
    dsimp only
    rw [h]

theorem fltpHandleThreadCreate_congr {d : DrvData w} {frames frames' : Frames w}
    (h : ∀ v : StackTrace w, v.areNtTracesSame (new d.nt frames) = v.areNtTracesSame (new d.nt frames'))
    (n : ThreadCreate w) :
    fltpHandleThreadCreate d { n with frames := frames } = fltpHandleThreadCreate d { n with frames := frames' } := by
  unfold fltpHandleThreadCreate
  simp only [hollowCheck_congr h]

/-- Two captures compare alike with every trace, on either side, and neither a
thread's verdict nor that of a thread judged by such a baseline depends on which
of them was made. -/
structure Interchangeable (m : NtModule w) (a a' : Frames w) : Prop where
  left : ∀ b, (new m a').areNtTracesSame (new m b) = (new m a).areNtTracesSame (new m b)
  right : ∀ b, (new m b).areNtTracesSame (new m a') = (new m b).areNtTracesSame (new m a)
  thread : ∀ (d : DrvData w) (n : ThreadCreate w), d.nt = m →
    fltpHandleThreadCreate d { n with frames := a' } = fltpHandleThreadCreate d { n with frames := a }
  baseline : ∀ (d : DrvData w) (stacktrace : StackTrace w),
    hollowCheck { d with processCreateGoodStackTrace := some (new m a') } stacktrace =
      hollowCheck { d with processCreateGoodStackTrace := some (new m a) } stacktrace

/-- **Displacement.** Traces around the same first nt run. -/
theorem displacement_invariant {m : NtModule w} {a a' : Frames w} {run before after before' after' : List (BitVec w)}
    (ha : Around m a.val before run after) (ha' : Around m a'.val before' run after') : Interchangeable m a a' := by
  have hrun := new_delimits m a
  have hrun' := new_delimits m a'
  rw [ha.firstRun_eq] at hrun
  rw [ha'.firstRun_eq] at hrun'
  have hsame := areNtTracesSame_congr hrun' hrun rfl
  refine ⟨fun b => (hsame (new m b)).1, fun b => (hsame (new m b)).2, ?_, ?_⟩
  · rintro d n rfl
    exact fltpHandleThreadCreate_congr (fun v => (hsame v).2) n
  · intro d stacktrace
    unfold hollowCheck
    dsimp only
    rw [(hsame stacktrace).1]

/-! ## The first baseline -/

namespace StackTrace

theorem dropLast_take_eq_iff {α : Type*} (xs : List α) {i j : ℕ} (hij : i ≤ j) :
    (xs.take i).dropLast = (xs.take j).dropLast ↔ xs.length ≤ i ∨ i = j ∨ min j xs.length ≤ 1 := by
  constructor
  · intro h
    have hlength := congrArg List.length h
    simp only [List.length_dropLast, List.length_take] at hlength
    omega
  · intro h
    have hcut : min (min i xs.length - 1) i = min (min j xs.length - 1) j := by omega
    rw [List.dropLast_eq_take, List.dropLast_eq_take, List.length_take, List.length_take, List.take_take, List.take_take,
      hcut]

variable {w : ℕ} {m : NtModule w} {driver callers before run after : List (BitVec w)}

theorem capture_firstRun (hdriver : ∀ a ∈ driver, isAddressInNtModule m a = false)
    (hcallers : Around m callers before run after) :
    firstRun m (rtlCaptureStackBackTrace (driver ++ callers)) = run.take (50 - (driver.length + before.length)) := by
  have h := (hcallers.displace hdriver).take 50
  rw [List.length_append] at h
  change Around m (rtlCaptureStackBackTrace (driver ++ callers)).val _ _ _ at h
  exact h.firstRun_eq

/-- Captures of the same callers from two depths of the driver compare equal
when both keep the whole run, or both keep one frame of it at most. -/
theorem captures_same_iff {inner : List (BitVec w)} (hdriver : ∀ a ∈ driver, isAddressInNtModule m a = false)
    (hinner : ∀ a ∈ inner, isAddressInNtModule m a = false) (hdeeper : driver.length < inner.length)
    (hcallers : Around m callers before run after) :
    (new m (rtlCaptureStackBackTrace (inner ++ callers))).areNtTracesSame
        (new m (rtlCaptureStackBackTrace (driver ++ callers))) = true ↔
      inner.length + before.length + run.length ≤ 50 ∨ run.length ≤ 1 ∨ 49 ≤ driver.length + before.length := by
  rw [areNtTracesSame_eq (new_delimits m _) (new_delimits m _), capture_firstRun hinner hcallers,
    capture_firstRun hdriver hcallers, dropLast_take_eq_iff run (by omega)]
  omega

end StackTrace

/-- A notification that reached the check marks the main thread in the
collector, and whether it gets there depends on neither the baseline nor the
captures. -/
theorem checked_cases {d d' : DrvData w} {n : ThreadCreate w} {hollow : Bool}
    (h : fltpHandleThreadCreate d n = .ok (d', .checked hollow)) :
    ∃ c, ∀ (good : Option (StackTrace w)) (frames : Frames w) (baseline : Option (Frames w)),
      fltpHandleThreadCreate { d with processCreateGoodStackTrace := good } { n with frames := frames, baseline := baseline } =
        let installed := fltpCheckAndSetGlobalStackTrace ⟨c, good, d.nt⟩ baseline
        .ok (installed, hollowCheck installed (new d.nt frames)) := by
  unfold fltpHandleThreadCreate at h ⊢
  split at h
  · cases h
  · rename_i hpid
    cases hget : d.processCollector.getProcess n.processId with
    | error e => rw [hget] at h; cases h
    | ok found =>
      rw [hget, ok_bind] at h
      cases found with
      | none => cases h
      | some process =>
        dsimp only at h
        cases hwas : d.processCollector.wasMainThreadCreated process with
        | error e => rw [hwas] at h; cases h
        | ok was =>
          rw [hwas, ok_bind] at h
          cases was with
          | true => cases h
          | false =>
            cases hset : d.processCollector.setMainThreadCreated process with
            | error e => rw [hset] at h; cases h
            | ok c =>
              refine ⟨c, fun good frames baseline => ?_⟩
              rw [if_neg hpid]
              dsimp only
              rw [hget, ok_bind]
              dsimp only
              rw [hwas, ok_bind, if_neg Bool.false_ne_true, hset]
              rfl

theorem checked_first {d d' : DrvData w} {n : ThreadCreate w} {hollow : Bool} {baseline : Frames w}
    (hd : d.processCreateGoodStackTrace = none) (hb : n.baseline = some baseline)
    (h : fltpHandleThreadCreate d n = .ok (d', .checked hollow)) :
    hollow = !(new d.nt baseline).areNtTracesSame (new d.nt n.frames) := by
  obtain ⟨c, hc⟩ := checked_cases h
  obtain ⟨collector, good, nt⟩ := d
  obtain ⟨currentProcessPid, processId, frames, installed⟩ := n
  subst hd hb
  cases h.symm.trans (hc none frames (some baseline))
  rfl

/-- With a baseline in force. -/
def DrvData.withBaseline (d : DrvData w) (good : StackTrace w) : DrvData w := { d with processCreateGoodStackTrace := some good }

theorem checked_installed {d d' : DrvData w} {n : ThreadCreate w} {hollow : Bool}
    (h : fltpHandleThreadCreate d n = .ok (d', .checked hollow)) :
    ∃ c, ∀ (good : StackTrace w) (frames : Frames w),
      fltpHandleThreadCreate (d.withBaseline good) { n with frames := frames } =
        .ok (⟨c, some good, d.nt⟩, .checked (!good.areNtTracesSame (new d.nt frames))) := by
  obtain ⟨c, hc⟩ := checked_cases h
  exact ⟨c, fun good frames => hc (some good) frames n.baseline⟩

/-- **The notification that installs the baseline** compares it with its own
trace. It is not reported as hollow exactly when the nt run of its callers ends
within the 50 frames of the deeper capture, or the captures keep one frame of
the run at most. -/
theorem first_baseline_not_hollow_iff {d d' : DrvData w} {n : ThreadCreate w} {hollow : Bool}
    {driver inner callers before run after : List (BitVec w)} (hd : d.processCreateGoodStackTrace = none)
    (hn : n.frames = rtlCaptureStackBackTrace (driver ++ callers))
    (hb : n.baseline = some (rtlCaptureStackBackTrace (inner ++ callers)))
    (hdriver : ∀ a ∈ driver, isAddressInNtModule d.nt a = false) (hinner : ∀ a ∈ inner, isAddressInNtModule d.nt a = false)
    (hdeeper : driver.length < inner.length) (hcallers : Around d.nt callers before run after)
    (h : fltpHandleThreadCreate d n = .ok (d', .checked hollow)) :
    hollow = false ↔
      inner.length + before.length + run.length ≤ 50 ∨ run.length ≤ 1 ∨ 49 ≤ driver.length + before.length := by
  rw [← captures_same_iff hdriver hinner hdeeper hcallers, ← hn, checked_first hd hb h, Bool.not_eq_false']

def monitoring : DrvData 8 :=
  { freshDriver with
    processCollector.heap := fun a =>
      if a = 1 then some ⟨10, 10, none⟩ else if a = 10 then some ⟨1, 1, some ⟨5, false⟩⟩ else none
    processCollector.activeProcesses.noElements := 1 }

/-- Its main thread is created under `depth` frames of nt. -/
def mainThread (depth : ℕ) : ThreadCreate 8 :=
  ⟨4, 5, rtlCaptureStackBackTrace ([20] ++ List.replicate depth 3),
    some (rtlCaptureStackBackTrace ([20, 21] ++ List.replicate depth 3))⟩

theorem first_baseline_not_hollow_eight : ∃ d', fltpHandleThreadCreate monitoring (mainThread 8) = .ok (d', .checked false) ∧
    (false = false ↔ 2 + 0 + 8 ≤ 50 ∨ 8 ≤ 1 ∨ 49 ≤ 1 + 0) :=
  have hcallers : Around monitoring.nt (List.replicate 8 3) [] (List.replicate 8 3) [] :=
    ⟨rfl, by decide, by decide, by decide, by decide⟩
  have hn : (mainThread 8).frames = rtlCaptureStackBackTrace ([20] ++ List.replicate 8 3) := rfl
  have hb : (mainThread 8).baseline = some (rtlCaptureStackBackTrace ([20, 21] ++ List.replicate 8 3)) := rfl
  ⟨_, rfl, first_baseline_not_hollow_iff rfl hn hb (by decide) (by decide) (by decide) hcallers rfl⟩

theorem first_baseline_hollow : monitoring.processCreateGoodStackTrace = none ∧
    ∃ d', fltpHandleThreadCreate monitoring (mainThread 49) = .ok (d', .checked true) :=
  ⟨rfl, _, rfl⟩

/-! ## An inserted filter -/

/-- Below `shallow` and below `deep` frames outside nt, a capture keeps the same
of a run, or nothing that is compared. -/
def SameCut (shallow deep run : ℕ) : Prop := deep + run ≤ 50 ∨ run ≤ 1 ∨ 49 ≤ shallow

/-- A stack in which a filter's frames lie above the driver's. -/
structure Inserted (m : NtModule w) (driver filter callers before run after : List (BitVec w)) : Prop where
  driverOutside : ∀ a ∈ driver, isAddressInNtModule m a = false
  filterOutside : ∀ a ∈ filter, isAddressInNtModule m a = false
  inserted : filter ≠ []
  callers : Around m callers before run after

section
variable {m : NtModule w} {driver filter callers before run after : List (BitVec w)}

theorem Inserted.outside (h : Inserted m driver filter callers before run after) {frames : List (BitVec w)}
    (hframes : ∀ a ∈ frames, isAddressInNtModule m a = false) : ∀ a ∈ frames ++ filter, isAddressInNtModule m a = false := by
  intro a ha
  rcases List.mem_append.mp ha with ha | ha
  · exact hframes a ha
  · exact h.filterOutside a ha

theorem Inserted.same_iff (h : Inserted m driver filter callers before run after) :
    (new m (rtlCaptureStackBackTrace (driver ++ filter ++ callers))).areNtTracesSame
        (new m (rtlCaptureStackBackTrace (driver ++ callers))) = true ↔
      SameCut (driver.length + before.length) (driver.length + filter.length + before.length) run.length := by
  have hpos := List.length_pos_iff.mpr h.inserted
  have hlength : (driver ++ filter).length = driver.length + filter.length := List.length_append
  rw [captures_same_iff h.driverOutside (h.outside h.driverOutside) (by omega) h.callers, hlength]
  rfl

/-- The capture of the thread that is judged is displaced. -/
theorem Inserted.thread_iff (h : Inserted m driver filter callers before run after) {d d' : DrvData w}
    {n : ThreadCreate w} {hollow : Bool} (hm : d.nt = m) (hreached : fltpHandleThreadCreate d n = .ok (d', .checked hollow)) :
    (∀ good : StackTrace w,
      fltpHandleThreadCreate (d.withBaseline good)
          { n with frames := rtlCaptureStackBackTrace (driver ++ filter ++ callers) } =
        fltpHandleThreadCreate (d.withBaseline good) { n with frames := rtlCaptureStackBackTrace (driver ++ callers) }) ↔
      SameCut (driver.length + before.length) (driver.length + filter.length + before.length) run.length := by
  subst hm
  obtain ⟨c, hc⟩ := checked_installed hreached
  rw [← h.same_iff, ← alike_right_iff (new_delimits d.nt _) (new_delimits d.nt _)]
  refine forall_congr' fun good => ?_
  rw [hc, hc]
  simp

/-- The capture that became the baseline is displaced. -/
theorem Inserted.baseline_iff (h : Inserted m driver filter callers before run after) (d : DrvData w) :
    (∀ stacktrace : StackTrace w,
      hollowCheck (d.withBaseline (new m (rtlCaptureStackBackTrace (driver ++ filter ++ callers)))) stacktrace =
        hollowCheck (d.withBaseline (new m (rtlCaptureStackBackTrace (driver ++ callers)))) stacktrace) ↔
      SameCut (driver.length + before.length) (driver.length + filter.length + before.length) run.length := by
  rw [← h.same_iff, ← alike_left_iff (new_delimits m _) (new_delimits m _)]
  refine forall_congr' fun stacktrace => ?_
  simp [hollowCheck, DrvData.withBaseline]

/-- Both captures of the notification that installs the baseline are displaced. -/
theorem Inserted.first_iff (h : Inserted m driver filter callers before run after) {inner : List (BitVec w)}
    (hinner : ∀ a ∈ inner, isAddressInNtModule m a = false) (hdeeper : driver.length < inner.length)
    {d d₁ d₂ : DrvData w} {n : ThreadCreate w} {hollow hollow' : Bool} (hm : d.nt = m)
    (hd : d.processCreateGoodStackTrace = none)
    (h₁ : fltpHandleThreadCreate d { n with frames := rtlCaptureStackBackTrace (driver ++ callers),
                                            baseline := some (rtlCaptureStackBackTrace (inner ++ callers)) } =
      .ok (d₁, .checked hollow))
    (h₂ : fltpHandleThreadCreate d { n with frames := rtlCaptureStackBackTrace (driver ++ filter ++ callers),
                                            baseline := some (rtlCaptureStackBackTrace (inner ++ filter ++ callers)) } =
      .ok (d₂, .checked hollow')) :
    hollow' = hollow ↔
      (SameCut (driver.length + filter.length + before.length) (inner.length + filter.length + before.length) run.length ↔
        SameCut (driver.length + before.length) (inner.length + before.length) run.length) := by
  subst hm
  have hdeeper' : (driver ++ filter).length < (inner ++ filter).length := by simpa using hdeeper
  have hsame := captures_same_iff h.driverOutside hinner hdeeper h.callers
  have hsame' := captures_same_iff (h.outside h.driverOutside) (h.outside hinner) hdeeper' h.callers
  rw [List.length_append, List.length_append] at hsame'
  rw [checked_first hd rfl h₁, checked_first hd rfl h₂, Bool.not_inj_iff, Bool.eq_iff_iff]
  exact iff_congr hsame' hsame

end

/-- **Inserted filters.** Displaced traces are interchangeable. A filter's frames also
push the end of a long stack out of the capture: on one side of the comparison
they leave the verdict as it is, whatever is on the other, exactly when the
capture keeps as much of the run as is compared without them, and where the
baseline is installed exactly when its two captures agree with the filter as
they do without it. -/
theorem inserted_filter_iff {m : NtModule w} :
    (∀ {a a' : Frames w} {run before after before' after' : List (BitVec w)}, Around m a.val before run after →
      Around m a'.val before' run after' → Interchangeable m a a') ∧
    ∀ {driver filter callers before run after : List (BitVec w)}, Inserted m driver filter callers before run after →
      (∀ {d d' : DrvData w} {n : ThreadCreate w} {hollow : Bool}, d.nt = m →
        fltpHandleThreadCreate d n = .ok (d', .checked hollow) →
        ((∀ good : StackTrace w,
          fltpHandleThreadCreate (d.withBaseline good)
              { n with frames := rtlCaptureStackBackTrace (driver ++ filter ++ callers) } =
            fltpHandleThreadCreate (d.withBaseline good)
              { n with frames := rtlCaptureStackBackTrace (driver ++ callers) }) ↔
          SameCut (driver.length + before.length) (driver.length + filter.length + before.length) run.length)) ∧
      (∀ d : DrvData w,
        (∀ stacktrace : StackTrace w,
          hollowCheck (d.withBaseline (new m (rtlCaptureStackBackTrace (driver ++ filter ++ callers)))) stacktrace =
            hollowCheck (d.withBaseline (new m (rtlCaptureStackBackTrace (driver ++ callers)))) stacktrace) ↔
          SameCut (driver.length + before.length) (driver.length + filter.length + before.length) run.length) ∧
      ∀ {inner : List (BitVec w)} {d d₁ d₂ : DrvData w} {n : ThreadCreate w} {hollow hollow' : Bool},
        (∀ a ∈ inner, isAddressInNtModule m a = false) → driver.length < inner.length → d.nt = m →
        d.processCreateGoodStackTrace = none →
        fltpHandleThreadCreate d { n with frames := rtlCaptureStackBackTrace (driver ++ callers),
                                          baseline := some (rtlCaptureStackBackTrace (inner ++ callers)) } =
          .ok (d₁, .checked hollow) →
        fltpHandleThreadCreate d { n with frames := rtlCaptureStackBackTrace (driver ++ filter ++ callers),
                                          baseline := some (rtlCaptureStackBackTrace (inner ++ filter ++ callers)) } =
          .ok (d₂, .checked hollow') →
        (hollow' = hollow ↔
          (SameCut (driver.length + filter.length + before.length) (inner.length + filter.length + before.length)
              run.length ↔
            SameCut (driver.length + before.length) (inner.length + before.length) run.length)) := by
  refine ⟨fun ha ha' => displacement_invariant ha ha', fun h => ⟨?_, fun d => h.baseline_iff d, ?_⟩⟩
  · intro d d' n hollow hm hreached
    exact h.thread_iff hm hreached
  · intro inner d d₁ d₂ n hollow hollow' hinner hdeeper hm hd h₁ h₂
    exact h.first_iff hinner hdeeper hm hd h₁ h₂

/-- A driver's frame, a filter's two and eight frames of nt: all are captured. -/
theorem inserted_filter_eight :
    let judging := monitoring.withBaseline (new monitoring.nt (mainThread 8).frames)
    fltpHandleThreadCreate judging
        { mainThread 8 with frames := rtlCaptureStackBackTrace ([20] ++ [30, 31] ++ List.replicate 8 3) } =
      fltpHandleThreadCreate judging
        { mainThread 8 with frames := rtlCaptureStackBackTrace ([20] ++ List.replicate 8 3) } :=
  have h : Inserted monitoring.nt [20] [30, 31] (List.replicate 8 3) [] (List.replicate 8 3) [] :=
    ⟨by decide, by decide, by decide, rfl, by decide, by decide, by decide, by decide⟩
  have hcut : SameCut 1 3 8 := .inl (by decide)
  ((inserted_filter_iff.2 h).1 (n := mainThread 8) rfl rfl).mpr hcut (new monitoring.nt (mainThread 8).frames)

/-- The baseline was captured below 49 frames of nt. -/
theorem inserted_filter_hollow : (∀ a ∈ [30], isAddressInNtModule monitoring.nt a = false) ∧
    let judging := monitoring.withBaseline (new monitoring.nt (mainThread 49).frames)
    (∃ d', fltpHandleThreadCreate judging (mainThread 49) = .ok (d', .checked false)) ∧
    ∃ d', fltpHandleThreadCreate judging
      { mainThread 49 with frames := rtlCaptureStackBackTrace ([20] ++ [30] ++ List.replicate 49 3) } =
        .ok (d', .checked true) :=
  ⟨by decide, ⟨_, rfl⟩, _, rfl⟩

end Dmsk
