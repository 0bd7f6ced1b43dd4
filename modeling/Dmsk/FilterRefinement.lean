import Dmsk.Filter
import Dmsk.ProcessCollectorRuns
import Dmsk.StackTraceSound

/-!
# What the notifications come to

The monitor as a machine on pids, flags and nt runs: it keeps the processes in
the order of their creation, and the run of the first main thread whose trace
could be allocated. Every run of the notifications follows it, also when pids
are used twice at a time or allocations fail.
-/

namespace Dmsk

variable {w : ℕ} {m : NtModule w}

structure Watch (w : ℕ) where
  collection : Collection w
  baseline : Option (List (BitVec w))

namespace Watch

/-- What the comparison of traces goes by. -/
def compared (m : NtModule w) (frames : Frames w) : List (BitVec w) := (StackTrace.firstRun m frames).dropLast

def check (m : NtModule w) (baseline : Option (List (BitVec w))) (frames : Frames w) : Verdict :=
  match baseline with
  | none => .noBaseline
  | some run => .checked (run ≠ compared m frames)

def threadCreate (m : NtModule w) (A : Watch w) (n : ThreadCreate w) : Watch w × Verdict :=
  if n.currentProcessPid = n.processId then (A, .ownThread)
  else
    match A.collection.oldest n.processId with
    | none => (A, .notMonitored)
    | some r =>
      if r.process.wasMainThreadCreated then (A, .remoteThread)
      else
        let baseline := A.baseline.or (n.baseline.map (compared m))
        (⟨A.collection.mark r.address, baseline⟩, check m baseline n.frames)

def step (m : NtModule w) (A : Watch w) : Notification w → Watch w × Option Verdict
  | .processCreate pid process => ({ A with collection := A.collection.next (.insertProcess process pid) }, none)
  | .processTerminate pid => ({ A with collection := A.collection.next (.terminateProcess pid) }, none)
  | .threadCreate n => ((A.threadCreate m n).1, some (A.threadCreate m n).2)

/-- Memory for a record is not in use. -/
def valid (A : Watch w) : Notification w → Prop
  | .processCreate pid process => Collection.spec.valid A.collection (.insertProcess process pid)
  | _ => True

def spec (m : NtModule w) : Spec (Watch w) (Notification w) (Option Verdict) where
  valid := valid
  next A n := (A.step m n).1
  out A n := (A.step m n).2

instance (A : Watch w) : ∀ n, Decidable ((spec m).valid A n)
  | .processCreate pid process =>
    inferInstanceAs (Decidable (Collection.spec.valid A.collection (.insertProcess process pid)))
  | .processTerminate _ | .threadCreate _ => isTrue trivial

def initial (d : DrvData w) : Watch w := ⟨Collection.initial d.processCollector, none⟩

/-- The notifications differ in nothing but what the comparison does not see. -/
inductive Alike (m : NtModule w) : Notification w → Notification w → Prop
  | processCreate {pid process} : Alike m (.processCreate pid process) (.processCreate pid process)
  | processTerminate {pid} : Alike m (.processTerminate pid) (.processTerminate pid)
  | threadCreate {c p frames frames' baseline baseline'} : compared m frames = compared m frames' →
      baseline.map (compared m) = baseline'.map (compared m) →
      Alike m (.threadCreate ⟨c, p, frames, baseline⟩) (.threadCreate ⟨c, p, frames', baseline'⟩)

theorem Alike.valid_iff {n n' : Notification w} (h : Alike m n n') (A : Watch w) : A.valid n ↔ A.valid n' := by
  cases h <;> exact Iff.rfl

theorem Alike.step_eq {n n' : Notification w} (h : Alike m n n') (A : Watch w) : A.step m n = A.step m n' := by
  cases h with
  | processCreate | processTerminate => rfl
  | threadCreate hframes hbaseline => simp only [Watch.step, Watch.threadCreate, check, hframes, hbaseline]

theorem Alike.outs {ns ns' : List (Notification w)} (h : List.Forall₂ (Alike m) ns ns') :
    ∀ A : Watch w, (spec m).Admits A ns → (spec m).Admits A ns' ∧ (spec m).outs A ns' = (spec m).outs A ns := by
  induction h with
  | nil => exact fun A _ => ⟨trivial, rfl⟩
  | @cons n n' ns ns' hn _ ih =>
    intro A hv
    obtain ⟨hadm, houts⟩ := ih ((spec m).next A n) hv.2
    have hnext : (spec m).next A n' = (spec m).next A n := congrArg Prod.fst (hn.step_eq A).symm
    have hout : (spec m).out A n' = (spec m).out A n := congrArg Prod.snd (hn.step_eq A).symm
    refine ⟨⟨(hn.valid_iff A).mp hv.1, by rw [hnext]; exact hadm⟩, ?_⟩
    simp only [Spec.outs, hnext, hout, houts]

end Watch

/-! ## The monitor represents it -/

/-- The baseline trace delimits a run that ends in one more frame. -/
def RepresentsBaseline (trace : Option (StackTrace w)) (baseline : Option (List (BitVec w))) : Prop :=
  (trace = none ∧ baseline = none) ∨ ∃ t run, trace = some t ∧ t.Delimits run ∧ baseline = some run.dropLast

structure RepresentsWatch (m : NtModule w) (d : DrvData w) (A : Watch w) : Prop where
  collection : RepresentsCollection d.processCollector A.collection
  nt : d.nt = m
  baseline : RepresentsBaseline d.processCreateGoodStackTrace A.baseline

section
variable {d : DrvData w} {A : Watch w}

theorem RepresentsBaseline.checkAndSet {baseline : Option (List (BitVec w))} (frames : Option (Frames w))
    (h : RepresentsBaseline d.processCreateGoodStackTrace baseline) :
    RepresentsBaseline (fltpCheckAndSetGlobalStackTrace d frames).processCreateGoodStackTrace
      (baseline.or (frames.map (Watch.compared d.nt))) := by
  unfold fltpCheckAndSetGlobalStackTrace
  rcases h with ⟨ht, rfl⟩ | ⟨t, run, ht, hrun, rfl⟩
  · rw [ht]
    cases frames with
    | none => exact .inl ⟨rfl, rfl⟩
    | some frames => exact .inr ⟨_, _, rfl, StackTrace.new_delimits d.nt frames, rfl⟩
  · rw [ht]
    exact .inr ⟨t, run, ht, hrun, rfl⟩

theorem RepresentsBaseline.hollowCheck {baseline : Option (List (BitVec w))}
    (h : RepresentsBaseline d.processCreateGoodStackTrace baseline) (frames : Frames w) :
    hollowCheck d (StackTrace.new m frames) = Watch.check m baseline frames := by
  unfold Dmsk.hollowCheck Watch.check
  rcases h with ⟨ht, rfl⟩ | ⟨t, run, ht, hrun, rfl⟩
  · rw [ht]
  · rw [ht]
    have hsame := StackTrace.areNtTracesSame_eq hrun (StackTrace.new_delimits m frames)
    by_cases heq : run.dropLast = Watch.compared m frames
    · simp [hsame.mpr heq, heq]
    · have hne : t.areNtTracesSame (StackTrace.new m frames) = false := by
        rw [← Bool.not_eq_true, hsame]
        exact heq
      simp [hne, heq]

theorem RepresentsWatch.threadCreate (hR : RepresentsWatch m d A) (n : ThreadCreate w) :
    ∃ d', fltpHandleThreadCreate d n = .ok (d', (A.threadCreate m n).2) ∧
      RepresentsWatch m d' (A.threadCreate m n).1 := by
  unfold fltpHandleThreadCreate Watch.threadCreate
  by_cases hown : n.currentProcessPid = n.processId
  · rw [if_pos hown, if_pos hown]
    exact ⟨d, rfl, hR⟩
  rw [if_neg hown, if_neg hown, hR.collection.records.getProcess_eq, RepresentsCollection.find_eq, ok_bind]
  cases hold : A.collection.oldest n.processId with
  | none => exact ⟨d, rfl, hR⟩
  | some r =>
    have hmem : r.entry ∈ A.collection.records.map Record.entry := List.mem_map_of_mem (Collection.oldest_mem hold).1
    simp only [Option.map_some, hR.collection.records.wasMainThreadCreated_eq hmem, ok_bind]
    cases hflag : r.process.wasMainThreadCreated with
    | true =>
      refine ⟨d, ?_, hR⟩
      simp only [Record.entry, hflag, if_true]
      rfl
    | false =>
      have haddress : (A.collection.oldest n.processId).map (·.address) = some r.address := by rw [hold]; rfl
      obtain ⟨c, hc, hcollection⟩ := hR.collection.mark haddress
      have hbaseline := hR.baseline.checkAndSet (d := { d with processCollector := c }) n.baseline
      refine ⟨fltpCheckAndSetGlobalStackTrace { d with processCollector := c } n.baseline, ?_, ?_, ?_, ?_⟩
      · simp only [Record.entry, hflag, Bool.false_eq_true, if_false, hc, ok_bind]
        rw [hbaseline.hollowCheck, hR.nt]
        rfl
      · rw [fltpCheckAndSet_collector]
        exact hcollection
      · rw [fltpCheckAndSet_nt]
        exact hR.nt
      · rw [← hR.nt]
        exact hbaseline

theorem watch_refines (m : NtModule w) : Refines handle (Watch.spec m) (RepresentsWatch m) := by
  intro d A n hR hv
  cases n with
  | processCreate pid process =>
    cases process with
    | none => exact ⟨d, rfl, hR⟩
    | some a =>
      obtain ⟨c, hc, hcollection⟩ := hR.collection.insert (hv a rfl) pid
      refine ⟨{ d with processCollector := c }, ?_, hcollection, hR.nt, hR.baseline⟩
      simp only [handle, fltCreateProcessNotifyRoutine, fltpHandleProcessCreate, hc, ok_bind]
      rfl
  | processTerminate pid =>
    obtain ⟨c, hc, hcollection⟩ := hR.collection.terminate pid
    refine ⟨{ d with processCollector := c }, ?_, hcollection, hR.nt, hR.baseline⟩
    simp only [handle, fltCreateProcessNotifyRoutine, fltpHandleProcessTerminate, hc, ok_bind]
    rfl
  | threadCreate n =>
    obtain ⟨d', hd, hR'⟩ := hR.threadCreate n
    refine ⟨d', ?_, hR'⟩
    simp only [handle, hd, ok_bind]
    rfl

theorem DrvData.Init.representsWatch (h0 : d.Init) : RepresentsWatch d.nt d (Watch.initial d) where
  collection := h0.records.represents
  nt := rfl
  baseline := .inl ⟨h0.noBaseline, rfl⟩

/-- **What the notifications come to.** In every run from the driver's start, in which `new Process`
returns memory that is not in use or fails, nothing faults and each notification has the verdict of
`Watch`; the traces of a run matter only for the nt frames that are compared. -/
theorem notifications_follow_watch (h0 : d.Init) {ns : List (Notification w)}
    (hv : (Watch.spec d.nt).Admits (Watch.initial d) ns) :
    (∃ d', execAll handle d ns = .ok (d', (Watch.spec d.nt).outs (Watch.initial d) ns) ∧
      RepresentsWatch d.nt d' ((Watch.spec d.nt).after (Watch.initial d) ns)) ∧
    ∀ ns', List.Forall₂ (Watch.Alike d.nt) ns ns' →
      ∃ d', execAll handle d ns' = .ok (d', (Watch.spec d.nt).outs (Watch.initial d) ns) := by
  refine ⟨(watch_refines d.nt).run ns h0.representsWatch hv, fun ns' halike => ?_⟩
  obtain ⟨hv', houts⟩ := Watch.Alike.outs halike _ hv
  obtain ⟨d', hd, -⟩ := (watch_refines d.nt).run ns' h0.representsWatch hv'
  exact ⟨d', houts ▸ hd⟩

end

def threadWith (frames : Frames 8) : ThreadCreate 8 := ⟨4, 5, frames, some frames⟩

/-- Two processes with one pid, and a thread in each of them from the stack that is given. -/
def twice (first second : Frames 8) : List (Notification 8) :=
  [.processCreate 5 (some 10), .processCreate 5 (some 11), .threadCreate (threadWith first),
    .threadCreate (threadWith second), .processTerminate 5, .threadCreate (threadWith second)]

theorem notifications_follow_watch_twice :
    ∃ d', execAll handle freshDriver (twice ⟨[40, 2, 3, 20], by decide⟩ ⟨[4, 3, 50, 5], by decide⟩) =
      .ok (d', [none, none, some (.checked false), some .remoteThread, none, some (.checked true)]) := by
  have hv : (Watch.spec freshDriver.nt).Admits (Watch.initial freshDriver)
      (twice ⟨[2, 3, 20], by decide⟩ ⟨[4, 3, 20], by decide⟩) := by decide
  have hfirst : Watch.Alike freshDriver.nt (.threadCreate (threadWith ⟨[2, 3, 20], by decide⟩))
      (.threadCreate (threadWith ⟨[40, 2, 3, 20], by decide⟩)) := .threadCreate (by decide) (by decide)
  have hsecond : Watch.Alike freshDriver.nt (.threadCreate (threadWith ⟨[4, 3, 20], by decide⟩))
      (.threadCreate (threadWith ⟨[4, 3, 50, 5], by decide⟩)) := .threadCreate (by decide) (by decide)
  refine (notifications_follow_watch freshDriver_init hv).2 _ (.cons .processCreate (.cons .processCreate ?_))
  exact .cons hfirst (.cons hsecond (.cons .processTerminate (.cons hsecond .nil)))

end Dmsk
