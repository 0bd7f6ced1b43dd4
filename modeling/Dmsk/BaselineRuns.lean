import Dmsk.Baseline

/-!
# The stages of the baseline

The baseline goes through four stages: it is absent, created by a handler that
holds the lock, installed, and deleted by `DriverUnload` when all handlers have
finished. What a handler may rely on at its position follows from the stage.
-/

namespace Dmsk.Baseline

variable {w : ℕ} {m : NtModule w}

inductive Stage
  | absent
  | created (i : ℕ)
  | installed
  | deleted
deriving DecidableEq, Repr

def Stage.At (s : State w) : Stage → Prop
  | .absent => s.objects = [] ∧ s.installed = [] ∧ s.processCreateGoodStackTrace = none
  | .created i => (∃ t, s.objects = [⟨t, 0⟩]) ∧ s.installed = [] ∧ s.processCreateGoodStackTrace = none ∧
      ∃ stacktrace, s.handlers[i]? = some (.install stacktrace (some 0))
  | .installed => (∃ t, s.objects = [⟨t, 0⟩]) ∧ s.installed = [0] ∧ s.processCreateGoodStackTrace = some 0
  | .deleted => (∃ t, s.objects = [⟨t, 1⟩]) ∧ s.installed = [0] ∧ s.processCreateGoodStackTrace = none

/-- The positions inside the lock. -/
def Pc.critical : Pc w → Bool
  | .check _ | .create _ | .install _ _ | .unlock _ => true
  | _ => false

/-- What the handler `i` relies on. -/
def Pc.Fits (g : Stage) (i : ℕ) : Pc w → Prop
  | .create _ | .install _ none => g = .absent
  | .install _ (some id) => id = 0 ∧ g = .created i
  | .load _ => g = .installed
  | .compare _ object => g = .installed ∧ object = some 0
  | .fault => False
  | .lock _ | .check _ | .unlock _ | .test _ | .noBaseline | .decided => True

/-- The decision is the comparison with the one object. -/
structure Right (s : State w) (g : Stage) (d : Decision w) : Prop where
  decided : s.handlers[d.handler]? = some .decided
  stage : g = .installed ∨ g = .deleted
  object : d.object = 0
  hollow : ∃ o, s.objects[0]? = some o ∧ d.hollow = !o.trace.areNtTracesSame d.stacktrace

structure Inv (s : State w) (g : Stage) : Prop where
  stage : g.At s
  fits : ∀ (i : ℕ) (pc : Pc w), s.handlers[i]? = some pc → pc.Fits g i
  critical : ∀ (i : ℕ) (pc : Pc w), s.handlers[i]? = some pc → pc.critical = true → s.lock = some (.handler i)
  running : ∀ (i : ℕ) (pc : Pc w), s.handlers[i]? = some pc → pc.finished = false → s.unload = .loaded ∨ s.unload = .removing
  unloadLock : s.unload = .locked ∨ s.unload = .uninitialized → s.lock = some .unload
  deleted : g = .deleted → s.unload = .uninitialized ∨ s.unload = .unloaded
  unloaded : s.unload = .uninitialized ∨ s.unload = .unloaded → g = .absent ∨ g = .deleted
  decisions : ∀ d ∈ s.decisions, Right s g d

/-- Outside the lock a handler only relies on what is installed. -/
theorem Pc.Fits.other {pc : Pc w} {g g' : Stage} {i : ℕ} (h : pc.Fits g i) (hc : pc.critical = false)
    (hg : g = .installed → g' = .installed) : pc.Fits g' i := by
  cases pc with
  | load stacktrace => exact hg h
  | compare stacktrace object => exact ⟨hg h.1, h.2⟩
  | fault => exact h
  | check | create | install | unlock => cases hc
  | lock | test | noBaseline | decided => trivial

section
variable {s s' : State w} {g g' : Stage} {i : ℕ} {pc pc' : Pc w}

theorem Inv.running_stage (h : Inv s g) (hpc : s.handlers[i]? = some pc) (hrun : pc.finished = false) : g ≠ .deleted := by
  intro hg
  rcases h.running i pc hpc hrun with hu | hu <;> rcases h.deleted hg with hd | hd <;> rw [hu] at hd <;> cases hd

theorem Inv.others (h : Inv s g) (hpc : s.handlers[i]? = some pc) (hc : pc.critical = true) :
    ∀ j pcj, j ≠ i → s.handlers[j]? = some pcj → pcj.critical = false := by
  intro j pcj hji hj
  by_contra hcj
  have hlock := h.critical j pcj hj (by simpa using hcj)
  rw [h.critical i pc hpc hc] at hlock
  cases hlock
  exact hji rfl

theorem Right.keep {d : Decision w} (hd : Right s g d) (hpc : s.handlers[i]? = some pc) (hrun : pc.finished = false)
    (hh : s'.handlers = s.handlers.set i pc') (ho : s'.objects = s.objects) : Right s' g d where
  decided := by
    have hne : i ≠ d.handler := by
      intro hi
      rw [hi, hd.decided] at hpc
      cases hpc
      cases hrun
    rw [hh, List.getElem?_set_ne hne]
    exact hd.decided
  stage := hd.stage
  object := hd.object
  hollow := by rw [ho]; exact hd.hollow

theorem Inv.advance (h : Inv s g) (hpc : s.handlers[i]? = some pc) (hrun : pc.finished = false)
    (hh : s'.handlers = s.handlers.set i pc') (hu : s'.unload = s.unload) (hstage : g'.At s') (hg : g' ≠ .deleted)
    (hfits : pc'.Fits g' i) (hlock : pc'.critical = true → s'.lock = some (.handler i))
    (hothers : s'.lock = s.lock ∧ g' = g ∨
      (∀ j pcj, j ≠ i → s.handlers[j]? = some pcj → pcj.critical = false) ∧ (g = .installed → g' = .installed))
    (hdecisions : ∀ d ∈ s'.decisions, Right s' g' d) : Inv s' g' := by
  have hrunning := h.running i pc hpc hrun
  have hcases : ∀ j pcj, s'.handlers[j]? = some pcj → j = i ∧ pcj = pc' ∨ j ≠ i ∧ s.handlers[j]? = some pcj := by
    intro j pcj hj
    rw [hh] at hj
    by_cases hji : j = i
    · subst hji
      have hlt : j < s.handlers.length := (List.getElem?_eq_some_iff.mp hpc).1
      rw [List.getElem?_set_self hlt] at hj
      exact .inl ⟨rfl, (Option.some.inj hj).symm⟩
    · rw [List.getElem?_set_ne (Ne.symm hji)] at hj
      exact .inr ⟨hji, hj⟩
  refine ⟨hstage, ?_, ?_, ?_, ?_, fun hd => absurd hd hg, ?_, hdecisions⟩
  · intro j pcj hj
    rcases hcases j pcj hj with ⟨rfl, rfl⟩ | ⟨hji, hj⟩
    · exact hfits
    · rcases hothers with ⟨-, rfl⟩ | ⟨hfree, hkeep⟩
      · exact h.fits j pcj hj
      · exact (h.fits j pcj hj).other (hfree j pcj hji hj) hkeep
  · intro j pcj hj hc
    rcases hcases j pcj hj with ⟨rfl, rfl⟩ | ⟨hji, hj⟩
    · exact hlock hc
    · rcases hothers with ⟨hl, -⟩ | ⟨hfree, -⟩
      · rw [hl]
        exact h.critical j pcj hj hc
      · rw [hfree j pcj hji hj] at hc
        cases hc
  · intro j pcj hj hf
    rw [hu]
    exact hrunning
  · intro hlate
    rw [hu] at hlate
    rcases hrunning with hr | hr <;> rcases hlate with hl | hl <;> rw [hr] at hl <;> cases hl
  · intro hlate
    rw [hu] at hlate
    rcases hrunning with hr | hr <;> rcases hlate with hl | hl <;> rw [hr] at hl <;> cases hl

/-- The stage of the objects stays while a handler moves that installs nothing. -/
theorem Stage.At.move (h : g.At s) (hpc : s.handlers[i]? = some pc) (hne : ∀ stacktrace object, pc ≠ .install stacktrace object)
    (hh : s'.handlers = s.handlers.set i pc') (ho : s'.objects = s.objects) (hi : s'.installed = s.installed)
    (hb : s'.processCreateGoodStackTrace = s.processCreateGoodStackTrace) : g.At s' := by
  unfold Stage.At at h ⊢
  rw [ho, hi, hb]
  cases g with
  | created j =>
    obtain ⟨ht, hinstalled, hnone, stacktrace, hj⟩ := h
    refine ⟨ht, hinstalled, hnone, stacktrace, ?_⟩
    have hij : i ≠ j := by
      rintro rfl
      rw [hpc] at hj
      exact hne _ _ (Option.some.inj hj)
    rw [hh, List.getElem?_set_ne hij]
    exact hj
  | absent | installed | deleted => exact h

/-- A step of a handler that touches no object. -/
structure KeepsObjects (s s' : State w) : Prop where
  unload : s'.unload = s.unload := by rfl
  objects : s'.objects = s.objects := by rfl
  installed : s'.installed = s.installed := by rfl
  baseline : s'.processCreateGoodStackTrace = s.processCreateGoodStackTrace := by rfl
  decisions : s'.decisions = s.decisions := by rfl

theorem Inv.goes (h : Inv s g) (hpc : s.handlers[i]? = some pc) (hrun : pc.finished = false)
    (hne : ∀ stacktrace object, pc ≠ .install stacktrace object) (hh : s'.handlers = s.handlers.set i pc')
    (hk : KeepsObjects s s') (hfits : pc'.Fits g i)
    (hlock : pc'.critical = true → s'.lock = some (.handler i))
    (hothers : s'.lock = s.lock ∨ ∀ j pcj, j ≠ i → s.handlers[j]? = some pcj → pcj.critical = false) : Inv s' g := by
  refine h.advance hpc hrun hh hk.unload (h.stage.move hpc hne hh hk.objects hk.installed hk.baseline)
    (h.running_stage hpc hrun) hfits hlock (hothers.imp (fun hl => ⟨hl, rfl⟩) fun ho => ⟨ho, id⟩) ?_
  rw [hk.decisions]
  exact fun d hd => (h.decisions d hd).keep hpc hrun hh hk.objects

theorem Stage.At.installed (h : g.At s) {id : ℕ} (hb : s.processCreateGoodStackTrace = some id) : g = .installed ∧ id = 0 := by
  cases g with
  | installed =>
    refine ⟨rfl, ?_⟩
    rw [h.2.2] at hb
    exact (Option.some.inj hb).symm
  | absent =>
    rw [h.2.2] at hb
    cases hb
  | created j =>
    rw [h.2.2.1] at hb
    cases hb
  | deleted =>
    rw [h.2.2] at hb
    cases hb

theorem Inv.undecided (h : Inv s g) (hg : g ≠ .installed) (hg' : g ≠ .deleted) {d : Decision w} (hd : d ∈ s.decisions) : False := by
  rcases (h.decisions d hd).stage with hs | hs
  · exact hg hs
  · exact hg' hs

theorem getElem?_goto (hpc : s.handlers[i]? = some pc) : (s.handlers.set i pc')[i]? = some pc' :=
  List.getElem?_set_self (List.getElem?_eq_some_iff.mp hpc).1

theorem Inv.lock (h : Inv s g) {stacktrace : StackTrace w} (hpc : s.handlers[i]? = some (.lock stacktrace)) (hfree : s.lock = none) :
    Inv ((s.setLock (some (.handler i))).goto i (.check stacktrace)) g := by
  have hothers : ∀ j pcj, j ≠ i → s.handlers[j]? = some pcj → pcj.critical = false := by
    intro j pcj _ hj
    by_contra hc
    have hlock := h.critical j pcj hj (by simpa using hc)
    rw [hfree] at hlock
    cases hlock
  exact h.goes hpc rfl (by simp) rfl {} trivial (fun _ => rfl) (.inr hothers)

theorem Inv.check (h : Inv s g) {stacktrace : StackTrace w} (hpc : s.handlers[i]? = some (.check stacktrace)) :
    Inv (s.goto i (if s.processCreateGoodStackTrace.isSome then .unlock stacktrace else .create stacktrace)) g := by
  have hcritical := h.critical i _ hpc rfl
  have hg := h.running_stage hpc rfl
  refine h.goes hpc rfl (by simp) rfl {} ?_ (fun _ => hcritical) (.inl rfl)
  split
  · trivial
  · rename_i hnone
    have hstage := h.stage
    cases g with
    | absent => rfl
    | installed => simp [hstage.2.2] at hnone
    | deleted => exact absurd rfl hg
    | created j =>
      -- the handler that created it holds the lock
      obtain ⟨-, -, -, stacktrace', hj⟩ := hstage
      have hlock := h.critical j _ hj rfl
      rw [hcritical] at hlock
      cases hlock
      rw [hpc] at hj
      cases hj

theorem Inv.create (h : Inv s g) {stacktrace : StackTrace w} (hpc : s.handlers[i]? = some (.create stacktrace))
    (frames : Frames w) : Inv ((s.newStackTrace m frames).goto i (.install stacktrace (some s.objects.length))) (.created i) := by
  have hg : g = .absent := h.fits i _ hpc
  subst hg
  obtain ⟨hobjects, hinstalled, hnone⟩ := h.stage
  have hlength : s.objects.length = 0 := by rw [hobjects]; rfl
  refine h.advance hpc rfl rfl rfl ?_ (by simp) ⟨hlength, rfl⟩ (fun _ => h.critical i _ hpc rfl)
    (.inr ⟨h.others hpc rfl, by simp⟩) fun d hd => (h.undecided (by simp) (by simp) hd).elim
  refine ⟨⟨StackTrace.new m frames, ?_⟩, hinstalled, hnone, stacktrace, ?_⟩
  · show s.objects ++ _ = _
    rw [hobjects]
    rfl
  · rw [hlength]
    exact getElem?_goto hpc

theorem Inv.create_none (h : Inv s g) {stacktrace : StackTrace w} (hpc : s.handlers[i]? = some (.create stacktrace)) :
    Inv (s.goto i (.install stacktrace none)) g := by
  have hg : g = .absent := h.fits i _ hpc
  exact h.goes hpc rfl (by simp) rfl {} hg (fun _ => h.critical i _ hpc rfl) (.inl rfl)

theorem Inv.install (h : Inv s g) {stacktrace : StackTrace w} {object : Option ℕ}
    (hpc : s.handlers[i]? = some (.install stacktrace object)) :
    ∃ g', Inv ((s.setBaseline object).goto i (.unlock stacktrace)) g' := by
  have hfits := h.fits i _ hpc
  have hcritical := h.critical i _ hpc rfl
  cases object with
  | none =>
    have hg : g = .absent := hfits
    subst hg
    obtain ⟨hobjects, hinstalled, -⟩ := h.stage
    refine ⟨.absent, h.advance hpc rfl rfl rfl ?_ (by simp) trivial (fun _ => hcritical) (.inl ⟨rfl, rfl⟩)
      fun d hd => (h.decisions d hd).keep hpc rfl rfl rfl⟩
    exact ⟨hobjects, by show s.installed ++ [] = []; rw [hinstalled]; rfl, rfl⟩
  | some id =>
    obtain ⟨rfl, rfl⟩ : id = 0 ∧ g = .created i := hfits
    obtain ⟨hobjects, hinstalled, -⟩ := h.stage
    refine ⟨.installed, h.advance hpc rfl rfl rfl ?_ (by simp) trivial (fun _ => hcritical)
      (.inr ⟨h.others hpc rfl, by simp⟩) fun d hd => (h.undecided (by simp) (by simp) hd).elim⟩
    exact ⟨hobjects, by show s.installed ++ [0] = [0]; rw [hinstalled]; rfl, rfl⟩

theorem Inv.unlock (h : Inv s g) {stacktrace : StackTrace w} (hpc : s.handlers[i]? = some (.unlock stacktrace)) :
    Inv ((s.setLock none).goto i (.test stacktrace)) g :=
  h.goes hpc rfl (by simp) rfl {} trivial (fun hc => nomatch hc) (.inr (h.others hpc rfl))

theorem Inv.test (h : Inv s g) {stacktrace : StackTrace w} (hpc : s.handlers[i]? = some (.test stacktrace)) :
    Inv (s.goto i (if s.processCreateGoodStackTrace.isSome then .load stacktrace else .noBaseline)) g := by
  refine h.goes hpc rfl (by simp) rfl {} ?_ ?_ (.inl rfl)
  · split
    · rename_i hsome
      obtain ⟨id, hid⟩ := Option.isSome_iff_exists.mp hsome
      exact (h.stage.installed hid).1
    · trivial
  · intro hc
    split at hc <;> cases hc

theorem Inv.load (h : Inv s g) {stacktrace : StackTrace w} (hpc : s.handlers[i]? = some (.load stacktrace)) :
    Inv (s.goto i (.compare stacktrace s.processCreateGoodStackTrace)) g := by
  have hg : g = .installed := h.fits i _ hpc
  subst hg
  exact h.goes hpc rfl (by simp) rfl {} ⟨rfl, h.stage.2.2⟩ (fun hc => nomatch hc) (.inl rfl)

theorem Inv.compare (h : Inv s g) {stacktrace : StackTrace w} {t : StackTrace w}
    (hpc : s.handlers[i]? = some (.compare stacktrace (some 0))) (hg : g = .installed) (ht : s.objects[0]? = some ⟨t, 0⟩) :
    Inv ((s.compare i stacktrace 0 ⟨t, 0⟩).goto i .decided) g := by
  refine h.advance hpc rfl rfl rfl (h.stage.move hpc (by simp) rfl rfl rfl rfl) (by rw [hg]; simp) trivial
    (fun hc => nomatch hc) (.inl ⟨rfl, rfl⟩) ?_
  intro d hd
  rcases List.mem_append.mp hd with hd | hd
  · exact (h.decisions d hd).keep hpc rfl rfl rfl
  · rw [List.mem_singleton] at hd
    subst hd
    exact ⟨getElem?_goto hpc, .inl hg, rfl, ⟨t, 0⟩, ht, rfl⟩

theorem Inv.handlerStep (h : Inv s g) {captured : Option (Frames w)} (hpc : s.handlers[i]? = some pc)
    (hs : s.handlerStep m i captured pc = some s') : ∃ g', Inv s' g' := by
  cases pc with
  | lock stacktrace =>
    simp only [State.handlerStep] at hs
    split at hs
    · rename_i hfree
      cases hs
      exact ⟨g, h.lock hpc hfree⟩
    · cases hs
  | check stacktrace =>
    cases hs
    exact ⟨g, h.check hpc⟩
  | create stacktrace =>
    cases captured with
    | some frames =>
      cases hs
      exact ⟨.created i, h.create hpc frames⟩
    | none =>
      cases hs
      exact ⟨g, h.create_none hpc⟩
  | install stacktrace object =>
    cases hs
    exact h.install hpc
  | unlock stacktrace =>
    cases hs
    exact ⟨g, h.unlock hpc⟩
  | test stacktrace =>
    cases hs
    exact ⟨g, h.test hpc⟩
  | load stacktrace =>
    cases hs
    exact ⟨g, h.load hpc⟩
  | compare stacktrace object =>
    obtain ⟨rfl, rfl⟩ : g = .installed ∧ object = some 0 := h.fits i _ hpc
    obtain ⟨⟨t, ht⟩, -⟩ := h.stage
    have hget : s.objects[0]? = some ⟨t, 0⟩ := by rw [ht]; rfl
    simp only [State.handlerStep, hget] at hs
    cases hs
    exact ⟨.installed, h.compare hpc rfl hget⟩
  | noBaseline | decided | fault => cases hs

/-! ## New handlers and the unload -/

theorem Inv.threadCreate (h : Inv s g) (stacktrace : StackTrace w) (hu : s.unload = .loaded) :
    Inv { s with handlers := s.handlers ++ [.lock stacktrace] } g := by
  have hcases : ∀ (j : ℕ) (pcj : Pc w), (s.handlers ++ [.lock stacktrace])[j]? = some pcj →
      s.handlers[j]? = some pcj ∨ pcj = .lock stacktrace := by
    intro j pcj hj
    rw [List.getElem?_append] at hj
    split at hj
    · exact .inl hj
    · exact .inr (List.mem_singleton.mp (List.mem_of_getElem? hj))
  have hkeep : ∀ {j : ℕ} {pcj : Pc w}, s.handlers[j]? = some pcj → (s.handlers ++ [.lock stacktrace])[j]? = some pcj := by
    intro j pcj hj
    rw [List.getElem?_append_left (List.getElem?_eq_some_iff.mp hj).1]
    exact hj
  refine ⟨?_, ?_, ?_, fun _ _ _ _ => .inl hu, h.unloadLock, h.deleted, h.unloaded, ?_⟩
  · have hstage := h.stage
    cases g with
    | created j =>
      obtain ⟨ht, hinstalled, hnone, stacktrace', hj⟩ := hstage
      exact ⟨ht, hinstalled, hnone, stacktrace', hkeep hj⟩
    | absent | installed | deleted => exact hstage
  · intro j pcj hj
    rcases hcases j pcj hj with hj | rfl
    · exact h.fits j pcj hj
    · trivial
  · intro j pcj hj hc
    rcases hcases j pcj hj with hj | rfl
    · exact h.critical j pcj hj hc
    · cases hc
  · intro d hd
    have hr := h.decisions d hd
    exact ⟨hkeep hr.decided, hr.stage, hr.object, hr.hollow⟩

theorem Pc.Fits.finished (h : pc.Fits g i) (hf : pc.finished = true) : pc.Fits g' i := by
  cases pc with
  | noBaseline | decided => trivial
  | fault => exact h
  | lock | check | create | install | unlock | test | load | compare => cases hf

theorem Pc.critical_of_finished (hf : pc.finished = true) : pc.critical = false := by
  cases pc with
  | noBaseline | decided | fault => rfl
  | lock | check | create | install | unlock | test | load | compare => cases hf

def State.Idle (s : State w) : Prop := ∀ (i : ℕ) (pc : Pc w), s.handlers[i]? = some pc → pc.finished = true

theorem Inv.idle (h : Inv s g) (hl : s.unload ≠ .loaded) (hr : s.unload ≠ .removing) : s.Idle := by
  intro i pc hpc
  by_contra hf
  rcases h.running i pc hpc (by simpa using hf) with hu | hu
  · exact hl hu
  · exact hr hu

theorem Inv.unloading (h : Inv s g) (hidle : s.Idle)
    (hh : s'.handlers = s.handlers) (hstage : g'.At s')
    (hlock : s'.unload = .locked ∨ s'.unload = .uninitialized → s'.lock = some .unload)
    (hdeleted : g' = .deleted → s'.unload = .uninitialized ∨ s'.unload = .unloaded)
    (hunloaded : s'.unload = .uninitialized ∨ s'.unload = .unloaded → g' = .absent ∨ g' = .deleted)
    (hdecisions : ∀ d ∈ s'.decisions, Right s' g' d) : Inv s' g' := by
  refine ⟨hstage, ?_, ?_, ?_, hlock, hdeleted, hunloaded, hdecisions⟩ <;> intro i pc hpc <;> rw [hh] at hpc
  · exact (h.fits i pc hpc).finished (hidle i pc hpc)
  · intro hc
    rw [Pc.critical_of_finished (hidle i pc hpc)] at hc
    cases hc
  · intro hf
    rw [hidle i pc hpc] at hf
    cases hf

theorem Inv.uninitBaseline (h : Inv s g) (hu : s.unload = .locked) : ∃ g', Inv s.uninitBaseline g' := by
  have hidle := h.idle (by simp [hu]) (by simp [hu])
  have hlock := h.unloadLock (.inl hu)
  have hstage := h.stage
  cases g with
  | absent =>
    have hs : s.uninitBaseline = { s with unload := .uninitialized } := by
      unfold State.uninitBaseline
      rw [hstage.2.2]
    rw [hs]
    exact ⟨.absent, h.unloading hidle rfl hstage (fun _ => hlock) (fun hg => nomatch hg) (fun _ => .inl rfl)
      fun d hd => (h.undecided (by simp) (by simp) hd).elim⟩
  | created i =>
    obtain ⟨-, -, -, stacktrace, hi⟩ := hstage
    have hf := hidle i _ hi
    cases hf
  | installed =>
    obtain ⟨⟨t, ht⟩, hinstalled, hsome⟩ := hstage
    have hs : s.uninitBaseline = { s.deleteObject 0 with processCreateGoodStackTrace := none, unload := .uninitialized } := by
      unfold State.uninitBaseline
      rw [hsome]
    have hobjects : (s.deleteObject 0).objects = [⟨t, 1⟩] := by
      unfold State.deleteObject
      rw [ht]
      rfl
    rw [hs]
    refine ⟨.deleted, h.unloading hidle rfl ⟨⟨t, hobjects⟩, hinstalled, rfl⟩ (fun _ => hlock) (fun _ => .inl rfl)
      (fun _ => .inr rfl) ?_⟩
    intro d hd
    obtain ⟨hdecided, -, hobject, o, ho, hhollow⟩ := h.decisions d hd
    rw [ht] at ho
    obtain rfl : (⟨t, 0⟩ : Object w) = o := Option.some.inj ho
    exact ⟨hdecided, .inr rfl, hobject, ⟨t, 1⟩, by show (s.deleteObject 0).objects[0]? = _; rw [hobjects]; rfl, hhollow⟩
  | deleted =>
    rcases h.deleted rfl with hd | hd <;> rw [hu] at hd <;> cases hd

theorem unloadStep_cases (hs : s.unloadStep = some s') :
    s.unload = .loaded ∧ s' = { s with unload := .removing } ∨
    s.unload = .removing ∧ (∀ pc ∈ s.handlers, pc.finished = true) ∧ s' = { s with unload := .removed } ∨
    s.unload = .removed ∧ s.lock = none ∧ s' = { s.setLock (some .unload) with unload := .locked } ∨
    s.unload = .locked ∧ s' = s.uninitBaseline ∨
    s.unload = .uninitialized ∧ s' = { s.setLock none with unload := .unloaded } := by
  unfold State.unloadStep at hs
  cases hu : s.unload <;> rw [hu] at hs <;> simp only [] at hs
  case loaded =>
    cases hs
    exact .inl ⟨rfl, rfl⟩
  case removing =>
    split at hs <;> cases hs
    exact .inr (.inl ⟨rfl, List.all_eq_true.mp ‹_›, rfl⟩)
  case removed =>
    split at hs <;> cases hs
    exact .inr (.inr (.inl ⟨rfl, ‹_›, rfl⟩))
  case locked =>
    cases hs
    exact .inr (.inr (.inr (.inl ⟨rfl, rfl⟩)))
  case uninitialized =>
    cases hs
    exact .inr (.inr (.inr (.inr ⟨rfl, rfl⟩)))
  case unloaded => cases hs

theorem Inv.unloadStep (h : Inv s g) (hs : s.unloadStep = some s') : ∃ g', Inv s' g' := by
  have hdecisions : ∀ d ∈ s.decisions, ∀ u lock, Right { s with lock := lock, unload := u } g d := fun d hd _ _ =>
    have hr := h.decisions d hd
    ⟨hr.decided, hr.stage, hr.object, hr.hollow⟩
  have hearly : s.unload ≠ .uninitialized → s.unload ≠ .unloaded → g ≠ .deleted := by
    rintro hne hne' hg
    rcases h.deleted hg with hd | hd
    · exact hne hd
    · exact hne' hd
  rcases unloadStep_cases hs with ⟨hu, rfl⟩ | ⟨hu, hall, rfl⟩ | ⟨hu, -, rfl⟩ | ⟨hu, rfl⟩ | ⟨hu, rfl⟩
  · have hg := hearly (by simp [hu]) (by simp [hu])
    exact ⟨g, h.stage, h.fits, h.critical, fun _ _ _ _ => .inr rfl, (fun hl => by simp at hl), (fun hd => absurd hd hg),
      (fun hl => by simp at hl), fun d hd => hdecisions d hd _ _⟩
  · have hg := hearly (by simp [hu]) (by simp [hu])
    have hidle : s.Idle := fun i pc hpc => hall pc (List.mem_of_getElem? hpc)
    exact ⟨g, h.unloading hidle rfl h.stage (fun hl => by simp at hl) (fun hd => absurd hd hg) (fun hl => by simp at hl)
      fun d hd => hdecisions d hd _ _⟩
  · have hg := hearly (by simp [hu]) (by simp [hu])
    exact ⟨g, h.unloading (h.idle (by simp [hu]) (by simp [hu])) rfl h.stage (fun _ => rfl) (fun hd => absurd hd hg)
      (fun hl => by simp at hl) fun d hd => hdecisions d hd _ _⟩
  · exact h.uninitBaseline hu
  · exact ⟨g, h.unloading (h.idle (by simp [hu]) (by simp [hu])) rfl h.stage (fun hl => by simp at hl) (fun _ => .inr rfl)
      (fun _ => h.unloaded (.inl hu)) fun d hd => hdecisions d hd _ _⟩

theorem Inv.step (h : Inv s g) {a : Act w} (hs : s.step m a = some s') : ∃ g', Inv s' g' := by
  cases a with
  | threadCreate frames =>
    simp only [State.step] at hs
    split at hs
    · rename_i hu
      cases hs
      exact ⟨g, h.threadCreate _ hu⟩
    · cases hs
  | handler i captured =>
    obtain ⟨pc, hpc, hs⟩ := Option.bind_eq_some_iff.mp hs
    exact h.handlerStep hpc hs
  | unload => exact h.unloadStep hs

end

theorem inv_init : Inv ({} : State w) .absent where
  stage := ⟨rfl, rfl, rfl⟩
  fits i pc hpc := by simp at hpc
  critical i pc hpc := by simp at hpc
  running i pc hpc := by simp at hpc
  unloadLock hl := by simp at hl
  deleted hd := by cases hd
  unloaded _ := .inl rfl
  decisions d hd := by simp at hd

theorem inv_reachable {s : State w} (h : (driver m).Reachable s) : ∃ g, Inv s g := by
  refine System.Reachable.invariant (I := fun s => ∃ g, Inv s g) (fun s hs => ?_) (fun s a t ⟨g, hg⟩ hst => hg.step hst) h
  obtain rfl : s = {} := hs
  exact ⟨.absent, inv_init⟩

/-! ## A handler that runs alone -/

/-- The baseline as `FltpHandleThreadCreate` sees it. -/
def State.baseline (s : State w) : Option (StackTrace w) :=
  (s.processCreateGoodStackTrace.bind fun id => s.objects[id]?).map Object.trace

theorem path_handler {s t u : State w} {i : ℕ} {pc : Pc w} (captured : Option (Frames w))
    (h : (driver m).Path (fun _ _ => True) s t) (hpc : t.handlers[i]? = some pc) (hs : t.handlerStep m i captured pc = some u) :
    (driver m).Path (fun _ _ => True) s u := by
  refine h.snoc (a := .handler i captured) trivial ?_
  show t.handlers[i]?.bind (t.handlerStep m i captured) = some u
  rw [hpc]
  exact hs

section
variable {s : State w} {i : ℕ} {stacktrace : StackTrace w}

/-- The handler runs to the check after the lock; the baseline is then `good`. -/
structure ChecksTo (m : NtModule w) (s : State w) (i : ℕ) (stacktrace : StackTrace w) (good : Option (StackTrace w))
    (t : State w) : Prop where
  path : (driver m).Path (fun _ _ => True) s t
  test : t.handlers[i]? = some (.test stacktrace)
  baseline : t.baseline = good
  decisions : t.decisions = s.decisions
  live : ∀ id, t.processCreateGoodStackTrace = some id → ∃ o, t.objects[id]? = some ⟨o, 0⟩

theorem handlers_set {pc₀ : Pc w} (hpc : s.handlers[i]? = some pc₀) (l : List (Pc w)) (pc : Pc w)
    (hl : l.length = s.handlers.length) : (l.set i pc)[i]? = some pc := by
  have hlt := (List.getElem?_eq_some_iff.mp hpc).1
  exact List.getElem?_set_self (by omega)

theorem path_check (hpc : s.handlers[i]? = some (.lock stacktrace)) (hfree : s.lock = none) (captured : Option (Frames w)) :
    (driver m).Path (fun _ _ => True) s (((s.setLock (some (.handler i))).goto i (.check stacktrace)).goto i
      (if s.processCreateGoodStackTrace.isSome then .unlock stacktrace else .create stacktrace)) := by
  have h1 : (driver m).Path (fun _ _ => True) s ((s.setLock (some (.handler i))).goto i (.check stacktrace)) :=
    path_handler captured .refl hpc (by simp [State.handlerStep, hfree])
  exact path_handler captured h1 (handlers_set hpc _ _ rfl) rfl

theorem check_existing (hpc : s.handlers[i]? = some (.lock stacktrace)) (hfree : s.lock = none) {id : ℕ} {o : StackTrace w}
    (hb : s.processCreateGoodStackTrace = some id) (ho : s.objects[id]? = some ⟨o, 0⟩) :
    ∃ t, ChecksTo m s i stacktrace (some o) t := by
  have h2 := path_check (m := m) hpc hfree none
  simp only [hb, Option.isSome_some, if_true] at h2
  have h3 := path_handler none h2 (handlers_set hpc _ _ (by simp [State.goto, State.setLock])) rfl
  refine ⟨_, h3, handlers_set hpc _ _ (by simp [State.setLock, State.goto]), ?_, rfl, ?_⟩
  · simp [State.baseline, State.setLock, State.goto, hb, ho]
  · intro id' hid
    obtain rfl : id = id' := Option.some.inj (hb.symm.trans hid)
    exact ⟨o, ho⟩

theorem check_captured (hpc : s.handlers[i]? = some (.lock stacktrace)) (hfree : s.lock = none)
    (hb : s.processCreateGoodStackTrace = none) (frames : Frames w) :
    ∃ t, ChecksTo m s i stacktrace (some (StackTrace.new m frames)) t := by
  have h2 := path_check (m := m) hpc hfree (some frames)
  simp only [hb, Option.isSome_none, Bool.false_eq_true, if_false] at h2
  have h3 := path_handler (some frames) h2 (handlers_set hpc _ _ (by simp [State.goto, State.setLock])) rfl
  have h4 := path_handler (some frames) h3 (handlers_set hpc _ _ (by simp [State.newStackTrace, State.goto, State.setLock])) rfl
  have h5 := path_handler (some frames) h4
    (handlers_set hpc _ _ (by simp [State.setBaseline, State.newStackTrace, State.goto, State.setLock])) rfl
  refine ⟨_, h5, handlers_set hpc _ _ (by simp [State.setLock, State.setBaseline, State.newStackTrace, State.goto]), ?_, rfl, ?_⟩
  · simp [State.baseline, State.setLock, State.setBaseline, State.newStackTrace, State.goto]
  · intro id hid
    obtain rfl : s.objects.length = id := Option.some.inj hid
    exact ⟨StackTrace.new m frames, by simp [State.setLock, State.setBaseline, State.newStackTrace, State.goto]⟩

theorem check_failed (hpc : s.handlers[i]? = some (.lock stacktrace)) (hfree : s.lock = none)
    (hb : s.processCreateGoodStackTrace = none) : ∃ t, ChecksTo m s i stacktrace none t := by
  have h2 := path_check (m := m) hpc hfree none
  simp only [hb, Option.isSome_none, Bool.false_eq_true, if_false] at h2
  have h3 := path_handler none h2 (handlers_set hpc _ _ (by simp [State.goto, State.setLock])) rfl
  have h4 := path_handler none h3 (handlers_set hpc _ _ (by simp [State.goto, State.setLock])) rfl
  have h5 := path_handler none h4 (handlers_set hpc _ _ (by simp [State.setBaseline, State.goto, State.setLock])) rfl
  refine ⟨_, h5, handlers_set hpc _ _ (by simp [State.setLock, State.setBaseline, State.goto]), ?_, rfl, ?_⟩
  · simp [State.baseline, State.setLock, State.setBaseline, State.goto]
  · intro id hid
    cases hid

/-- The part of a handler under the lock is `FltpCheckAndSetGlobalStackTrace`. -/
theorem check_alone (hpc : s.handlers[i]? = some (.lock stacktrace)) (hfree : s.lock = none) {d : DrvData w} (hnt : d.nt = m)
    (hd : d.processCreateGoodStackTrace = s.baseline)
    (hlive : ∀ id, s.processCreateGoodStackTrace = some id → ∃ t, s.objects[id]? = some ⟨t, 0⟩) (captured : Option (Frames w)) :
    ∃ t, ChecksTo m s i stacktrace (fltpCheckAndSetGlobalStackTrace d captured).processCreateGoodStackTrace t := by
  unfold fltpCheckAndSetGlobalStackTrace
  cases hb : s.processCreateGoodStackTrace with
  | some id =>
    obtain ⟨o, ho⟩ := hlive id hb
    have hgood : d.processCreateGoodStackTrace = some o := by simp [hd, State.baseline, hb, ho]
    simp only [hgood]
    exact check_existing hpc hfree hb ho
  | none =>
    have hgood : d.processCreateGoodStackTrace = none := by simp [hd, State.baseline, hb]
    simp only [hgood]
    cases captured with
    | some frames =>
      rw [← hnt]
      exact check_captured hpc hfree hb frames
    | none => exact check_failed hpc hfree hb

/-- What follows is the check for a hollow process. -/
theorem decide_alone (hpc : s.handlers[i]? = some (.test stacktrace)) {d : DrvData w}
    (hd : s.baseline = d.processCreateGoodStackTrace)
    (hlive : ∀ id, s.processCreateGoodStackTrace = some id → ∃ t, s.objects[id]? = some ⟨t, 0⟩) :
    ∃ t, (driver m).Path (fun _ _ => True) s t ∧ t.baseline = s.baseline ∧
      match hollowCheck d stacktrace with
      | .checked hollow => t.handlers[i]? = some .decided ∧ ∃ id, t.decisions = s.decisions ++ [⟨i, stacktrace, id, hollow⟩]
      | _ => t.handlers[i]? = some .noBaseline ∧ t.decisions = s.decisions := by
  have h1 := path_handler (m := m) none .refl hpc rfl
  cases hb : s.processCreateGoodStackTrace with
  | some id =>
    obtain ⟨o, ho⟩ := hlive id hb
    have hgood : d.processCreateGoodStackTrace = some o := by rw [← hd]; simp [State.baseline, hb, ho]
    simp only [hb, Option.isSome_some, if_true] at h1
    have h2 := path_handler none h1 (handlers_set hpc _ _ rfl) rfl
    simp only [State.goto, hb] at h2
    have h3 := path_handler (u := (s.compare i stacktrace id ⟨o, 0⟩).goto i .decided) none h2 (handlers_set hpc _ _ (by simp))
      (by simp [State.handlerStep, ho, State.goto, State.compare, hb])
    unfold hollowCheck
    rw [hgood]
    exact ⟨_, h3, rfl, handlers_set hpc _ _ rfl, id, rfl⟩
  | none =>
    have hgood : d.processCreateGoodStackTrace = none := by rw [← hd]; simp [State.baseline, hb]
    simp only [hb, Option.isSome_none, Bool.false_eq_true, if_false] at h1
    unfold hollowCheck
    rw [hgood]
    exact ⟨_, h1, rfl, handlers_set hpc _ _ rfl, rfl⟩

/-- In every state with the lock free, a handler that runs alone does what
`FltpHandleThreadCreate` does. -/
theorem handler_alone (h : (driver m).Reachable s) (hpc : s.handlers[i]? = some (.lock stacktrace)) (hfree : s.lock = none)
    {d : DrvData w} (hnt : d.nt = m) (hd : d.processCreateGoodStackTrace = s.baseline) (captured : Option (Frames w)) :
    ∃ t, (driver m).Path (fun _ _ => True) s t ∧
      t.baseline = (fltpCheckAndSetGlobalStackTrace d captured).processCreateGoodStackTrace ∧
      match hollowCheck (fltpCheckAndSetGlobalStackTrace d captured) stacktrace with
      | .checked hollow => t.handlers[i]? = some .decided ∧ ∃ id, t.decisions = s.decisions ++ [⟨i, stacktrace, id, hollow⟩]
      | _ => t.handlers[i]? = some .noBaseline ∧ t.decisions = s.decisions := by
  have hlive : ∀ id, s.processCreateGoodStackTrace = some id → ∃ t, s.objects[id]? = some ⟨t, 0⟩ := by
    intro id hid
    obtain ⟨g, hg⟩ := inv_reachable h
    obtain ⟨rfl, rfl⟩ := hg.stage.installed hid
    obtain ⟨⟨t, ht⟩, -⟩ := hg.stage
    exact ⟨t, by rw [ht]; rfl⟩
  obtain ⟨t, hst, htest, hbase, hdecisions, htlive⟩ := check_alone hpc hfree hnt hd hlive captured
  obtain ⟨u, htu, hubase, hu⟩ := decide_alone (m := m) htest hbase htlive
  rw [hdecisions] at hu
  exact ⟨u, hst.trans htu, hubase.trans hbase, hu⟩

end

end Dmsk.Baseline
