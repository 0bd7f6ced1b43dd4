import Dmsk.LinkedListSound

/-!
# The process collector

`ProcessCollector.cpp` and `Process.hpp`: the processes created since the
driver was loaded, as a linked list of records. `Records c rs` says which
records the list holds, in order, and each operation is described by what it
does to them.
-/

namespace Dmsk

variable {w : ℕ} {β : Type}

structure Process (w : ℕ) where
  pid : Handle w
  wasMainThreadCreated : Bool
deriving DecidableEq, Repr

structure ProcessCollector (w : ℕ) where
  heap : Heap w (Process w)
  activeProcesses : LinkedList w

/-- The object at `a`, as the cast of a pointer to an entry reaches it. -/
def getObject (h : Heap w β) (a : Addr w) : Except Fault β := do
  match (← load h a).object with
  | some o => return o
  | none => .error .accessViolation

def modifyObject (h : Heap w β) (a : Addr w) (f : β → β) : Except Fault (Heap w β) := do
  let o ← getObject h a
  store h a ({ · with object := some (f o) })

namespace ProcessCollector

/-- `InsertProcess`, with what `new Process` returns: `none` when it fails. -/
def insertProcess (c : ProcessCollector w) (process : Option (Addr w)) (pid : Handle w) :
    Except Fault (ProcessCollector w) :=
  match process with
  | none => return c
  | some process => do
    let (h, list) ← insertTail (construct c.heap process (some ⟨pid, false⟩)) c.activeProcesses process
    return ⟨h, list⟩

def findProcessUnsafe (c : ProcessCollector w) (pid : Handle w) : Except Fault (Option (Addr w)) :=
  iterate c.heap c.activeProcesses none fun it _ => do
    let process ← getObject c.heap it
    return if process.pid = pid then .done (some it) else .yield none

def terminateProcess (c : ProcessCollector w) (pid : Handle w) : Except Fault (ProcessCollector w) := do
  match ← c.findProcessUnsafe pid with
  | none => return c
  | some process =>
    let (h, list) ← removeEntry c.heap c.activeProcesses process
    let h ← delete h process
    return ⟨h, list⟩

def getProcess (c : ProcessCollector w) (pid : Handle w) : Except Fault (Option (Addr w)) :=
  c.findProcessUnsafe pid

def wasMainThreadCreated (c : ProcessCollector w) (process : Addr w) : Except Fault Bool := do
  return (← getObject c.heap process).wasMainThreadCreated

def setMainThreadCreated (c : ProcessCollector w) (process : Addr w) : Except Fault (ProcessCollector w) := do
  let h ← modifyObject c.heap process ({ · with wasMainThreadCreated := true })
  return ⟨h, c.activeProcesses⟩

end ProcessCollector

/-! ## Objects in the heap -/

section
variable {h h' : Heap w β} {a : Addr w} {o : β}

theorem getObject_ok (ha : objects h a = some (some o)) : getObject h a = .ok o := by
  obtain ⟨e, he, ho⟩ := Option.map_eq_some_iff.mp ha
  rw [getObject, load_ok he, ok_bind, ho]; rfl

theorem modifyObject_ok (ha : objects h a = some (some o)) (f : β → β) :
    ∃ h', modifyObject h a f = .ok h' ∧ flinks h' = flinks h ∧ blinks h' = blinks h ∧
      objects h' a = some (some (f o)) ∧ ∀ b ≠ a, h' b = h b := by
  obtain ⟨e, he, -⟩ := Option.map_eq_some_iff.mp ha
  refine ⟨_, by rw [modifyObject, getObject_ok ha, ok_bind]; exact store_ok he _, ?_, ?_, by simp [objects],
    fun b hb => Function.update_of_ne hb _ _⟩
  · exact (map_update _ _ _ _).trans (Function.update_eq_self_iff.mpr (by simp [he]))
  · exact (map_update _ _ _ _).trans (Function.update_eq_self_iff.mpr (by simp [he]))

end

/-! ## The records -/

/-- The list holds the records `rs`, each at its address. -/
structure Records (c : ProcessCollector w) (rs : List (Addr w × Process w)) : Prop where
  holds : Holds c.heap c.activeProcesses (rs.map Prod.fst)
  object : ∀ r ∈ rs, objects c.heap r.1 = some (some r.2)

namespace Records

variable {c : ProcessCollector w} {rs : List (Addr w × Process w)} {pid : Handle w}

theorem nodup (hc : Records c rs) : (rs.map Prod.fst).Nodup := hc.holds.ring.nodup_xs

theorem unique (hc : Records c rs) {r r' : Addr w × Process w} (hr : r ∈ rs) (hr' : r' ∈ rs) (h : r.1 = r'.1) :
    r = r' := List.inj_on_of_nodup_map hc.nodup hr hr' h

theorem live (hc : Records c rs) {r : Addr w × Process w} (hr : r ∈ rs) : (c.heap r.1).isSome :=
  hc.holds.ring.live (List.mem_cons_of_mem _ (List.mem_map_of_mem hr))

theorem forIn_find {h : Heap w (Process w)} (pid : Handle w) : ∀ {rs : List (Addr w × Process w)},
    (∀ r ∈ rs, objects h r.1 = some (some r.2)) →
    (forIn (rs.map Prod.fst) none fun it _ => do
      let process ← getObject h it
      return if process.pid = pid then .done (some it) else .yield none : Except Fault (Option (Addr w))) =
      .ok ((rs.find? fun r => r.2.pid = pid).map Prod.fst)
  | [], _ => rfl
  | r :: rs, hr => by
    rw [List.map_cons, List.forIn_cons, getObject_ok (hr r (by simp)), ok_bind, pure_bind]
    by_cases hp : r.2.pid = pid
    · simp only [hp, if_true, List.find?_cons_of_pos, decide_true, Option.map_some]; rfl
    · simp only [hp, if_false, decide_false, Bool.false_eq_true, not_false_eq_true, List.find?_cons_of_neg]
      exact forIn_find pid fun r' h' => hr r' (List.mem_cons_of_mem _ h')

theorem findProcessUnsafe_eq (hc : Records c rs) (pid : Handle w) :
    c.findProcessUnsafe pid = .ok ((rs.find? fun r => r.2.pid = pid).map Prod.fst) := by
  rw [ProcessCollector.findProcessUnsafe, iterate_eq hc.holds]
  exact forIn_find pid hc.object

theorem getProcess_eq (hc : Records c rs) (pid : Handle w) :
    c.getProcess pid = .ok ((rs.find? fun r => r.2.pid = pid).map Prod.fst) := hc.findProcessUnsafe_eq pid

/-- A new record goes to the end of the list. Nothing but links of the list is
written elsewhere. -/
theorem insertProcess_ok (hc : Records c rs) {a : Addr w} (ha : c.heap a = none) (pid : Handle w) :
    ∃ c', c.insertProcess (some a) pid = .ok c' ∧ Records c' (rs ++ [(a, ⟨pid, false⟩)]) ∧
      ∀ b ≠ a, (c'.heap b).isSome = (c.heap b).isSome := by
  have hnew : ∀ b ∈ c.activeProcesses.self :: rs.map Prod.fst, b ≠ a := by
    intro b hb hba
    have := hc.holds.ring.live hb
    rw [hba, ha] at this; cases this
  have hl : Holds (construct c.heap a (some ⟨pid, false⟩)) c.activeProcesses (rs.map Prod.fst) :=
    hc.holds.frame fun b hb => Function.update_of_ne (hnew b hb) _ _
  obtain ⟨h', list', he, -, hl', hr⟩ := insertTail_ok hl (constructed_construct _ _ _) fun h => hnew a h rfl
  have hne : ∀ b ≠ a, objects h' b = objects c.heap b := fun b hb => by
    rw [hr.objects]; exact objects_congr (Function.update_of_ne hb _ _)
  refine ⟨⟨h', list'⟩, ?_, ⟨?_, ?_⟩, ?_⟩
  · simp only [ProcessCollector.insertProcess, he, ok_bind]; rfl
  · rwa [List.map_append]
  · intro r hr'
    rcases List.mem_append.mp hr' with hr' | hr'
    · exact (hne _ (hnew _ (List.mem_cons_of_mem _ (List.mem_map_of_mem hr')))).trans (hc.object r hr')
    · rw [List.mem_singleton.mp hr']
      rw [hr.objects]
      simp [construct, objects]
  · intro b hb
    have := congrArg Option.isSome (hne b hb)
    simpa [objects] using this

theorem terminateProcess_ok (hc : Records c rs) (pid : Handle w) :
    ∃ c', c.terminateProcess pid = .ok c' ∧ Records c' (rs.eraseP fun r => r.2.pid = pid) ∧
      (∀ r, rs.find? (fun r => r.2.pid = pid) = some r → c'.heap r.1 = none) ∧
      ∀ b, (∀ r, rs.find? (fun r => r.2.pid = pid) = some r → b ≠ r.1) → (c'.heap b).isSome = (c.heap b).isSome := by
  cases hf : rs.find? fun r => r.2.pid = pid with
  | none =>
    have : rs.eraseP (fun r => r.2.pid = pid) = rs := List.eraseP_of_forall_not (by simpa using hf)
    rw [this]
    refine ⟨c, ?_, hc, (fun _ h => nomatch h), fun _ _ => rfl⟩
    rw [ProcessCollector.terminateProcess, hc.findProcessUnsafe_eq, hf]; rfl
  | some r =>
    obtain ⟨hp, ys, zs, hrs, hys⟩ := List.find?_eq_some_iff_append.mp hf
    have hl := hc.holds
    have hnd := hc.holds.ring.nodup
    rw [hrs, List.map_append, List.map_cons] at hl hnd
    obtain ⟨h1, list', he, hs, hl', hr⟩ := removeEntry_ok _ _ hl
    have hr1 : r.1 ∉ c.activeProcesses.self :: (ys.map Prod.fst ++ zs.map Prod.fst) :=
      (List.nodup_cons.mp ((List.perm_middle.cons _).trans (List.Perm.swap r.1 _ _) |>.nodup_iff.mp hnd)).1
    have hlive : (h1 r.1).isSome := (hr.live _).trans (hc.live (hrs ▸ by simp))
    have hne : ∀ b ≠ r.1, Function.update h1 r.1 none b = h1 b := fun b hb => Function.update_of_ne hb _ _
    have herase : rs.eraseP (fun r => r.2.pid = pid) = ys ++ zs := by
      rw [hrs, List.eraseP_append_right _ (by simpa using hys)]
      exact congrArg (ys ++ ·) (List.eraseP_cons_of_pos hp)
    rw [herase]
    refine ⟨⟨Function.update h1 r.1 none, list'⟩, ?_, ⟨?_, ?_⟩, ?_, ?_⟩
    · rw [ProcessCollector.terminateProcess, hc.findProcessUnsafe_eq, hf, Option.map_some, ok_bind]
      simp only [he, ok_bind, delete_ok hlive]
      rfl
    · rw [List.map_append]
      refine hl'.frame fun b hb => hne b fun hbr => hr1 ?_
      rwa [← hs, ← hbr]
    · intro r' hr'
      have hb : r'.1 ≠ r.1 := by
        refine fun hbr => hr1 (hbr ▸ List.mem_cons_of_mem _ ?_)
        rw [← List.map_append]
        exact List.mem_map_of_mem hr'
      rw [objects_congr (hne _ hb), hr.objects]
      apply hc.object r'
      rw [hrs]
      simp only [List.mem_append, List.mem_cons] at hr' ⊢; tauto
    · intro r' hr'
      cases hr'
      exact Function.update_self _ _ _
    · intro b hb
      exact (congrArg Option.isSome (hne b (hb r rfl))).trans (hr.live b)

theorem wasMainThreadCreated_eq (hc : Records c rs) {r : Addr w × Process w} (hr : r ∈ rs) :
    c.wasMainThreadCreated r.1 = .ok r.2.wasMainThreadCreated := by
  rw [ProcessCollector.wasMainThreadCreated, getObject_ok (hc.object r hr)]; rfl

def setFlag (rs : List (Addr w × Process w)) (a : Addr w) : List (Addr w × Process w) :=
  rs.map fun r => if r.1 = a then (a, { r.2 with wasMainThreadCreated := true }) else r

theorem setFlag_fst (rs : List (Addr w × Process w)) (a : Addr w) : (setFlag rs a).map Prod.fst = rs.map Prod.fst := by
  rw [setFlag, List.map_map]
  apply List.map_congr_left
  intro r _
  by_cases h : r.1 = a <;> simp [h]

theorem setFlag_pid (rs : List (Addr w × Process w)) (a : Addr w) :
    (setFlag rs a).map (·.2.pid) = rs.map (·.2.pid) := by
  rw [setFlag, List.map_map]
  apply List.map_congr_left
  intro r _
  by_cases h : r.1 = a <;> simp [h]

theorem mem_setFlag (hc : Records c rs) {r r' : Addr w × Process w} (hr : r ∈ rs) :
    r' ∈ setFlag rs r.1 ↔ r' = (r.1, { r.2 with wasMainThreadCreated := true }) ∨ r' ∈ rs ∧ r'.1 ≠ r.1 := by
  rw [setFlag, List.mem_map]
  constructor
  · intro hex
    obtain ⟨q, hq, rfl⟩ := hex
    by_cases h : q.1 = r.1
    · rw [hc.unique hq hr h, if_pos rfl]; exact .inl rfl
    · rw [if_neg h]; exact .inr ⟨hq, h⟩
  · intro hor
    rcases hor with rfl | ⟨hq, h⟩
    · exact ⟨r, hr, if_pos rfl⟩
    · exact ⟨r', hq, if_neg h⟩

theorem setMainThreadCreated_ok (hc : Records c rs) {r : Addr w × Process w} (hr : r ∈ rs) :
    ∃ c', c.setMainThreadCreated r.1 = .ok c' ∧ Records c' (setFlag rs r.1) ∧
      ∀ b, (c'.heap b).isSome = (c.heap b).isSome := by
  obtain ⟨h', he, hf, hb, ho, hne⟩ := modifyObject_ok (hc.object r hr) ({ · with wasMainThreadCreated := true })
  refine ⟨⟨h', c.activeProcesses⟩, ?_, ⟨⟨?_, ?_⟩, ?_⟩, ?_⟩
  · rw [ProcessCollector.setMainThreadCreated, he]; rfl
  · rw [setFlag_fst, hf, hb]; exact hc.holds.ring
  · rw [setFlag_fst]; exact hc.holds.count
  · intro r' hr'
    rcases (hc.mem_setFlag hr).mp hr' with rfl | ⟨hq, h⟩
    · exact ho
    · exact (objects_congr (hne _ h)).trans (hc.object r' hq)
  · intro b
    by_cases hbr : b = r.1
    · subst hbr
      have : (flinks h' r.1).isSome = (flinks c.heap r.1).isSome := by rw [hf]
      simpa [flinks] using this
    · exact congrArg Option.isSome (hne b hbr)

end Records

end Dmsk
