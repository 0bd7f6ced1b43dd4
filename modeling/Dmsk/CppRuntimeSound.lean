import Dmsk.CppRuntime
import Mathlib.Data.List.ReduceOption

/-!
# What the C++ runtime does with its registrations

`Entries` says what the list of destructors holds. Calls of `atexit` extend it
at its end (`Extends`), a pass of the loop of `CppCallStaticDestructors` takes
its first entry, and `Inv` accounts for every registration: called and freed,
or still in the list. A registration made while the list is drained is counted
before its entry is, so finitely many of them bound the passes.
-/

namespace Dmsk.Cpp

variable {w : ℕ} {F : Type} {E : Env w F} {s t u : Crt w F} {es new new' : List (Addr w × CppDestructor F)}
  {cs cs' : List F} {pool₀ : Heap w (CppDestructor F)}

/-! ## Histories -/

section
variable (l l' : List (Event F))

@[simp] theorem registrations_append : registrations (l ++ l') = registrations l ++ registrations l' :=
  List.filterMap_append

@[simp] theorem constructions_append : constructions (l ++ l') = constructions l ++ constructions l' :=
  List.filterMap_append

@[simp] theorem destructions_append : destructions (l ++ l') = destructions l ++ destructions l' :=
  List.filterMap_append

@[simp] theorem frees_append : frees (l ++ l') = frees l ++ frees l' := List.filterMap_append

end

def due (r : ℕ × Option F) : Option (ℕ × F) := r.2.map fun f => (r.1, f)

def registration (e : Addr w × CppDestructor F) : ℕ × Option F := (e.2.number, e.2.destructor)

/-! ## Registering -/

structure Entries (E : Env w F) (s : Crt w F) (es : List (Addr w × CppDestructor F)) : Prop where
  ring : IsRing (flinks s.pool) (blinks s.pool) E.gDestructorsList (es.map Prod.fst)
  object : ∀ e ∈ es, objects s.pool e.1 = some (some e.2)

theorem Entries.frame (hs : Entries E s es) (hf : ∀ a ∈ E.gDestructorsList :: es.map Prod.fst, t.pool a = s.pool a) :
    Entries E t es where
  ring := hs.ring.congr (fun a ha => flinks_congr (hf a ha)) fun a ha => blinks_congr (hf a ha)
  object := fun e he => (objects_congr (hf e.1 (List.mem_cons_of_mem _ (List.mem_map_of_mem he)))).trans (hs.object e he)

/-- `t` comes from `s` by registering `new` and constructing `cs`. -/
structure Extends (E : Env w F) (s : Crt w F) (es : List (Addr w × CppDestructor F)) (t : Crt w F)
    (new : List (Addr w × CppDestructor F)) (cs : List F) : Prop where
  entries : Entries E t (es ++ new)
  registered : registrations t.history = registrations s.history ++ new.map registration
  constructed : constructions t.history = constructions s.history ++ cs
  destroyed : destructions t.history = destructions s.history
  freed : frees t.history = frees s.history
  numbers : new.map (·.2.number) = List.range' (registrations s.history).length new.length
  fresh : ∀ e ∈ new, s.pool e.1 = none
  frame : ∀ a ∉ E.gDestructorsList :: (es ++ new).map Prod.fst, t.pool a = s.pool a

theorem Extends.refl (hs : Entries E s es) : Extends E s es s [] [] where
  entries := by rwa [List.append_nil]
  registered := by simp
  constructed := by simp
  destroyed := rfl
  freed := rfl
  numbers := rfl
  fresh := fun _ he => absurd he List.not_mem_nil
  frame := fun _ _ => rfl

theorem Extends.trans (h : Extends E s es t new cs) (h' : Extends E t (es ++ new) u new' cs') :
    Extends E s es u (new ++ new') (cs ++ cs') where
  entries := by rw [← List.append_assoc]; exact h'.entries
  registered := by rw [h'.registered, h.registered]; simp
  constructed := by rw [h'.constructed, h.constructed]; simp
  destroyed := h'.destroyed.trans h.destroyed
  freed := h'.freed.trans h.freed
  numbers := by
    rw [List.map_append, h.numbers, h'.numbers, h.registered, List.length_append, List.length_append, List.length_map,
      List.range'_append_1]
  fresh := by
    intro e he
    rcases List.mem_append.mp he with he | he
    · exact h.fresh e he
    -- what is free in `t` is no node of its list
    · have hnone := h'.fresh e he
      have hnode : e.1 ∉ E.gDestructorsList :: (es ++ new).map Prod.fst := by
        intro hn
        have := h.entries.ring.live hn
        rw [hnone] at this
        cases this
      rw [← h.frame e.1 hnode]
      exact hnone
  frame := by
    intro a ha
    rw [← List.append_assoc] at ha
    have ha' : a ∉ E.gDestructorsList :: (es ++ new).map Prod.fst := by
      intro hn
      apply ha
      rw [List.map_append, ← List.cons_append]
      exact List.mem_append_left _ hn
    exact (h'.frame a ha).trans (h.frame a ha')

theorem atexit_none (d : Option F) (ha : E.exAllocatePoolWithTag s.history s.pool = none) :
    ∃ l, atexit E s d = .ok (⟨s.pool, s.history ++ l⟩, -1) ∧ registrations l = [] ∧ constructions l = [] ∧
      destructions l = [] ∧ frees l = [] := by
  cases hc : E.copy with
  | notificationDriver =>
    refine ⟨[.refused d], ?_, rfl, rfl, rfl, rfl⟩
    simp only [atexit, cppRegisterDestructor, ha, hc]
    rfl
  | procmon =>
    refine ⟨[.assertionFailed, .refused d], ?_, rfl, rfl, rfl, rfl⟩
    simp only [atexit, cppRegisterDestructor, ha, hc]
    rfl

theorem atexit_some (hs : Entries E s es) (d : Option F) {b : Block s.pool}
    (ha : E.exAllocatePoolWithTag s.history s.pool = some b) :
    ∃ t, atexit E s d = .ok (t, 0) ∧
      Extends E s es t [(b.address, ⟨(registrations s.history).length, d⟩)] [] := by
  have hb : b.address ∉ E.gDestructorsList :: es.map Prod.fst := by
    intro hn
    have := hs.ring.live hn
    rw [b.fresh] at this
    cases this
  let o : CppDestructor F := ⟨(registrations s.history).length, d⟩
  let h₁ : Heap w (CppDestructor F) := Function.update s.pool b.address (some { b.contents with object := some o })
  have hne : ∀ {x : Addr w}, x ≠ b.address → h₁ x = s.pool x := fun hx => Function.update_of_ne hx _ _
  have hnode : ∀ x ∈ E.gDestructorsList :: es.map Prod.fst, h₁ x = s.pool x :=
    fun x hx => hne fun hxb => hb (hxb ▸ hx)
  have hs₁ : Entries E ⟨h₁, s.history⟩ es := hs.frame hnode
  obtain ⟨h₂, e₂, r₂, l₂⟩ := insertTailList_ok (h := h₁) (e := b.address) hs₁.ring (by simp [h₁]) hb
  refine ⟨⟨h₂, s.history ++ [.registered o.number d]⟩, ?_, ⟨?_, ?_⟩, ?_, ?_, ?_, ?_, rfl, ?_, ?_⟩
  · simp only [atexit, cppRegisterDestructor, ha]
    rw [show insertTailList _ E.gDestructorsList b.address = _ from e₂, ok_bind]
    rfl
  · simpa using r₂
  · intro e he
    refine (congrFun l₂.objects e.1).trans ?_
    rcases List.mem_append.mp he with he | he
    · exact hs₁.object e he
    · rw [List.mem_singleton] at he
      subst he
      simp [objects, h₁, o]
  · simp [registrations, registration, o]
  · simp [constructions]
  · simp [destructions]
  · simp [frees]
  · intro e he
    rw [List.mem_singleton] at he
    subst he
    exact b.fresh
  · intro x hx
    simp only [List.map_append, List.map_cons, List.map_nil, List.mem_cons, List.mem_append, List.not_mem_nil,
      or_false, not_or] at hx
    have hx₂ : x ∉ b.address :: E.gDestructorsList :: es.map Prod.fst := by
      simp only [List.mem_cons, not_or]; tauto
    exact (l₂.frame x hx₂).trans (hne hx.2.2)

theorem atexit_ok (hs : Entries E s es) (d : Option F) :
    ∃ t r new, atexit E s d = .ok (t, r) ∧ Extends E s es t new [] := by
  cases ha : E.exAllocatePoolWithTag s.history s.pool with
  | none =>
    obtain ⟨l, he, h1, h2, h3, h4⟩ := atexit_none d ha
    refine ⟨_, _, [], he, ?_, ?_, ?_, ?_, ?_, rfl, ?_, ?_⟩
    · rw [List.append_nil]; exact hs.frame fun _ _ => rfl
    · simp [h1]
    · simp [h2]
    · simp [h3]
    · simp [h4]
    · intro e he; cases he
    · intro a _; rfl
  | some b =>
    obtain ⟨t, he, hx⟩ := atexit_some hs d ha
    exact ⟨t, 0, _, he, hx⟩

theorem atexit_result {d : Option F} {r : Int} (h : atexit E s d = .ok (t, r)) :
    (r = 0 ∧ registrations t.history = registrations s.history ++ [((registrations s.history).length, d)]) ∨
      (r = -1 ∧ t.pool = s.pool ∧ registrations t.history = registrations s.history) := by
  cases ha : E.exAllocatePoolWithTag s.history s.pool with
  | none =>
    obtain ⟨l, he, hl, -⟩ := atexit_none d ha
    rw [he] at h
    cases h
    exact .inr ⟨rfl, rfl, by simp [hl]⟩
  | some b =>
    simp only [atexit, cppRegisterDestructor, ha] at h
    cases hi : insertTailList (Function.update s.pool b.address (some { b.contents with
        object := some ⟨(registrations s.history).length, d⟩ })) E.gDestructorsList b.address with
    | error e => rw [hi] at h; cases h
    | ok pool =>
      rw [hi] at h
      cases h
      exact .inl ⟨rfl, by simp [registrations]⟩

theorem runBody_ok : ∀ (b : Body F) {s : Crt w F} {es : List (Addr w × CppDestructor F)}, Entries E s es →
    ∃ t new, runBody E b s = .ok t ∧ Extends E s es t new [] := by
  intro b
  induction b with
  | done => intro s es hs; exact ⟨s, [], rfl, .refl hs⟩
  | atexit d rest ih =>
    intro s es hs
    obtain ⟨t, r, new, e₁, h₁⟩ := atexit_ok hs d
    obtain ⟨u, new', e₂, h₂⟩ := ih r h₁.entries
    refine ⟨u, new ++ new', ?_, h₁.trans h₂⟩
    rw [runBody, e₁, ok_bind]
    exact e₂

theorem call_ok (f : F) (hs : Entries E s es) : ∃ t new, call E f s = .ok t ∧ Extends E s es t new [] :=
  runBody_ok (E.body s.history f) hs

theorem cppCallStaticConstructors_ok : ∀ (table : List (Option F)) {s : Crt w F}
    {es : List (Addr w × CppDestructor F)}, Entries E s es →
    ∃ t new, cppCallStaticConstructors E table s = .ok t ∧ Extends E s es t new table.reduceOption := by
  intro table
  induction table with
  | nil => intro s es hs; exact ⟨s, [], rfl, .refl hs⟩
  | cons slot slots ih =>
    intro s es hs
    cases slot with
    | none =>
      obtain ⟨t, new, e, h⟩ := ih hs
      exact ⟨t, new, e, by rwa [List.reduceOption_cons_of_none]⟩
    | some f =>
      have hs₁ : Entries E ⟨s.pool, s.history ++ [.constructed f]⟩ es := hs.frame fun _ _ => rfl
      have h₁ : Extends E s es ⟨s.pool, s.history ++ [.constructed f]⟩ [] [f] :=
        ⟨by rwa [List.append_nil], by simp [registrations], by simp [constructions], by simp [destructions],
          by simp [frees], rfl, fun _ he => absurd he List.not_mem_nil, fun _ _ => rfl⟩
      obtain ⟨t, new, e₂, h₂⟩ := call_ok f hs₁
      obtain ⟨u, new', e₃, h₃⟩ := ih h₂.entries
      have h₁₂ := h₁.trans (by rw [List.append_nil]; exact h₂)
      refine ⟨u, new ++ new', ?_, ?_⟩
      · rw [cppCallStaticConstructors, e₂, ok_bind, e₃]
      · rw [List.reduceOption_cons_of_some]
        exact h₁₂.trans h₃

/-! ## Draining -/

/-- Every registration was called and freed, waits in the list, or is held by
the pass that took it out; the rest of the pool is as it was before the start. -/
structure Inv (E : Env w F) (pool₀ : Heap w (CppDestructor F)) (s : Crt w F)
    (held es : List (Addr w × CppDestructor F)) : Prop where
  entries : Entries E s es
  numbers : (registrations s.history).map Prod.fst = List.range (registrations s.history).length
  called : destructions s.history ++ (es.map registration).filterMap due = (registrations s.history).filterMap due
  freed : frees s.history ++ (held ++ es).map (·.2.number) = (registrations s.history).map Prod.fst
  live : ∀ e ∈ held, (s.pool e.1).isSome
  apart : ∀ e ∈ held, e.1 ∉ E.gDestructorsList :: es.map Prod.fst
  fresh : ∀ e ∈ held ++ es, pool₀ e.1 = none
  frame : ∀ a ∉ E.gDestructorsList :: (held ++ es).map Prod.fst, s.pool a = pool₀ a

theorem inv_init (E : Env w F) (pool₀ : Heap w (CppDestructor F)) :
    Inv E pool₀ (cppInitializeDestructorsList E ⟨pool₀, []⟩) [] [] := by
  obtain ⟨hn, hp⟩ := constructed_construct pool₀ E.gDestructorsList (some (⟨0, none⟩ : CppDestructor F))
  refine ⟨⟨isRing_nil hn hp, ?_⟩, rfl, rfl, rfl, ?_, ?_, ?_, ?_⟩
  iterate 4
    · intro e he; cases he
  · intro a ha
    exact Function.update_of_ne (by simpa using ha) _ _

theorem map_registration_fst (es : List (Addr w × CppDestructor F)) :
    (es.map registration).map Prod.fst = es.map (·.2.number) := by
  rw [List.map_map]; rfl

section
variable {held : List (Addr w × CppDestructor F)} {a : Addr w} {d : CppDestructor F}

theorem Extends.apart (hx : Extends E s es t new cs) (ha : (s.pool a).isSome)
    (hn : a ∉ E.gDestructorsList :: es.map Prod.fst) : a ∉ E.gDestructorsList :: (es ++ new).map Prod.fst := by
  intro h
  rw [List.map_append, ← List.cons_append] at h
  rcases List.mem_append.mp h with h | h
  · exact hn h
  · obtain ⟨e, he, rfl⟩ := List.mem_map.mp h
    rw [hx.fresh e he] at ha
    cases ha

theorem Inv.extends (hI : Inv E pool₀ s held es) (hx : Extends E s es t new cs) : Inv E pool₀ t held (es ++ new) where
  entries := hx.entries
  numbers := by
    rw [hx.registered, List.map_append, hI.numbers, map_registration_fst, hx.numbers, List.length_append,
      List.length_map, List.range_eq_range', List.range_eq_range', ← List.range'_append_1, Nat.zero_add]
  called := by
    rw [hx.destroyed, hx.registered, List.map_append, List.filterMap_append, List.filterMap_append,
      ← List.append_assoc, hI.called]
  freed := by
    rw [hx.freed, hx.registered, List.map_append (f := Prod.fst), ← hI.freed, map_registration_fst]
    simp only [List.map_append, List.append_assoc]
  live := by
    intro e he
    rw [hx.frame e.1 (hx.apart (hI.live e he) (hI.apart e he))]
    exact hI.live e he
  apart := fun e he => hx.apart (hI.live e he) (hI.apart e he)
  fresh := by
    intro e he
    rw [← List.append_assoc] at he
    rcases List.mem_append.mp he with he | he
    · exact hI.fresh e he
    · have hnone := hx.fresh e he
      have hnode : e.1 ∉ E.gDestructorsList :: (held ++ es).map Prod.fst := by
        intro hn
        simp only [List.map_append, List.mem_cons, List.mem_append] at hn
        rcases hn with hn | hn | hn
        · exact absurd (hI.entries.ring.live (List.mem_cons.mpr (.inl hn))) (by simp [hnone])
        · obtain ⟨e', he', hee⟩ := List.mem_map.mp hn
          exact absurd (hI.live e' he') (by simp [hee, hnone])
        · exact absurd (hI.entries.ring.live (List.mem_cons_of_mem _ hn)) (by simp [hnone])
      rw [← hI.frame e.1 hnode]
      exact hnone
  frame := by
    intro a ha
    simp only [List.map_append, List.mem_cons, List.mem_append, not_or] at ha
    rw [hx.frame a (by simp only [List.map_append, List.mem_cons, List.mem_append, not_or]; tauto)]
    exact hI.frame a (by simp only [List.map_append, List.mem_cons, List.mem_append, not_or]; tauto)

def CppDestructor.calls (d : CppDestructor F) : List (Event F) :=
  match d.destructor with
  | some f => [.destroyed d.number f]
  | none => []

theorem callDestructor_ok (d : CppDestructor F) (hs : Entries E s es) :
    ∃ t new, callDestructor E d s = .ok t ∧ Extends E ⟨s.pool, s.history ++ d.calls⟩ es t new [] := by
  unfold callDestructor CppDestructor.calls
  cases d.destructor with
  | none =>
    refine ⟨s, [], rfl, ?_⟩
    simp only [List.append_nil]
    exact .refl hs
  | some f => exact call_ok f (hs.frame fun _ _ => rfl)

theorem Inv.take (hI : Inv E pool₀ s [] ((a, d) :: es)) :
    ∃ pool, removeHeadList s.pool E.gDestructorsList = .ok (pool, a) ∧ getObject pool a = .ok d ∧
      Entries E ⟨pool, s.history⟩ es ∧ Inv E pool₀ ⟨pool, s.history ++ d.calls⟩ [(a, d)] es := by
  obtain ⟨pool, e₁, r₁, l₁⟩ := removeHeadList_ok hI.entries.ring
  have hobj : ∀ e ∈ (a, d) :: es, objects pool e.1 = some (some e.2) :=
    fun e he => (congrFun l₁.objects e.1).trans (hI.entries.object e he)
  have hnd := hI.entries.ring.nodup
  have hreg : registrations d.calls = [] := by
    unfold CppDestructor.calls
    cases d.destructor <;> rfl
  have hfree : frees d.calls = [] := by
    unfold CppDestructor.calls
    cases d.destructor <;> rfl
  have hcall : destructions d.calls ++ (es.map registration).filterMap due =
      (((a, d) :: es).map registration).filterMap due := by
    unfold CppDestructor.calls
    rw [List.map_cons]
    cases hd : d.destructor with
    | none =>
      have hdue : due (registration (a, d)) = none := by simp [due, registration, hd]
      rw [List.filterMap_cons_none hdue]
      rfl
    | some f =>
      have hdue : due (registration (a, d)) = some (d.number, f) := by simp [due, registration, hd]
      rw [List.filterMap_cons_some hdue]
      rfl
  refine ⟨pool, e₁, getObject_ok (hobj (a, d) (by simp)), ⟨r₁, fun e he => hobj e (by simp [he])⟩,
    ⟨r₁, fun e he => hobj e (by simp [he])⟩, ?_, ?_, ?_, ?_, ?_, hI.fresh, ?_⟩
  · rw [registrations_append, hreg, List.append_nil]; exact hI.numbers
  · rw [registrations_append, hreg, List.append_nil, destructions_append, List.append_assoc, hcall]
    exact hI.called
  · rw [registrations_append, hreg, List.append_nil, frees_append, hfree, List.append_nil]
    exact hI.freed
  · intro e he
    rw [List.mem_singleton] at he
    subst he
    exact (l₁.live a).trans (hI.entries.ring.live (by simp))
  · intro e he
    rw [List.mem_singleton] at he
    subst he
    simp only [List.map_cons, List.nodup_cons, List.mem_cons, not_or] at hnd ⊢
    exact ⟨Ne.symm hnd.1.1, hnd.2.1⟩
  · intro x hx
    have hx' : x ∉ E.gDestructorsList :: es.map Prod.fst := by
      simp only [List.map_append, List.map_cons, List.mem_cons, List.mem_append, not_or] at hx ⊢; tauto
    exact (l₁.frame x hx').trans (hI.frame x hx)

theorem Inv.free (hI : Inv E pool₀ s [(a, d)] es) :
    delete s.pool a = .ok (Function.update s.pool a none) ∧
      Inv E pool₀ ⟨Function.update s.pool a none, s.history ++ [.freed d.number]⟩ [] es := by
  have ha := hI.apart (a, d) (by simp)
  have hreg : registrations (s.history ++ [.freed d.number]) = registrations s.history := by simp [registrations]
  have hdes : destructions (s.history ++ [.freed d.number]) = destructions s.history := by simp [destructions]
  refine ⟨delete_ok (hI.live (a, d) (by simp)), hI.entries.frame ?_, ?_, ?_, ?_, ?_, ?_, ?_, ?_⟩
  · intro x hx
    exact Function.update_of_ne (fun hxa => ha (by rw [← hxa]; exact hx)) _ _
  · rw [hreg]; exact hI.numbers
  · rw [hreg, hdes]; exact hI.called
  · rw [hreg, ← hI.freed]
    simp [frees]
  · intro e he; cases he
  · intro e he; cases he
  · intro e he
    exact hI.fresh e (List.mem_append_right _ he)
  · intro x hx
    by_cases hxa : x = a
    · subst hxa
      exact (Function.update_self _ _ _).trans (hI.fresh (x, d) (by simp)).symm
    · refine (Function.update_of_ne hxa _ _).trans (hI.frame x ?_)
      simp only [List.nil_append, List.map_cons, List.mem_cons, List.map_append, List.mem_append, not_or] at hx ⊢
      simp only [List.map_nil, List.not_mem_nil, not_false_eq_true, and_true]
      exact ⟨hx.1, hxa, hx.2⟩

theorem Inv.pass (hI : Inv E pool₀ s [] ((a, d) :: es)) :
    ∃ t new, Inv E pool₀ t [] (es ++ new) ∧ registrations t.history = registrations s.history ++ new.map registration ∧
      constructions t.history = constructions s.history ∧ frees t.history = frees s.history ++ [d.number] ∧
      ∀ passes, cppCallStaticDestructors E (passes + 1) s = cppCallStaticDestructors E passes t := by
  obtain ⟨pool, e₁, e₂, hs, hI₁⟩ := hI.take
  obtain ⟨u, new, e₃, hx⟩ := callDestructor_ok d hs
  obtain ⟨e₄, hI₂⟩ := (hI₁.extends hx).free
  have hcalls : registrations d.calls = [] ∧ constructions d.calls = [] ∧ frees d.calls = [] := by
    unfold CppDestructor.calls
    cases d.destructor <;> exact ⟨rfl, rfl, rfl⟩
  refine ⟨_, new, hI₂, ?_, ?_, ?_, ?_⟩
  · rw [registrations_append, hx.registered, registrations_append, hcalls.1]; simp [registrations]
  · rw [constructions_append, hx.constructed, constructions_append, hcalls.2.1]; simp [constructions]
  · rw [frees_append, hx.freed, frees_append, hcalls.2.2]; simp [frees]
  · intro passes
    rw [cppCallStaticDestructors, isEmptyList_eq hI.entries.ring, ok_bind, if_neg (by simp), e₁, ok_bind]
    simp only [e₂, ok_bind, e₃, e₄]

end

theorem drain_nil (hI : Inv E pool₀ s [] []) : ∀ passes, cppCallStaticDestructors E passes s = .ok (s, true) := by
  intro passes
  cases passes with
  | zero => rw [cppCallStaticDestructors, isEmptyList_eq hI.entries.ring, ok_bind]; rfl
  | succ passes => rw [cppCallStaticDestructors, isEmptyList_eq hI.entries.ring, ok_bind]; rfl

theorem drain_zero (hI : Inv E pool₀ s [] es) :
    cppCallStaticDestructors E 0 s = .ok (s, decide (es.map Prod.fst = [])) := by
  rw [cppCallStaticDestructors, isEmptyList_eq hI.entries.ring, ok_bind]; rfl

theorem Inv.drain : ∀ (passes : ℕ) {s : Crt w F} {es : List (Addr w × CppDestructor F)}, Inv E pool₀ s [] es →
    ∃ t es' ended more, cppCallStaticDestructors E passes s = .ok (t, ended) ∧ Inv E pool₀ t [] es' ∧
      registrations t.history = registrations s.history ++ more ∧
      constructions t.history = constructions s.history ∧ (ended = true → es' = []) ∧
      (ended = false → (frees t.history).length = (frees s.history).length + passes) := by
  intro passes
  induction passes with
  | zero =>
    intro s es hI
    exact ⟨s, es, _, [], drain_zero hI, hI, by simp, rfl, by simp, by simp⟩
  | succ passes ih =>
    intro s es hI
    cases es with
    | nil => exact ⟨s, [], true, [], drain_nil hI _, hI, by simp, rfl, by simp, by simp⟩
    | cons e es =>
      obtain ⟨t, new, hI₁, hr₁, hc₁, hf₁, he₁⟩ := hI.pass
      obtain ⟨u, es', ended, more, he₂, hI₂, hr₂, hc₂, hend, hf₂⟩ := ih hI₁
      refine ⟨u, es', ended, new.map registration ++ more, ?_, hI₂, ?_, hc₂.trans hc₁, hend, ?_⟩
      · rw [he₁, he₂]
      · rw [hr₂, hr₁, List.append_assoc]
      · intro hb
        rw [hf₂ hb, hf₁, List.length_append, List.length_singleton]
        omega

theorem cppInitializeLib_ok (E : Env w F) (table : List (Option F)) (pool₀ : Heap w (CppDestructor F)) :
    ∃ s es, cppInitializeLib E table pool₀ = .ok s ∧ Inv E pool₀ s [] es ∧
      constructions s.history = table.reduceOption ∧ destructions s.history = [] ∧ frees s.history = [] := by
  have h₀ := inv_init E pool₀
  obtain ⟨s, new, e, hx⟩ := cppCallStaticConstructors_ok table h₀.entries
  exact ⟨s, [] ++ new, e, h₀.extends hx, hx.constructed, hx.destroyed, hx.freed⟩

theorem Inv.bounded : ∀ (passes : ℕ) {s u : Crt w F} {es : List (Addr w × CppDestructor F)} {b : Bool}, Inv E pool₀ s [] es →
    cppCallStaticDestructors E passes s = .ok (u, b) → ∀ {k : ℕ} {t : Crt w F},
      cppCallStaticDestructors E k s = .ok (t, true) →
        (registrations u.history).length ≤ (registrations t.history).length := by
  intro passes
  induction passes with
  | zero =>
    intro s u es b hI hu k t ht
    rw [drain_zero hI] at hu
    cases hu
    obtain ⟨t', _, _, more, he, _, hr, _⟩ := hI.drain k
    rw [he] at ht
    cases ht
    rw [hr, List.length_append]
    omega
  | succ passes ih =>
    intro s u es b hI hu k t ht
    cases es with
    | nil =>
      rw [drain_nil hI] at hu ht
      cases hu
      cases ht
      exact le_refl _
    | cons e es =>
      obtain ⟨s', new, hI', -, -, -, he⟩ := hI.pass
      rw [he] at hu
      cases k with
      | zero => rw [drain_zero hI] at ht; simp at ht
      | succ k =>
        rw [he] at ht
        exact ih hI' hu ht

theorem finite_of_ended {table : List (Option F)} {k : ℕ} (h : lifeCycle E table pool₀ k = .ok (t, true)) :
    ∃ N, ∀ passes u ended, lifeCycle E table pool₀ passes = .ok (u, ended) → (registrations u.history).length ≤ N := by
  obtain ⟨s, es, e, hI, -⟩ := cppInitializeLib_ok E table pool₀
  rw [lifeCycle, e, ok_bind] at h
  refine ⟨(registrations t.history).length, ?_⟩
  intro passes u ended hu
  rw [lifeCycle, e, ok_bind] at hu
  exact hI.bounded passes hu h

/-- **Life cycle.** When the registrations of a run are finitely many, the run
ends, with every constructor called once and in order, every registration
called and freed once, the list empty and the pool as it was. -/
theorem lifeCycle_exactly_once (E : Env w F) (table : List (Option F)) (pool₀ : Heap w (CppDestructor F))
    (hfin : ∃ N, ∀ passes s ended, lifeCycle E table pool₀ passes = .ok (s, ended) →
      (registrations s.history).length ≤ N) :
    (∃ passes s, lifeCycle E table pool₀ passes = .ok (s, true) ∧
      constructions s.history = table.reduceOption ∧
      (registrations s.history).map Prod.fst = List.range (registrations s.history).length ∧
      destructions s.history = (registrations s.history).filterMap due ∧
      frees s.history = (registrations s.history).map Prod.fst ∧
      isEmptyList s.pool E.gDestructorsList = .ok true ∧
      ∀ a ≠ E.gDestructorsList, s.pool a = pool₀ a) ∧
    ∀ (s t : Crt w F) (d : Option F) (r : Int), atexit E s d = .ok (t, r) →
      (r = 0 ∧ registrations t.history = registrations s.history ++ [((registrations s.history).length, d)]) ∨
      (r = -1 ∧ t.pool = s.pool ∧ registrations t.history = registrations s.history) := by
  refine ⟨?_, fun s t d r h => atexit_result h⟩
  obtain ⟨N, hN⟩ := hfin
  obtain ⟨s, es, e, hI, hc, -, -⟩ := cppInitializeLib_ok E table pool₀
  obtain ⟨t, es', ended, more, he, hI', hr, hc', hend, hf⟩ := hI.drain (N + 1)
  have hrun : lifeCycle E table pool₀ (N + 1) = .ok (t, ended) := by rw [lifeCycle, e, ok_bind, he]
  cases ended with
  | false =>
    -- each pass frees a registration, and there are no more than `N`
    have hle := hN _ _ _ hrun
    have hfreed := congrArg List.length hI'.freed
    rw [List.length_append, List.length_map, List.length_map, hf rfl] at hfreed
    omega
  | true =>
    cases hend rfl
    refine ⟨N + 1, t, hrun, hc'.trans hc, hI'.numbers, ?_, ?_, ?_, ?_⟩
    · simpa using hI'.called
    · simpa using hI'.freed
    · rw [isEmptyList_eq hI'.entries.ring]; rfl
    · intro a ha
      exact hI'.frame a (by simpa using ha)

theorem exists_ok {ε α : Type} {x : Except ε α} {p : α → Prop} [DecidablePred p]
    (h : x.toOption.any (fun a => p a) = true) : ∃ a, x = .ok a ∧ p a := by
  cases x with
  | error e => cases h
  | ok a => exact ⟨a, rfl, by simpa [Except.toOption] using h⟩

def atexits : List (Option F) → Body F
  | [] => .done
  | d :: ds => .atexit d fun _ => atexits ds

def firstFree (pool : Heap w (CppDestructor F)) : List (Addr w) → Option (Block pool)
  | [] => none
  | a :: as =>
    match h : pool a with
    | none => some ⟨a, ⟨0, 0, none⟩, h⟩
    | some _ => firstFree pool as

/-- Four blocks of memory: the fifth registration of the constructor `0` fails,
and the one that the destructor `2` makes succeeds. -/
def fourBlocks : Env 64 ℕ where
  copy := .procmon
  gDestructorsList := 0x1000
  body := fun _ f =>
    if f = 0 then atexits [some 1, none, some 2, some 3, some 3]
    else if f = 2 then atexits [some 1]
    else .done
  exAllocatePoolWithTag := fun _ pool => firstFree pool [0x10, 0x20, 0x30, 0x40]

theorem lifeCycle_fourBlocks :
    (∃ N, ∀ passes s ended, lifeCycle fourBlocks [none, some 0] (fun _ => none) passes = .ok (s, ended) →
      (registrations s.history).length ≤ N) ∧
    ∃ passes s, lifeCycle fourBlocks [none, some 0] (fun _ => none) passes = .ok (s, true) ∧
      frees s.history = (registrations s.history).map Prod.fst := by
  have hfin : ∃ N, ∀ passes s ended, lifeCycle fourBlocks [none, some 0] (fun _ => none) passes = .ok (s, ended) →
      (registrations s.history).length ≤ N := by
    obtain ⟨⟨t, ended⟩, he, hend⟩ := exists_ok (x := lifeCycle fourBlocks [none, some 0] (fun _ => none) 6)
      (p := fun r => r.2 = true) (by decide +kernel)
    cases hend
    exact finite_of_ended he
  obtain ⟨⟨passes, s, he, -, -, -, hf, -⟩, -⟩ := lifeCycle_exactly_once fourBlocks [none, some 0] (fun _ => none) hfin
  exact ⟨hfin, passes, s, he, hf⟩

/-! ## The order of the destructors -/

/-- The destructors registered so far, without the null pointers. -/
def registered (s : Crt w F) : List F := (registrations s.history).filterMap Prod.snd

/-- Of the calls made up to `t`, those for what was registered in `s`. -/
def invoked (s t : Crt w F) : List F :=
  ((destructions t.history).filter fun c => c.1 < (registrations s.history).length).map Prod.snd

theorem due_fst {l : List (ℕ × Option F)} {c : ℕ × F} (hc : c ∈ l.filterMap due) : c.1 ∈ l.map Prod.fst := by
  obtain ⟨r, hr, he⟩ := List.mem_filterMap.mp hc
  obtain ⟨f, -, rfl⟩ := Option.map_eq_some_iff.mp he
  exact List.mem_map_of_mem hr

theorem due_snd (l : List (ℕ × Option F)) : (l.filterMap due).map Prod.snd = l.filterMap Prod.snd := by
  rw [List.map_filterMap]
  apply congrArg (List.filterMap · l)
  funext r
  simp [due, Function.comp_def]

theorem filter_due_late {l : List (ℕ × Option F)} {n : ℕ} (h : ∀ k ∈ l.map Prod.fst, n ≤ k) :
    (l.filterMap due).filter (fun c => c.1 < n) = [] := by
  apply List.filter_eq_nil_iff.mpr
  intro c hc
  have := h _ (due_fst hc)
  simp only [decide_eq_true_eq]
  omega

theorem filter_due_early {l : List (ℕ × Option F)} {n : ℕ} (h : ∀ k ∈ l.map Prod.fst, k < n) :
    (l.filterMap due).filter (fun c => c.1 < n) = l.filterMap due := by
  apply List.filter_eq_self.mpr
  intro c hc
  simpa using h _ (due_fst hc)

/-- The entries that are left have the numbers from the number of freed entries on. -/
theorem Inv.number_left (hI : Inv E pool₀ s [] es) {k : ℕ} (hk : k ∈ (es.map registration).map Prod.fst) :
    (frees s.history).length ≤ k := by
  have hdrop : es.map (·.2.number) = (List.range (registrations s.history).length).drop (frees s.history).length := by
    rw [← hI.numbers, ← hI.freed, List.nil_append, List.drop_left]
  rw [map_registration_fst, hdrop, List.range_eq_range', List.drop_range', List.mem_range'_1] at hk
  omega

/-- Entries leave the list in the order in which they came. -/
theorem invoked_eq_registered (E : Env w F) (table : List (Option F)) (pool₀ : Heap w (CppDestructor F)) :
    ∃ s, cppInitializeLib E table pool₀ = .ok s ∧ ∀ passes, (registrations s.history).length ≤ passes →
      ∃ t ended, cppCallStaticDestructors E passes s = .ok (t, ended) ∧ invoked s t = registered s := by
  obtain ⟨s, es, e, hI, -, hd, hf⟩ := cppInitializeLib_ok E table pool₀
  refine ⟨s, e, ?_⟩
  intro passes hp
  obtain ⟨t, es', ended, more, he, hI', hr, -, hend, hfrees⟩ := hI.drain passes
  refine ⟨t, ended, he, ?_⟩
  have hnum := hI'.numbers
  rw [hr, List.map_append, hI.numbers, List.length_append, List.range_add] at hnum
  have hlate := filter_due_late (l := more) (n := (registrations s.history).length) fun k hk => by
    rw [List.append_cancel_left hnum] at hk
    obtain ⟨i, -, hi⟩ := List.mem_map.mp hk
    omega
  -- as many passes as there were entries have emptied the list of them
  have hleft := filter_due_late (l := es'.map registration) (n := (registrations s.history).length) fun k hk => by
    cases ended with
    | true => rw [hend rfl] at hk; cases hk
    | false =>
      have := hI'.number_left hk
      have := hfrees rfl
      omega
  have hold := filter_due_early (l := registrations s.history) (n := (registrations s.history).length) fun k hk => by
    rw [hI.numbers] at hk
    simpa using hk
  have hcalled := congrArg (List.filter fun c => c.1 < (registrations s.history).length) hI'.called
  rw [hr, List.filterMap_append, List.filter_append, List.filter_append, hlate, hleft, hold, List.append_nil,
    List.append_nil] at hcalled
  rw [invoked, hcalled, due_snd]
  rfl

/-- The destructors run in reverse order exactly when the order of their
registration reads the same both ways. -/
theorem invoked_reverse_iff (E : Env w F) (table : List (Option F)) (pool₀ : Heap w (CppDestructor F)) :
    ∃ s, cppInitializeLib E table pool₀ = .ok s ∧ ∀ passes, (registrations s.history).length ≤ passes →
      ∃ t ended, cppCallStaticDestructors E passes s = .ok (t, ended) ∧
        (invoked s t = (registered s).reverse ↔ (registered s).reverse = registered s) := by
  obtain ⟨s, e, h⟩ := invoked_eq_registered E table pool₀
  refine ⟨s, e, ?_⟩
  intro passes hp
  obtain ⟨t, ended, he, hi⟩ := h passes hp
  refine ⟨t, ended, he, ?_⟩
  rw [hi]
  exact eq_comm

theorem invoked_first_first :
    ∃ r : (Crt 64 ℕ × Crt 64 ℕ × Bool), (do
        let s ← cppInitializeLib fourBlocks [some 0] (fun _ => none)
        let (t, ended) ← cppCallStaticDestructors fourBlocks 6 s
        return (s, t, ended)) = Except.ok r ∧
      r.2.2 = true ∧ registered r.1 = [1, 2, 3] ∧ invoked r.1 r.2.1 = [1, 2, 3] ∧
      ¬ invoked r.1 r.2.1 = (registered r.1).reverse :=
  exists_ok (by decide +kernel)

end Dmsk.Cpp
