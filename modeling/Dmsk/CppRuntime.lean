import Dmsk.ProcessCollector

/-!
# The C++ runtime of the drivers

`cpp_crt_data_section.cpp` of NotificationDriver and its copy
`CppLib/cpp_init.cpp` of Procmon: the constructors and destructors of objects
with static storage. Destructors are registered in a list of pool entries,
which `CppCallStaticDestructors` drains. What a constructor or a destructor
does besides calling `atexit` cannot reach the list and is left out.
-/

namespace Dmsk

variable {w : ℕ} {β : Type}

/-! ## The list macros of the kernel -/

/-- `InsertTailList`. A list found corrupted is a fault. -/
def insertTailList (h : Heap w β) (listHead entry : Addr w) : Except Fault (Heap w β) := do
  let prevEntry ← getBlink h listHead
  ntAssert ((← getFlink h prevEntry) = listHead)
  let h ← setFlink h entry listHead
  let h ← setBlink h entry prevEntry
  let h ← setFlink h prevEntry entry
  setBlink h listHead entry

def removeHeadList (h : Heap w β) (listHead : Addr w) : Except Fault (Heap w β × Addr w) := do
  let entry ← getFlink h listHead
  let nextEntry ← getFlink h entry
  ntAssert ((← getBlink h entry) = listHead)
  ntAssert ((← getBlink h nextEntry) = entry)
  let h ← setFlink h listHead nextEntry
  let h ← setBlink h nextEntry listHead
  return (h, entry)

def isEmptyList (h : Heap w β) (listHead : Addr w) : Except Fault Bool := do
  return (← getFlink h listHead) = listHead

section
variable {h : Heap w β} {hd e : Addr w} {xs zs : List (Addr w)}

theorem isEmptyList_eq (hr : IsRing (flinks h) (blinks h) hd xs) : isEmptyList h hd = .ok (decide (xs = [])) := by
  rw [isEmptyList, getFlink_ok hr.next_head.1, ok_bind]
  cases xs with
  | nil => simp [pure, Except.pure]
  | cons x xs =>
    have hx : x ≠ hd := fun hx => hr.head_notMem (by simp [hx])
    simp [pure, Except.pure, hx]

theorem insertTailList_ok (hr : IsRing (flinks h) (blinks h) hd xs) (hl : (h e).isSome) (he : e ∉ hd :: xs) :
    ∃ h', insertTailList h hd e = .ok h' ∧ IsRing (flinks h') (blinks h') hd (xs ++ [e]) ∧
      Relinked h h' (e :: hd :: xs) := by
  have hself := hr.live (a := hd) (by simp)
  have hlast := hr.live (getLastD_mem hd xs)
  obtain ⟨h1, e1, f1, b1, r1⟩ := setFlink_ok hl hd
  obtain ⟨h2, e2, f2, b2, r2⟩ := setBlink_ok ((r1.live e).trans hl) (xs.getLastD hd)
  have r12 := r1.trans r2
  obtain ⟨h3, e3, f3, b3, r3⟩ := setFlink_ok ((r12.live _).trans hlast) e
  obtain ⟨h4, e4, f4, b4, r4⟩ := setBlink_ok (((r12.trans r3).live _).trans hself) e
  have hw : IsRing (flinks h4) (blinks h4) hd (xs ++ [e]) := by
    rw [f4, f3, f2, f1, b4, b3, b2, b1]
    exact splice_in xs [] (by rwa [List.append_nil]) (by rwa [List.append_nil])
  refine ⟨h4, ?_, hw, ((r12.trans r3).trans r4).objects, ?_⟩
  · rw [insertTailList, getBlink_ok hr.last_head.2, ok_bind, getFlink_ok hr.last_head.1, ok_bind, ntAssert, if_pos rfl,
      ok_bind, e1, ok_bind, e2, ok_bind, e3, ok_bind, e4]
  · intro a ha
    apply ((r12.trans r3).trans r4).frame a
    intro ha'
    have := getLastD_mem hd xs
    simp only [List.mem_cons, List.mem_append, List.not_mem_nil, or_false] at ha ha' this
    rcases ha' with ((rfl | rfl) | rfl) | rfl <;> tauto

theorem removeHeadList_ok (hr : IsRing (flinks h) (blinks h) hd (e :: zs)) :
    ∃ h', removeHeadList h hd = .ok (h', e) ∧ IsRing (flinks h') (blinks h') hd zs ∧ Relinked h h' (hd :: zs) := by
  have hhead : IsRing (flinks h) (blinks h) hd ([] ++ e :: zs) := hr
  obtain ⟨hprev, hnext⟩ := hhead.elem
  rw [List.getLastD_nil] at hprev
  have hmn : zs.headD hd ∈ hd :: e :: zs := by
    have := headD_mem hd zs
    simp only [List.mem_cons] at this ⊢; tauto
  obtain ⟨h1, e1, f1, b1, r1⟩ := setFlink_ok (hr.live (a := hd) (by simp)) (zs.headD hd)
  obtain ⟨h2, e2, f2, b2, r2⟩ := setBlink_ok ((r1.live _).trans (hr.live hmn)) hd
  have hw : IsRing (flinks h2) (blinks h2) hd zs := by
    rw [f2, f1, b2, b1]
    exact hhead.remove ⟨Function.update_self _ _ _, by simp⟩ (fun x _ hx => Function.update_of_ne hx _ _)
      (fun x _ hx => Function.update_of_ne hx _ _)
  refine ⟨h2, ?_, hw, (r1.trans r2).objects, ?_⟩
  · rw [removeHeadList, getFlink_ok hr.next_head.1, ok_bind, List.headD_cons, getFlink_ok hnext.1, ok_bind,
      getBlink_ok hprev.2, ok_bind, ntAssert, if_pos rfl, ok_bind, getBlink_ok hnext.2, ok_bind, ntAssert, if_pos rfl,
      ok_bind, e1, ok_bind, e2, ok_bind]
    rfl
  · intro a ha
    apply (r1.trans r2).frame a
    intro ha'
    have := headD_mem hd zs
    simp only [List.mem_cons, List.mem_append, List.not_mem_nil, or_false] at ha ha' this
    rcases ha' with rfl | rfl <;> tauto

end

/-! ## The runtime -/

namespace Cpp

variable {F : Type}

/-- The copies differ by an `NT_ASSERT(false)` that a free build drops. -/
inductive Copy
  | notificationDriver
  | procmon
deriving DecidableEq, Repr

/-- A `PVFV` that is null is `none`. The number counts the registrations made
before; no code reads it, the statements use it to tell registrations apart. -/
structure CppDestructor (F : Type) where
  number : ℕ
  destructor : Option F
deriving DecidableEq, Repr

/-- The calls of `atexit` that a function makes, each decided by what the calls
before it returned. -/
inductive Body (F : Type)
  | done
  | atexit (destructor : Option F) (rest : Int → Body F)

inductive Event (F : Type)
  | constructed (constructor : F)
  | registered (number : ℕ) (destructor : Option F)
  | assertionFailed
  | refused (destructor : Option F)
  | destroyed (number : ℕ) (destructor : F)
  | freed (number : ℕ)
deriving DecidableEq, Repr

/-- What `ExAllocatePoolWithTag` returns: memory that was free, with anything in it. -/
structure Block (pool : Heap w (CppDestructor F)) where
  address : Addr w
  contents : LinkedListEntry w (CppDestructor F)
  fresh : pool address = none

/-- The functions behind the pointers and the allocator may act on all that
has happened so far. -/
structure Env (w : ℕ) (F : Type) where
  copy : Copy
  gDestructorsList : Addr w
  body : List (Event F) → F → Body F
  exAllocatePoolWithTag : List (Event F) → (pool : Heap w (CppDestructor F)) → Option (Block pool)

structure Crt (w : ℕ) (F : Type) where
  pool : Heap w (CppDestructor F)
  history : List (Event F)

def registrations (history : List (Event F)) : List (ℕ × Option F) :=
  history.filterMap fun
    | .registered n d => some (n, d)
    | _ => none

def constructions (history : List (Event F)) : List F :=
  history.filterMap fun
    | .constructed f => some f
    | _ => none

def destructions (history : List (Event F)) : List (ℕ × F) :=
  history.filterMap fun
    | .destroyed n f => some (n, f)
    | _ => none

def frees (history : List (Event F)) : List ℕ :=
  history.filterMap fun
    | .freed n => some n
    | _ => none

def cppRegisterDestructor (E : Env w F) (s : Crt w F) (destructor : Option F) : Except Fault (Crt w F × Int) :=
  match E.exAllocatePoolWithTag s.history s.pool with
  | none =>
    match E.copy with
    | .notificationDriver => return (⟨s.pool, s.history ++ [.refused destructor]⟩, -1)
    | .procmon => return (⟨s.pool, s.history ++ [.assertionFailed, .refused destructor]⟩, -1)
  | some entry => do
    let number := (registrations s.history).length
    let pool := Function.update s.pool entry.address (some { entry.contents with object := some ⟨number, destructor⟩ })
    let pool ← insertTailList pool E.gDestructorsList entry.address
    return (⟨pool, s.history ++ [.registered number destructor]⟩, 0)

def atexit (E : Env w F) (s : Crt w F) (destructor : Option F) : Except Fault (Crt w F × Int) :=
  cppRegisterDestructor E s destructor

def cppInitializeDestructorsList (E : Env w F) (s : Crt w F) : Crt w F :=
  ⟨construct s.pool E.gDestructorsList (some ⟨0, none⟩), s.history⟩

def runBody (E : Env w F) : Body F → Crt w F → Except Fault (Crt w F)
  | .done, s => return s
  | .atexit destructor rest, s => do
    let (s, result) ← atexit E s destructor
    runBody E (rest result) s

/-- A call through a pointer that is not null. -/
def call (E : Env w F) (f : F) (s : Crt w F) : Except Fault (Crt w F) := runBody E (E.body s.history f) s

/-- The slots from `FirstPVFVEntry` to `LastPVFVEntry`. -/
def cppCallStaticConstructors (E : Env w F) : List (Option F) → Crt w F → Except Fault (Crt w F)
  | [], s => return s
  | none :: slots, s => cppCallStaticConstructors E slots s
  | some f :: slots, s => do
    let s ← call E f ⟨s.pool, s.history ++ [.constructed f]⟩
    cppCallStaticConstructors E slots s

def callDestructor (E : Env w F) (entry : CppDestructor F) (s : Crt w F) : Except Fault (Crt w F) :=
  match entry.destructor with
  | some f => call E f ⟨s.pool, s.history ++ [.destroyed entry.number f]⟩
  | none => return s

/-- At most so many passes of the loop, and whether the loop has ended. -/
def cppCallStaticDestructors (E : Env w F) : ℕ → Crt w F → Except Fault (Crt w F × Bool)
  | 0, s => return (s, ← isEmptyList s.pool E.gDestructorsList)
  | passes + 1, s => do
    if ← isEmptyList s.pool E.gDestructorsList then return (s, true)
    else
      let (pool, destructorEntry) ← removeHeadList s.pool E.gDestructorsList
      let entry ← getObject pool destructorEntry
      let s ← callDestructor E entry ⟨pool, s.history⟩
      let pool ← delete s.pool destructorEntry
      cppCallStaticDestructors E passes ⟨pool, s.history ++ [.freed entry.number]⟩

def cppInitializeLib (E : Env w F) (table : List (Option F)) (pool : Heap w (CppDestructor F)) :
    Except Fault (Crt w F) :=
  cppCallStaticConstructors E table (cppInitializeDestructorsList E ⟨pool, []⟩)

/-- `CppUninitializeLib` after `CppInitializeLib`. -/
def lifeCycle (E : Env w F) (table : List (Option F)) (pool : Heap w (CppDestructor F)) (passes : ℕ) :
    Except Fault (Crt w F × Bool) := do
  cppCallStaticDestructors E passes (← cppInitializeLib E table pool)

end Cpp

end Dmsk
