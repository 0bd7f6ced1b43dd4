import Dmsk.Counting
import Dmsk.Transition
import Mathlib.Algebra.Order.BigOperators.Group.Finset
import Mathlib.Data.Int.Order.Basic
import Mathlib.Data.List.Infix
import Mathlib.Order.Basic

/-!
# Rundown locks

Threads run straight-line programs over devices and one mutex. Each device has
a rundown lock: an acquisition takes a reference unless the removal has begun,
and then fails and takes none; its result is ignored, so the program goes on
either way. The remover gives up its own reference as it begins the removal and
waits until no reference is left. A reference that was never taken can be
released, so the count may fall below the references held.

The memory of a lock is taken to outlive its device.
-/

namespace Dmsk.Rundown

/-- `start d` is the entry of a request into the driver of `d`. -/
inductive Op (D W : Type)
  | start (d : D)
  | acquire (d : D)
  | release (d : D)
  | beginRemove (d : D)
  | await (d : D)
  | delete (d : D)
  | lock
  | unlock
  | work (x : W)
deriving DecidableEq, Repr

structure State (D W T : Type) where
  count : D → ℤ
  removed : D → Bool
  drained : D → Bool
  deleted : D → Bool
  owner : Option T
  held : T → D → Bool
  todo : T → List (Op D W)

variable {D W T : Type}

section
variable [DecidableEq D] [DecidableEq T]

/-- The thread `t` has taken its reference to `d` or given it up. -/
def State.setRef (s : State D W T) (t : T) (d : D) (b : Bool) (n : ℤ) : State D W T :=
  { s with
    count := Function.update s.count d n
    held := Function.update s.held t (Function.update (s.held t) d b) }

def State.setRemoved (s : State D W T) (d : D) : State D W T := { s with removed := Function.update s.removed d true }

def State.setDrained (s : State D W T) (d : D) : State D W T := { s with drained := Function.update s.drained d true }

def State.setDeleted (s : State D W T) (d : D) : State D W T := { s with deleted := Function.update s.deleted d true }

def State.setOwner (s : State D W T) (o : Option T) : State D W T := { s with owner := o }

/-- One operation of the thread `t`. `drained` records that a wait has ended. -/
def exec (s : State D W T) (t : T) : Op D W → Option (State D W T)
  | .start d => if s.deleted d then none else some s
  | .acquire d => some (if s.removed d then s else s.setRef t d true (s.count d + 1))
  | .release d => some (s.setRef t d false (s.count d - 1))
  | .beginRemove d => some ((s.setRef t d false (s.count d - 1)).setRemoved d)
  | .await d => if s.count d ≤ 0 then some (s.setDrained d) else none
  | .delete d => some (s.setDeleted d)
  | .lock => if s.owner.isNone then some (s.setOwner (some t)) else none
  | .unlock => some (s.setOwner none)
  | .work _ => some s

def step (s : State D W T) (t : T) : Option (State D W T) :=
  match s.todo t with
  | [] => none
  | op :: rest => (exec s t op).map fun s' => { s' with todo := Function.update s.todo t rest }

def begin (prog : T → List (Op D W)) : State D W T where
  count _ := 0
  removed _ := false
  drained _ := false
  deleted _ := false
  owner := none
  held _ _ := false
  todo := prog

def system (prog : T → List (Op D W)) : System (State D W T) T where
  init s := s = begin prog
  step := step

end

section
variable [DecidableEq D] [DecidableEq T] {s s' : State D W T} {t : T}

theorem setRef_held {u : T} {d e : D} {b : Bool} {n : ℤ} :
    (s.setRef t e b n).held u d = if u = t ∧ d = e then b else s.held u d := by
  unfold State.setRef
  by_cases hu : u = t
  · subst hu
    by_cases hd : d = e
    · subst hd; simp
    · simp [hd]
  · simp [hu]

theorem setRef_count {d e : D} {b : Bool} {n : ℤ} : (s.setRef t e b n).count d = if d = e then n else s.count d := by
  unfold State.setRef
  by_cases hd : d = e
  · subst hd; simp
  · simp [hd]

inductive Effect (s : State D W T) (t : T) : Op D W → State D W T → Prop
  | start (d : D) : s.deleted d = false → Effect s t (.start d) s
  | acquire (d : D) : s.removed d = false → Effect s t (.acquire d) (s.setRef t d true (s.count d + 1))
  | refuse (d : D) : s.removed d = true → Effect s t (.acquire d) s
  | release (d : D) : Effect s t (.release d) (s.setRef t d false (s.count d - 1))
  | beginRemove (d : D) : Effect s t (.beginRemove d) ((s.setRef t d false (s.count d - 1)).setRemoved d)
  | await (d : D) : s.count d ≤ 0 → Effect s t (.await d) (s.setDrained d)
  | delete (d : D) : Effect s t (.delete d) (s.setDeleted d)
  | lock : s.owner = none → Effect s t .lock (s.setOwner (some t))
  | unlock : Effect s t .unlock (s.setOwner none)
  | work (x : W) : Effect s t (.work x) s

theorem exec_effect {op : Op D W} (h : exec s t op = some s') : Effect s t op s' := by
  cases op with
  | start d =>
    simp only [exec] at h
    split at h
    · cases h
    · rename_i hd
      cases h
      exact .start d (by simpa using hd)
  | acquire d =>
    simp only [exec, Option.some.injEq] at h
    split at h
    · rename_i hd
      exact h ▸ .refuse d hd
    · rename_i hd
      exact h ▸ .acquire d (by simpa using hd)
  | release d => cases h; exact .release d
  | beginRemove d => cases h; exact .beginRemove d
  | await d =>
    simp only [exec] at h
    split at h
    · cases h
      exact .await d ‹_›
    · cases h
  | delete d => cases h; exact .delete d
  | lock =>
    simp only [exec] at h
    split at h
    · rename_i ho
      cases h
      exact .lock (by simpa using ho)
    · cases h
  | unlock => cases h; exact .unlock
  | work x => cases h; exact .work x

theorem step_effect (h : step s t = some s') :
    ∃ op rest s₁, s.todo t = op :: rest ∧ Effect s t op s₁ ∧ s' = { s₁ with todo := Function.update s.todo t rest } := by
  unfold step at h
  split at h
  · cases h
  · obtain ⟨s₁, he, rfl⟩ := Option.map_eq_some_iff.mp h
    exact ⟨_, _, s₁, ‹_›, exec_effect he, rfl⟩

end

/-! ## Brackets in programs -/

section
variable {ο : Type} (phase : ο → Option Bool)

/-- The next bracket is a closing one; `phase` tells opening and closing ones. -/
def inside : List ο → Bool
  | [] => false
  | o :: l =>
    match phase o with
    | some true => false
    | some false => true
    | none => inside l

def alternates : List ο → Bool
  | [] => true
  | o :: l =>
    (match phase o with
      | some true => inside phase l
      | some false => !inside phase l
      | none => true) && alternates l

def guarded [DecidableEq ο] (a b : ο) : List ο → Bool
  | [] => true
  | o :: l => o = a || (o ≠ b && guarded a b l)

def leads [DecidableEq ο] (a b : ο) : List ο → Bool
  | [] => true
  | o :: l => (o ≠ a || b ∈ l) && leads a b l

variable {phase}

theorem alternates_tail {o : ο} {l : List ο} (h : alternates phase (o :: l) = true) : alternates phase l = true := by
  simp only [alternates, Bool.and_eq_true] at h
  exact h.2

theorem alternates_suffix {l l' : List ο} (hs : l' <:+ l) (h : alternates phase l = true) :
    alternates phase l' = true := by
  obtain ⟨pre, rfl⟩ := hs
  induction pre with
  | nil => exact h
  | cons o pre ih => exact ih (alternates_tail h)

theorem inside_of_open {o : ο} {l : List ο} (h : alternates phase (o :: l) = true) (ho : phase o = some true) :
    inside phase l = true := by
  simp only [alternates, ho, Bool.and_eq_true] at h
  exact h.1

theorem not_inside_of_close {o : ο} {l : List ο} (h : alternates phase (o :: l) = true) (ho : phase o = some false) :
    inside phase l = false := by
  simp only [alternates, ho, Bool.and_eq_true, Bool.not_eq_true'] at h
  exact h.1

theorem inside_open {o : ο} {l : List ο} (ho : phase o = some true) : inside phase (o :: l) = false := by
  simp only [inside, ho]

theorem inside_close {o : ο} {l : List ο} (ho : phase o = some false) : inside phase (o :: l) = true := by
  simp only [inside, ho]

theorem inside_other {o : ο} {l : List ο} (ho : phase o = none) : inside phase (o :: l) = inside phase l := by
  simp only [inside, ho]

theorem leads_suffix [DecidableEq ο] {a b : ο} {l l' : List ο} (hs : l' <:+ l) (h : leads a b l = true) :
    leads a b l' = true := by
  obtain ⟨pre, rfl⟩ := hs
  induction pre with
  | nil => exact h
  | cons o pre ih =>
    simp only [List.cons_append, leads, Bool.and_eq_true] at h
    exact ih h.2

theorem mem_of_leads [DecidableEq ο] {a b : ο} {l : List ο} (h : leads a b (a :: l) = true) : b ∈ l := by
  simp only [leads, Bool.and_eq_true, Bool.or_eq_true, decide_eq_true_eq, ne_eq, not_true_eq_false, false_or] at h
  exact h.1

theorem guarded_tail [DecidableEq ο] {a b o : ο} {l : List ο} (h : guarded a b (o :: l) = true) (ho : o ≠ a) :
    o ≠ b ∧ guarded a b l = true := by
  simpa [guarded, ho] using h

end

section
variable [DecidableEq D]

/-- References to `d`: taken by `acquire`, given up by `release` and `beginRemove`. -/
def refs (d : D) : Op D W → Option Bool
  | .acquire e => if e = d then some true else none
  | .release e | .beginRemove e => if e = d then some false else none
  | _ => none

def mutex : Op D W → Option Bool
  | .lock => some true
  | .unlock => some false
  | _ => none

theorem eq_acquire {d : D} {op : Op D W} (h : refs d op = some true) : op = .acquire d := by
  unfold refs at h
  split at h <;> simp at h
  rw [h]

omit [DecidableEq D] in
theorem eq_lock {op : Op D W} (h : mutex op = some true) : op = .lock := by
  unfold mutex at h
  split at h
  · rfl
  · cases h
  · cases h

end

section
variable [DecidableEq D] [DecidableEq T] {s s₁ : State D W T} {t u : T} {op : Op D W}

/-! ## What an operation changes -/

theorem effect_held (he : Effect s t op s₁) (d : D) :
    s₁.held t d = match refs d op with
      | some true => !s.removed d || s.held t d
      | some false => false
      | none => s.held t d := by
  cases he with
  | acquire e hr =>
    rw [setRef_held]
    by_cases hde : e = d
    · subst hde
      simp [refs, hr]
    · simp [refs, hde, Ne.symm hde]
  | refuse e hr =>
    by_cases hde : e = d
    · subst hde
      simp [refs, hr]
    · simp [refs, hde]
  | release e =>
    rw [setRef_held]
    by_cases hde : e = d
    · simp [refs, hde]
    · simp [refs, hde, Ne.symm hde]
  | beginRemove e =>
    change (s.setRef t e false (s.count e - 1)).held t d = _
    rw [setRef_held]
    by_cases hde : e = d
    · simp [refs, hde]
    · simp [refs, hde, Ne.symm hde]
  | _ => rfl

theorem effect_held_other (he : Effect s t op s₁) (hu : u ≠ t) : s₁.held u = s.held u := by
  cases he with
  | acquire | release | beginRemove => exact Function.update_of_ne hu _ _
  | _ => rfl

theorem effect_count (he : Effect s t op s₁) (d : D) :
    s₁.count d = match refs d op with
      | some true => if s.removed d then s.count d else s.count d + 1
      | some false => s.count d - 1
      | none => s.count d := by
  cases he with
  | acquire e hr =>
    rw [setRef_count]
    by_cases hde : e = d
    · subst hde
      simp [refs, hr]
    · simp [refs, hde, Ne.symm hde]
  | refuse e hr =>
    by_cases hde : e = d
    · subst hde
      simp [refs, hr]
    · simp [refs, hde]
  | release e =>
    rw [setRef_count]
    by_cases hde : e = d
    · subst hde
      simp [refs]
    · simp [refs, hde, Ne.symm hde]
  | beginRemove e =>
    change (s.setRef t e false (s.count e - 1)).count d = _
    rw [setRef_count]
    by_cases hde : e = d
    · subst hde
      simp [refs]
    · simp [refs, hde, Ne.symm hde]
  | _ => rfl

theorem update_true_iff {f : D → Bool} {d e : D} : Function.update f e true d = true ↔ f d = true ∨ e = d := by
  by_cases hde : d = e
  · subst hde; simp
  · simp [hde, Ne.symm hde]

theorem effect_removed (he : Effect s t op s₁) (d : D) :
    s₁.removed d = true ↔ s.removed d = true ∨ op = .beginRemove d := by
  cases he with
  | beginRemove e => exact update_true_iff.trans (by simp [State.setRef])
  | _ => exact ⟨.inl, fun h => h.resolve_right (by simp)⟩

theorem effect_drained (he : Effect s t op s₁) (d : D) :
    s₁.drained d = true ↔ s.drained d = true ∨ op = .await d := by
  cases he with
  | await e => exact update_true_iff.trans (by simp)
  | _ => exact ⟨.inl, fun h => h.resolve_right (by simp)⟩

theorem effect_deleted (he : Effect s t op s₁) (d : D) :
    s₁.deleted d = true ↔ s.deleted d = true ∨ op = .delete d := by
  cases he with
  | delete e => exact update_true_iff.trans (by simp)
  | _ => exact ⟨.inl, fun h => h.resolve_right (by simp)⟩

theorem effect_owner (he : Effect s t op s₁) :
    s₁.owner = match mutex op with
      | some true => some t
      | some false => none
      | none => s.owner := by
  cases he <;> rfl

def holders [Fintype T] (s : State D W T) (d : D) : ℤ := ∑ t, if s.held t d then 1 else 0

theorem effect_holders [Fintype T] (he : Effect s t op s₁) (d : D) :
    holders s₁ d + (if s.held t d then 1 else 0) = holders s d + (if s₁.held t d then 1 else 0) := by
  have hup : s₁.held = Function.update s.held t (s₁.held t) := by
    funext u
    by_cases hu : u = t
    · rw [hu, Function.update_self]
    · rw [Function.update_of_ne hu, effect_held_other he hu]
  have := sum_update (fun h : D → Bool => if h d then (1 : ℤ) else 0) s.held t (s₁.held t)
  rw [← hup] at this
  exact this

end

/-! ## What holds of every run -/

section
variable [DecidableEq D] [DecidableEq W] [DecidableEq T]

/-- The programs' discipline: references and the mutex are taken and given up by
turns; a device has one remover, which begins the removal once, waits before it
deletes, and takes no reference afterwards. -/
structure Protocol (prog : T → List (Op D W)) (remover : D → T) : Prop where
  refs : ∀ t d, alternates (refs d) (prog t) = true ∧ inside (Rundown.refs d) (prog t) = false
  mutex : ∀ t, alternates mutex (prog t) = true ∧ inside Rundown.mutex (prog t) = false
  begins : ∀ t d, guarded (.beginRemove d) (.await d) (prog t) = true
  waits : ∀ t d, guarded (.await d) (.delete d) (prog t) = true
  sole : ∀ t d, .beginRemove d ∈ prog t → t = remover d
  once : ∀ d, (prog (remover d)).count (.beginRemove d) ≤ 1
  own : ∀ d, leads (.acquire d) (.beginRemove d) (prog (remover d)) = true

structure Inv (prog : T → List (Op D W)) (remover : D → T) (s : State D W T) : Prop where
  suffix : ∀ t, s.todo t <:+ prog t
  held : ∀ t d, s.held t d = true → inside (refs d) (s.todo t) = true
  owner : ∀ t, s.owner = some t ↔ inside mutex (s.todo t) = true
  begun : ∀ d, s.removed d = true → .beginRemove d ∉ s.todo (remover d)
  removed : ∀ t d, guarded (.beginRemove d) (.await d) (s.todo t) = true ∨ s.removed d = true
  drained : ∀ t d, guarded (.await d) (.delete d) (s.todo t) = true ∨ s.drained d = true
  removed_of_drained : ∀ d, s.drained d = true → s.removed d = true
  drained_of_deleted : ∀ d, s.deleted d = true → s.drained d = true

variable {prog : T → List (Op D W)} {remover : D → T} {s s' : State D W T}

omit [DecidableEq T] in
theorem inv_begin (hp : Protocol prog remover) : Inv prog remover (begin prog) where
  suffix t := List.suffix_refl _
  held t d h := by cases h
  owner t := iff_of_false (fun h => by cases h) (by simp [begin, (hp.mutex t).2])
  begun d h := by cases h
  removed t d := .inl (hp.begins t d)
  drained t d := .inl (hp.waits t d)
  removed_of_drained d h := by cases h
  drained_of_deleted d h := by cases h

section
variable {t : T} {op : Op D W} {rest : List (Op D W)} {s₁ : State D W T} (hp : Protocol prog remover)
  (hi : Inv prog remover s) (htodo : s.todo t = op :: rest) (he : Effect s t op s₁)
include hp hi htodo he

theorem inv_held (d : D) (hd : s₁.held t d = true) : inside (refs d) rest = true := by
  have halt := alternates_suffix (hi.suffix t) (hp.refs t d).1
  have hin := hi.held t d
  rw [htodo] at halt hin
  rw [effect_held he] at hd
  cases hr : refs d op with
  | none =>
    rw [hr] at hd
    exact inside_other hr ▸ hin hd
  | some opens =>
    cases opens with
    | true => exact inside_of_open halt hr
    | false =>
      rw [hr] at hd
      cases hd

theorem inv_owner (u : T) : s₁.owner = some u ↔ inside mutex (Function.update s.todo t rest u) = true := by
  have halt := alternates_suffix (hi.suffix t) (hp.mutex t).1
  have hown := hi.owner
  rw [htodo] at halt
  rw [effect_owner he]
  by_cases hut : u = t
  · subst hut
    rw [Function.update_self]
    cases hm : mutex op with
    | none => rw [← inside_other hm, ← htodo, ← hown]
    | some opens =>
      cases opens with
      | true => exact iff_of_true rfl (inside_of_open halt hm)
      | false => exact iff_of_false (by simp) (by simp [not_inside_of_close halt hm])
  · rw [Function.update_of_ne hut, ← hown]
    cases hm : mutex op with
    | none => rfl
    | some opens =>
      cases opens with
      | true =>
        have hnone : s.owner = none := by
          cases he with
          | lock ho => exact ho
          | _ => cases hm
        apply iff_of_false (fun h => hut (Option.some.inj h).symm)
        simp [hnone]
      | false =>
        have ht : s.owner = some t := (hown t).mpr (by rw [htodo]; exact inside_close hm)
        apply iff_of_false (by simp)
        intro h
        rw [ht] at h
        exact hut (Option.some.inj h).symm

theorem inv_begun (d : D) (hd : s₁.removed d = true) :
    .beginRemove d ∉ Function.update s.todo t rest (remover d) := by
  rw [effect_removed he] at hd
  by_cases ht : remover d = t
  · rw [ht, Function.update_self]
    intro hmem
    rcases hd with hd | rfl
    · exact hi.begun d hd (ht ▸ htodo ▸ List.mem_cons_of_mem _ hmem)
    · have hc := (hi.suffix t).sublist.count_le (.beginRemove d)
      have honce := hp.once d
      rw [ht] at honce
      rw [htodo, List.count_cons_self] at hc
      have := List.count_pos_iff.mpr hmem
      omega
  · rw [Function.update_of_ne ht]
    refine hi.begun d (hd.resolve_right fun hop => ht ?_)
    exact (hp.sole t d ((hi.suffix t).subset (by rw [htodo, hop]; exact List.mem_cons_self))).symm

end

theorem guarded_step {a b op : Op D W} {rest : List (Op D W)} {t u : T} {P Q : Prop} (htodo : s.todo t = op :: rest)
    (h : guarded a b (s.todo u) = true ∨ P) (hPQ : P ∨ op = a → Q) :
    guarded a b (Function.update s.todo t rest u) = true ∨ Q := by
  rcases h with h | h
  · by_cases hut : u = t
    · subst hut
      rw [Function.update_self]
      rw [htodo] at h
      by_cases hop : op = a
      · exact .inr (hPQ (.inr hop))
      · exact .inl (guarded_tail h hop).2
    · exact .inl (by rwa [Function.update_of_ne hut])
  · exact .inr (hPQ (.inl h))

omit [DecidableEq T] in
theorem of_guarded_head {a b : Op D W} {rest : List (Op D W)} {t : T} {P : Prop} (hab : b ≠ a) (htodo : s.todo t = b :: rest)
    (h : guarded a b (s.todo t) = true ∨ P) : P := by
  apply h.resolve_left
  intro h
  rw [htodo] at h
  exact (guarded_tail h hab).1 rfl

theorem inv_step (hp : Protocol prog remover) (hi : Inv prog remover s) {t : T} (h : step s t = some s') :
    Inv prog remover s' := by
  obtain ⟨op, rest, s₁, htodo, he, rfl⟩ := step_effect h
  constructor
  case suffix =>
    intro u
    by_cases hu : u = t
    · subst hu
      simp only [Function.update_self]
      exact (List.suffix_cons op rest).trans (htodo ▸ hi.suffix u)
    · simp only [Function.update_of_ne hu]
      exact hi.suffix u
  case held =>
    intro u d hd
    by_cases hu : u = t
    · subst hu
      simp only [Function.update_self]
      exact inv_held hp hi htodo he d hd
    · simp only [Function.update_of_ne hu]
      exact hi.held u d (by rwa [← effect_held_other he hu])
  case owner => exact fun u => inv_owner hp hi htodo he u
  case begun => exact fun d hd => inv_begun hp hi htodo he d hd
  case removed => exact fun u d => guarded_step htodo (hi.removed u d) (effect_removed he d).mpr
  case drained => exact fun u d => guarded_step htodo (hi.drained u d) (effect_drained he d).mpr
  case removed_of_drained =>
    intro d hd
    refine (effect_removed he d).mpr (.inl ?_)
    rcases (effect_drained he d).mp hd with hd | rfl
    · exact hi.removed_of_drained d hd
    · exact of_guarded_head (by simp) htodo (hi.removed t d)
  case drained_of_deleted =>
    intro d hd
    refine (effect_drained he d).mpr (.inl ?_)
    rcases (effect_deleted he d).mp hd with hd | rfl
    · exact hi.drained_of_deleted d hd
    · exact of_guarded_head (by simp) htodo (hi.drained t d)

theorem inv_reachable (hp : Protocol prog remover) (h : (system prog).Reachable s) : Inv prog remover s := by
  refine h.invariant (I := Inv prog remover) ?_ fun s t s' hi hs => inv_step hp hi hs
  intro s hs
  exact hs ▸ inv_begin hp

omit [DecidableEq T] in
theorem not_held_of_opens (hi : Inv prog remover s) {t : T} {d : D} {op : Op D W} {rest : List (Op D W)}
    (htodo : s.todo t = op :: rest) (hop : refs d op = some true) : s.held t d = false := by
  rw [← Bool.not_eq_true]
  intro h
  have := hi.held t d h
  rw [htodo, inside_open hop] at this
  cases this

omit [DecidableEq W] in
theorem step_enabled {t : T} {op : Op D W} {rest : List (Op D W)} (htodo : s.todo t = op :: rest)
    (hstart : ∀ d, op = .start d → s.deleted d = false) (hlock : op = .lock → s.owner = none)
    (hawait : ∀ d, op = .await d → s.count d ≤ 0) : ∃ s', step s t = some s' := by
  unfold step
  rw [htodo]
  cases op with
  | start d => simp [exec, hstart d rfl]
  | lock => simp [exec, hlock rfl]
  | await d => simp [exec, hawait d rfl]
  | _ => simp [exec]

omit [DecidableEq T] in
theorem drained_of_delete (hi : Inv prog remover s) {t : T} {d : D} {rest : List (Op D W)}
    (htodo : s.todo t = .delete d :: rest) : s.drained d = true :=
  of_guarded_head (by simp) htodo (hi.drained t d)

omit [DecidableEq T] in
theorem removed_of_own (hp : Protocol prog remover) (hi : Inv prog remover s) {d : D} {rest : List (Op D W)}
    (htodo : s.todo (remover d) = .acquire d :: rest) : s.removed d = false := by
  have hown := leads_suffix (hi.suffix (remover d)) (hp.own d)
  rw [htodo] at hown
  rw [← Bool.not_eq_true]
  intro hr
  apply hi.begun d hr
  rw [htodo]
  exact List.mem_cons_of_mem _ (mem_of_leads hown)

end

/-! ## The count and the references held -/

section
variable [DecidableEq D] [DecidableEq W] [DecidableEq T] [Fintype T] {prog : T → List (Op D W)} {remover : D → T}
  {s s' : State D W T}

omit [DecidableEq D] [DecidableEq W] [DecidableEq T] in
theorem exists_holder {d : D} (h : 0 < holders s d) : ∃ t, s.held t d = true := by
  by_contra hn
  simp only [not_exists] at hn
  simp [holders, hn] at h

omit [DecidableEq D] [DecidableEq W] [DecidableEq T] in
theorem no_holder {d : D} (h : holders s d ≤ 0) (t : T) : s.held t d = false := by
  rw [← Bool.not_eq_true]
  intro ht
  have hle : (if s.held t d then (1 : ℤ) else 0) ≤ holders s d :=
    Finset.single_le_sum (f := fun t => if s.held t d then (1 : ℤ) else 0) (fun u _ => by split <;> simp) (Finset.mem_univ t)
  rw [if_pos ht] at hle
  omega

omit [DecidableEq D] [DecidableEq W] [DecidableEq T] in
theorem holders_pos {d : D} {t : T} (h : s.held t d = true) : 0 < holders s d := by
  by_contra hle
  rw [no_holder (not_lt.mp hle) t] at h
  cases h

/-- The count parts from the references held when one is released that was not taken. -/
theorem effect_excess (hi : Inv prog remover s) {t : T} {op : Op D W} {rest : List (Op D W)} {s₁ : State D W T}
    (htodo : s.todo t = op :: rest) (he : Effect s t op s₁) (d : D) :
    holders s₁ d - s₁.count d =
      holders s d - s.count d + (if refs d op = some false ∧ s.held t d = false then 1 else 0) := by
  have hh := effect_holders he d
  rw [effect_held he] at hh
  rw [effect_count he]
  cases hr : refs d op with
  | none => simp only [hr] at hh ⊢; simp; omega
  | some opens =>
    cases opens with
    | true =>
      have ht := not_held_of_opens hi htodo hr
      cases hrem : s.removed d <;> simp [hr, ht, hrem] at hh ⊢ <;> omega
    | false => cases ht : s.held t d <;> simp [hr, ht] at hh ⊢ <;> omega

theorem count_le_holders (hp : Protocol prog remover) (h : (system prog).Reachable s) (d : D) :
    s.count d ≤ holders s d := by
  have hI : Inv prog remover s ∧ ∀ d, s.count d ≤ holders s d := by
    apply h.invariant (I := fun s => Inv prog remover s ∧ ∀ d, s.count d ≤ holders s d)
    · intro s hs
      exact hs ▸ ⟨inv_begin hp, fun d => by simp [holders, begin]⟩
    · intro s t s' hi hs
      refine ⟨inv_step hp hi.1 hs, ?_⟩
      intro d
      obtain ⟨op, rest, s₁, htodo, he, rfl⟩ := step_effect hs
      have hx := effect_excess hi.1 htodo he d
      have hle := hi.2 d
      change s₁.count d ≤ holders s₁ d
      split at hx <;> omega
  exact hI.2 d

/-- Whoever has a reference to give up has taken it, and the count counts them. -/
structure Exact (s : State D W T) (d : D) : Prop where
  held : ∀ t, inside (refs d) (s.todo t) = true → s.held t d = true
  count : s.count d = holders s d

omit [DecidableEq T] in
theorem exact_begin (hp : Protocol prog remover) (d : D) : Exact (begin prog) d where
  held t ht := by
    have : inside (refs d) (prog t) = true := ht
    rw [(hp.refs t d).2] at this
    cases this
  count := by simp [holders, begin]

theorem exact_step (hp : Protocol prog remover) (hi : Inv prog remover s) {t : T} {d : D} (hx : Exact s d)
    (ht : (s.todo t).head? = some (.acquire d) → s.removed d = false) (h : step s t = some s') : Exact s' d := by
  obtain ⟨op, rest, s₁, htodo, he, rfl⟩ := step_effect h
  have halt := alternates_suffix (hi.suffix t) (hp.refs t d).1
  have hin := hx.held t
  rw [htodo] at halt hin ht
  constructor
  · intro u hu
    change s₁.held u d = true
    by_cases hut : u = t
    · subst hut
      simp only [Function.update_self] at hu
      rw [effect_held he]
      cases hr : refs d op with
      | none => exact hin (by rwa [inside_other hr])
      | some opens =>
        cases opens with
        | true => simp [ht (by rw [eq_acquire hr, List.head?_cons])]
        | false =>
          rw [not_inside_of_close halt hr] at hu
          cases hu
    · simp only [Function.update_of_ne hut] at hu
      rw [effect_held_other he hut]
      exact hx.held u hu
  · change s₁.count d = holders s₁ d
    have hex := effect_excess hi htodo he d
    rw [if_neg ?_, hx.count] at hex
    · omega
    · intro hex
      obtain ⟨hr, hf⟩ := hex
      rw [hin (inside_close hr)] at hf
      cases hf

/-- The step acquires no reference after the removal has begun, unless it is the remover's. -/
def Timely (remover : D → T) (s : State D W T) (t : T) : Prop :=
  ∀ d, t ≠ remover d → (s.todo t).head? = some (.acquire d) → s.removed d = false

instance [Fintype D] (remover : D → T) (s : State D W T) (t : T) : Decidable (Timely remover s t) :=
  inferInstanceAs (Decidable (∀ _, _ → _ → _))

structure Sound (prog : T → List (Op D W)) (remover : D → T) (s : State D W T) : Prop where
  inv : Inv prog remover s
  exact : ∀ d, Exact s d
  drained : ∀ d, s.drained d = true → ∀ t, s.held t d = false

theorem sound_step (hp : Protocol prog remover) (h : Sound prog remover s) {t : T} (ht : Timely remover s t)
    (hs : step s t = some s') : Sound prog remover s' := by
  have hi' := inv_step hp h.inv hs
  refine ⟨hi', fun d => exact_step hp h.inv (h.exact d) ?_ hs, ?_⟩
  · intro hhead
    by_cases hown : t = remover d
    · obtain ⟨op, rest, s₁, htodo, -, -⟩ := step_effect hs
      rw [htodo] at hhead
      cases hhead
      exact removed_of_own hp h.inv (hown ▸ htodo)
    · exact ht d hown hhead
  · obtain ⟨op, rest, s₁, htodo, he, rfl⟩ := step_effect hs
    intro d hd u
    change s₁.held u d = false
    rcases (effect_drained he d).mp hd with hdr | rfl
    · have hold := h.drained d hdr
      by_cases hut : u = t
      · subst hut
        rw [effect_held he]
        split <;> simp [hold, h.inv.removed_of_drained d hdr]
      · rw [effect_held_other he hut]
        exact hold u
    · cases he with
      | await _ hle =>
        refine no_holder (s := s) ?_ u
        rw [← (h.exact d).count]
        exact hle

theorem sound_of_timely (hp : Protocol prog remover) (h : (system prog).ReachUnder (Timely remover) s) :
    Sound prog remover s := by
  refine h.invariant (I := Sound prog remover) ?_ fun s t s' hi ht hs => sound_step hp hi ht hs
  intro s hs
  exact hs ▸ ⟨inv_begin hp, exact_begin hp, fun d h => by cases h⟩

end

end Dmsk.Rundown
