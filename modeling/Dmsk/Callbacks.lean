import Mathlib.Data.List.Basic
import Dmsk.Progress

/-!
# Callbacks that are registered and revoked

An owner builds objects, registers callbacks that use them and takes both down
again. While a callback is registered, calls of it start at any time and run
beside the owner and beside each other; whoever has revoked it may wait until
no call of it is running. Looking at the owner's program alone (`check`) tells
that no call meets an object that is not there, whatever the interleaving, and
that somebody can go on until the owner is done.
-/

namespace Dmsk.Callbacks

variable {C K O : Type}

/-- What a call does with an object; a lock is one, and may be shared. -/
inductive Step (O : Type) where
  | access (o : O)
  | acquire (o : O) (shared : Bool)
  | release (o : O) (shared : Bool)
deriving DecidableEq, Repr

@[simp] def Step.object : Step O → O
  | .access o | .acquire o _ | .release o _ => o

/-- What the owner does. `follow` uses what the registration has returned. -/
inductive Op (K O : Type) where
  | step (x : Step O)
  | construct (o : O)
  | destruct (o : O)
  | register (k : K)
  | follow (k : K)
  | revoke (k : K)
  | await (k : K)
deriving DecidableEq, Repr

inductive Fault (K O : Type) where
  | dead (o : O)
  | unregistered (k : K)
deriving DecidableEq, Repr

structure Thread (X O : Type) where
  held : List (O × Bool)
  todo : List X
deriving DecidableEq, Repr

/-- `refused` lists the registrations that failed. -/
structure State (K O : Type) where
  live : List O
  registered : List K
  refused : List K
  owner : Thread (Op K O) O
  running : List (K × Thread (Step O) O)
  fault : Option (Fault K O)
deriving DecidableEq, Repr

inductive Act (C : Type) where
  | start (c : C)
  | call (i : ℕ)
  | owner (succeeds : Bool)
deriving DecidableEq, Repr

section
variable [DecidableEq O]

/-- The lock that a thread holds after a step, one at a time. -/
def Step.next : Step O → Option (O × Bool) → Option (Option (O × Bool))
  | .access _, h => some h
  | .acquire o b, none => some (some (o, b))
  | .release o b, some h => if h = (o, b) then some none else none
  | _, _ => none

def Balanced : Option (O × Bool) → List (Step O) → Prop
  | h, [] => h = none
  | h, x :: xs => ∃ h', x.next h = some h' ∧ Balanced h' xs

@[simp] theorem balanced_nil {h : Option (O × Bool)} : Balanced h [] ↔ h = none := .rfl

@[simp] theorem balanced_access {h : Option (O × Bool)} {o : O} {xs : List (Step O)} :
    Balanced h (.access o :: xs) ↔ Balanced h xs := by
  simp [Balanced, Step.next]

@[simp] theorem balanced_acquire {o : O} {b : Bool} {xs : List (Step O)} :
    Balanced none (.acquire o b :: xs) ↔ Balanced (some (o, b)) xs := by
  simp [Balanced, Step.next]

@[simp] theorem balanced_release {o : O} {b : Bool} {xs : List (Step O)} :
    Balanced (some (o, b)) (.release o b :: xs) ↔ Balanced none xs := by
  simp [Balanced, Step.next]

@[simp] theorem balanced_accesses {h : Option (O × Bool)} {o : O} {n : ℕ} {xs : List (Step O)} :
    Balanced h (List.replicate n (.access o) ++ xs) ↔ Balanced h xs := by
  induction n with
  | zero => rfl
  | succ n ih => rw [List.replicate_succ, List.cons_append, balanced_access, ih]

@[simp] theorem balanced_accesses_last {h : Option (O × Bool)} {o : O} {n : ℕ} :
    Balanced h (List.replicate n (.access o)) ↔ h = none := by
  rw [← List.append_nil (List.replicate _ _), balanced_accesses]
  rfl

/-- The calls that there are, and the objects that those of one kind use. -/
structure Calls (C K O : Type) [DecidableEq O] where
  kind : C → K
  body : C → List (Step O)
  uses : K → List O
  within : ∀ c, ∀ x ∈ body c, x.object ∈ uses (kind c)
  balanced : ∀ c, Balanced none (body c)

def State.holds (s : State K O) : List (O × Bool) := s.owner.held ++ s.running.flatMap fun r => r.2.held

def State.free (s : State K O) (o : O) (shared : Bool) : Bool := s.holds.all fun h => h.1 ≠ o || (shared && h.2)

/-- A step of a thread: `none` when it waits for a lock, else what it holds then. -/
def perform (s : State K O) (held : List (O × Bool)) (x : Step O) : Option (Except (Fault K O) (List (O × Bool))) :=
  if x.object ∈ s.live then
    match x with
    | .access _ => some (.ok held)
    | .acquire o b => if s.free o b then some (.ok ((o, b) :: held)) else none
    | .release o b => some (.ok (held.erase (o, b)))
  else some (.error (.dead x.object))

variable [DecidableEq K]

def callStep (s : State K O) (i : ℕ) (k : K) : Thread (Step O) O → Option (State K O)
  | ⟨_, []⟩ => some { s with running := s.running.eraseIdx i }
  | ⟨held, x :: xs⟩ =>
    match perform s held x with
    | some (.ok h) => some { s with running := s.running.set i (k, ⟨h, xs⟩) }
    | some (.error e) => some { s with fault := some e }
    | none => none

def State.next (s : State K O) (ops : List (Op K O)) : State K O := { s with owner := ⟨s.owner.held, ops⟩ }

def ownerStep (s : State K O) (succeeds : Bool) (ops : List (Op K O)) : Op K O → Option (State K O)
  | .step x =>
    match perform s s.owner.held x with
    | some (.ok h) => some { s with owner := ⟨h, ops⟩ }
    | some (.error e) => some { s with fault := some e }
    | none => none
  | .construct o => some { s.next ops with live := o :: s.live }
  | .destruct o =>
    if o ∈ s.live then some { s.next ops with live := s.live.filter (· ≠ o) } else some { s with fault := some (.dead o) }
  | .register k =>
    if succeeds then some { s.next ops with registered := k :: s.registered }
    else some { s.next ops with refused := k :: s.refused }
  | .follow k => if k ∈ s.registered then some (s.next ops) else some { s with fault := some (.unregistered k) }
  | .revoke k => some { s.next ops with registered := s.registered.filter (· ≠ k) }
  | .await k => if s.running.any fun r => r.1 = k then none else some (s.next ops)

variable (F : Calls C K O)

def step (s : State K O) (a : Act C) : Option (State K O) :=
  if s.fault.isSome then none
  else match a with
  | .start c =>
    if F.kind c ∈ s.registered then some { s with running := s.running ++ [(F.kind c, ⟨[], F.body c⟩)] } else none
  | .call i =>
    match s.running[i]? with
    | some (k, t) => callStep s i k t
    | none => none
  | .owner succeeds =>
    match s.owner.todo with
    | op :: ops => ownerStep s succeeds ops op
    | [] => none

def begin (ops : List (Op K O)) : State K O := ⟨[], [], [], ⟨[], ops⟩, [], none⟩

def system (ops : List (Op K O)) : System (State K O) (Act C) where
  init s := s = begin ops
  step := step F

/-! ## The check -/

/-- What is known at a point of the owner's program. Calls of what was `started` may be running. -/
structure Ctx (K O : Type) where
  held : Option (O × Bool)
  live : List O
  registered : List K
  started : List K
deriving DecidableEq, Repr

def guard (uses : K → List O) (c : Ctx K O) : Op K O → Bool
  | .step x => c.live.contains x.object && (x.next c.held).isSome
  | .construct _ | .revoke _ => true
  | .destruct o => c.live.contains o && c.started.all fun k => !(uses k).contains o
  | .register k => (uses k).all c.live.contains
  | .follow k => c.registered.contains k
  | .await k => c.held.isNone && !c.registered.contains k

def effect (c : Ctx K O) : Op K O → Ctx K O
  | .step x => { c with held := (x.next c.held).getD none }
  | .construct o => { c with live := o :: c.live }
  | .destruct o => { c with live := c.live.filter (· ≠ o) }
  | .register k => { c with registered := k :: c.registered, started := k :: c.started }
  | .follow _ => c
  | .revoke k => { c with registered := c.registered.filter (· ≠ k) }
  | .await k => { c with started := c.started.filter (· ≠ k) }

/-- `left` is what the owner leaves behind. -/
def check (uses : K → List O) (left : List O) : Ctx K O → List (Op K O) → Bool
  | c, [] => c.held.isNone && c.started.isEmpty && c.live = left
  | c, op :: ops => guard uses c op && check uses left (effect c op) ops

end

section
variable [DecidableEq O] {s : State K O} {h h' : Option (O × Bool)} {x : Step O}

/-- A step on an object that is there goes through, or it waits for a lock and nothing is held meanwhile. -/
theorem perform_next (hl : x.object ∈ s.live) (hn : x.next h = some h') :
    perform s h.toList x = some (.ok h'.toList) ∨
      perform s h.toList x = none ∧ h = none ∧ ∃ o b, s.free o b = false := by
  unfold perform
  rw [if_pos hl]
  cases x with
  | access o =>
    cases hn
    exact .inl rfl
  | acquire o b =>
    cases h with
    | some p => cases hn
    | none =>
      cases hn
      cases hf : s.free o b with
      | false => exact .inr ⟨by simp [hf], rfl, o, b, hf⟩
      | true => exact .inl (by simp [hf])
  | release o b =>
    cases h with
    | none => cases hn
    | some p =>
      simp only [Step.next] at hn
      split at hn
      · rename_i hp
        cases hn
        exact .inl (by simp [hp])
      · cases hn

theorem split_at {α : Type} {l : List α} {i : ℕ} {r : α} (h : l[i]? = some r) :
    ∃ l₁ l₂, l = l₁ ++ r :: l₂ ∧ (∀ r', l.set i r' = l₁ ++ r' :: l₂) ∧ l.eraseIdx i = l₁ ++ l₂ := by
  obtain ⟨hi, rfl⟩ := List.getElem?_eq_some_iff.mp h
  refine ⟨l.take i, l.drop (i + 1), ?_, fun r' => ?_, List.eraseIdx_eq_take_drop_succ l i⟩
  · rw [← List.drop_eq_getElem_cons hi, List.take_append_drop]
  · rw [List.set_eq_take_append_cons_drop, if_pos hi]

variable (F : Calls C K O)

/-- The state is as the check has it at this point of the owner's program. -/
structure Sync (c : Ctx K O) (s : State K O) : Prop where
  held : s.owner.held = c.held.toList
  live : s.live = c.live
  registered : ∀ k ∈ s.registered, k ∈ c.registered
  refused : ∀ k ∈ c.registered, k ∈ s.registered ∨ k ∈ s.refused
  started : ∀ k ∈ c.registered, k ∈ c.started
  uses : ∀ k ∈ c.started, ∀ o ∈ F.uses k, o ∈ c.live
  running : ∀ r ∈ s.running, r.1 ∈ c.started ∧ (∀ x ∈ r.2.todo, x.object ∈ F.uses r.1) ∧
    ∃ h : Option (O × Bool), r.2.held = h.toList ∧ Balanced h r.2.todo

variable {F} {c : Ctx K O} {s' : State K O}

theorem Sync.start (h : Sync F c s) {a : C} (ha : F.kind a ∈ s.registered) :
    Sync F c { s with running := s.running ++ [(F.kind a, ⟨[], F.body a⟩)] } where
  held := h.held
  live := h.live
  registered := h.registered
  refused := h.refused
  started := h.started
  uses := h.uses
  running r hr := by
    rcases List.mem_append.mp hr with hr | hr
    · exact h.running r hr
    · rw [List.mem_singleton.mp hr]
      exact ⟨h.started _ (h.registered _ ha), F.within a, none, rfl, F.balanced a⟩

theorem Sync.call (h : Sync F c s) {i : ℕ} {k : K} {t : Thread (Step O) O} (hi : s.running[i]? = some (k, t))
    (hs : callStep s i k t = some s') : Sync F c s' ∧ s'.owner = s.owner ∧ s'.fault = s.fault := by
  obtain ⟨l₁, l₂, hl, hset, herase⟩ := split_at hi
  have hrunning : ∀ r ∈ l₁ ++ l₂, r ∈ s.running := by
    intro r hr
    rw [hl]
    simp only [List.mem_append, List.mem_cons] at hr ⊢
    tauto
  obtain ⟨hk, hin, g, hg, hbal⟩ := h.running (k, t) (List.mem_of_getElem? hi)
  obtain ⟨held, todo⟩ := t
  cases todo with
  | nil =>
    cases hs
    refine ⟨⟨h.held, h.live, h.registered, h.refused, h.started, h.uses, fun r hr => ?_⟩, rfl, rfl⟩
    rw [show _ = l₁ ++ l₂ from herase] at hr
    exact h.running r (hrunning r hr)
  | cons x xs =>
    obtain ⟨g', hnext, hbal⟩ := hbal
    have hx : x.object ∈ s.live := h.live ▸ h.uses k hk _ (hin x List.mem_cons_self)
    dsimp only at hg
    subst hg
    simp only [callStep] at hs
    rcases perform_next hx hnext with hp | ⟨hp, -⟩
    · rw [hp] at hs
      cases hs
      refine ⟨⟨h.held, h.live, h.registered, h.refused, h.started, h.uses, fun r hr => ?_⟩, rfl, rfl⟩
      rw [show _ = l₁ ++ (k, _) :: l₂ from hset _, List.mem_append, List.mem_cons] at hr
      rcases hr with hr | rfl | hr
      · exact h.running r (hrunning r (List.mem_append_left _ hr))
      · exact ⟨hk, fun y hy => hin y (List.mem_cons_of_mem _ hy), g', rfl, hbal⟩
      · exact h.running r (hrunning r (List.mem_append_right _ hr))
    · rw [hp] at hs
      cases hs

variable [DecidableEq K]

/-- An operation of the owner keeps the state in step with the check, or it misses a registration that failed. -/
theorem Sync.owner (h : Sync F c s) {op : Op K O} {ops : List (Op K O)} (hg : guard F.uses c op = true)
    {succeeds : Bool} (hs : ownerStep s succeeds ops op = some s') :
    Sync F (effect c op) s' ∧ s'.owner.todo = ops ∧ s'.fault = s.fault ∨
      Sync F c s' ∧ s'.owner = s.owner ∧ ∃ k ∈ s'.refused, op = .follow k ∧ s'.fault = some (.unregistered k) := by
  cases op with
  | step x =>
    simp only [guard, Bool.and_eq_true, List.contains_iff_mem] at hg
    obtain ⟨g, hnext⟩ := Option.isSome_iff_exists.mp hg.2
    have hx : x.object ∈ s.live := h.live ▸ hg.1
    simp only [ownerStep, h.held] at hs
    rcases perform_next hx hnext with hp | ⟨hp, -⟩
    · rw [hp] at hs
      cases hs
      refine .inl ⟨⟨?_, h.live, h.registered, h.refused, h.started, h.uses, h.running⟩, rfl, rfl⟩
      simp only [effect, hnext, Option.getD_some]
    · rw [hp] at hs
      cases hs
  | construct o =>
    cases hs
    exact .inl ⟨⟨h.held, by simp [effect, h.live], h.registered, h.refused, h.started,
      fun k hk u hu => List.mem_cons_of_mem _ (h.uses k hk u hu), h.running⟩, rfl, rfl⟩
  | destruct o =>
    obtain ⟨ho, hunused⟩ : o ∈ c.live ∧ ∀ k ∈ c.started, o ∉ F.uses k := by simpa [guard] using hg
    rw [ownerStep, if_pos (h.live ▸ ho)] at hs
    cases hs
    refine .inl ⟨⟨h.held, by simp [effect, h.live], h.registered, h.refused, h.started, fun k hk u hu => ?_, h.running⟩,
      rfl, rfl⟩
    exact List.mem_filter.mpr ⟨h.uses k hk u hu, decide_eq_true fun huo => hunused k hk (huo ▸ hu)⟩
  | register k =>
    simp only [guard, List.all_eq_true, List.contains_iff_mem] at hg
    have huses : ∀ j ∈ k :: c.started, ∀ o ∈ F.uses j, o ∈ c.live := by
      intro j hj
      rcases List.mem_cons.mp hj with rfl | hj
      · exact hg
      · exact h.uses j hj
    have hrunning : ∀ r ∈ s.running, r.1 ∈ k :: c.started ∧ (∀ x ∈ r.2.todo, x.object ∈ F.uses r.1) ∧
        ∃ h : Option (O × Bool), r.2.held = h.toList ∧ Balanced h r.2.todo :=
      fun r hr => ⟨List.mem_cons_of_mem _ (h.running r hr).1, (h.running r hr).2⟩
    have hstarted : ∀ j ∈ k :: c.registered, j ∈ k :: c.started := by
      intro j hj
      rcases List.mem_cons.mp hj with rfl | hj
      · exact List.mem_cons_self
      · exact List.mem_cons_of_mem _ (h.started j hj)
    simp only [ownerStep] at hs
    split at hs
    · cases hs
      refine .inl ⟨⟨h.held, h.live, fun j hj => ?_, fun j hj => ?_, hstarted, huses, hrunning⟩, rfl, rfl⟩
      · rcases List.mem_cons.mp hj with rfl | hj
        · exact List.mem_cons_self
        · exact List.mem_cons_of_mem _ (h.registered j hj)
      · rcases List.mem_cons.mp hj with rfl | hj
        · exact .inl List.mem_cons_self
        · exact (h.refused j hj).imp (List.mem_cons_of_mem _) id
    · cases hs
      refine .inl ⟨⟨h.held, h.live, fun j hj => List.mem_cons_of_mem _ (h.registered j hj), fun j hj => ?_, hstarted,
        huses, hrunning⟩, rfl, rfl⟩
      rcases List.mem_cons.mp hj with rfl | hj
      · exact .inr List.mem_cons_self
      · exact (h.refused j hj).imp id (List.mem_cons_of_mem _)
  | follow k =>
    simp only [guard, List.contains_iff_mem] at hg
    simp only [ownerStep] at hs
    split at hs
    · cases hs
      exact .inl ⟨⟨h.held, h.live, h.registered, h.refused, h.started, h.uses, h.running⟩, rfl, rfl⟩
    · rename_i hk
      cases hs
      exact .inr ⟨⟨h.held, h.live, h.registered, h.refused, h.started, h.uses, h.running⟩, rfl, k,
        (h.refused k hg).resolve_left hk, rfl, rfl⟩
  | revoke k =>
    cases hs
    refine .inl ⟨⟨h.held, h.live, fun j hj => ?_, fun j hj => ?_, fun j hj => h.started j (List.mem_filter.mp hj).1,
      h.uses, h.running⟩, rfl, rfl⟩
    · obtain ⟨hj, hne⟩ := List.mem_filter.mp hj
      exact List.mem_filter.mpr ⟨h.registered j hj, hne⟩
    · obtain ⟨hj, hne⟩ := List.mem_filter.mp hj
      exact (h.refused j hj).imp (fun hj => List.mem_filter.mpr ⟨hj, hne⟩) id
  | await k =>
    simp only [guard, Bool.and_eq_true, Bool.not_eq_true', List.contains_eq_mem, decide_eq_false_iff_not] at hg
    simp only [ownerStep] at hs
    split at hs
    · cases hs
    · rename_i hnone
      cases hs
      have hne : ∀ r ∈ s.running, r.1 ≠ k :=
        fun r hr hrk => hnone (List.any_eq_true.mpr ⟨r, hr, decide_eq_true hrk⟩)
      refine .inl ⟨⟨h.held, h.live, h.registered, h.refused, fun j hj => ?_, fun j hj => h.uses j (List.mem_filter.mp hj).1,
        fun r hr => ⟨?_, (h.running r hr).2⟩⟩, rfl, rfl⟩
      · exact List.mem_filter.mpr ⟨h.started j hj, decide_eq_true fun hjk => hg.2 (hjk ▸ hj)⟩
      · exact List.mem_filter.mpr ⟨(h.running r hr).1, decide_eq_true (hne r hr)⟩

/-! ## Runs -/

variable (F) in
/-- Nothing but a registration that failed is missed, and only by an operation that follows it. -/
structure Inv (left : List O) (ops : List (Op K O)) (s : State K O) : Prop where
  sync : ∃ c, Sync F c s ∧ check F.uses left c s.owner.todo = true
  suffix : s.owner.todo <:+ ops
  fault : s.fault = none ∨ ∃ k ∈ s.refused, .follow k ∈ ops ∧ s.fault = some (.unregistered k)

variable {left : List O} {ops : List (Op K O)}

theorem inv_begin (hcheck : check F.uses left ⟨none, [], [], []⟩ ops = true) : Inv F left ops (begin ops) where
  sync := by
    refine ⟨⟨none, [], [], []⟩, ⟨rfl, rfl, ?_, ?_, ?_, ?_, ?_⟩, hcheck⟩ <;> intro r hr <;> cases hr
  suffix := List.suffix_refl ops
  fault := .inl rfl

theorem inv_step {a : Act C} (h : Inv F left ops s) (hs : step F s a = some s') : Inv F left ops s' := by
  obtain ⟨⟨c, hc, hcheck⟩, hsuffix, -⟩ := h
  unfold step at hs
  split at hs
  · cases hs
  · have hnone : s.fault = none := by simpa using ‹¬ s.fault.isSome = true›
    cases a with
    | start a =>
      simp only at hs
      split at hs
      · cases hs
        exact ⟨⟨c, hc.start ‹_›, hcheck⟩, hsuffix, .inl hnone⟩
      · cases hs
    | call i =>
      simp only at hs
      split at hs
      · obtain ⟨hc', ho, hf⟩ := hc.call ‹_› hs
        exact ⟨⟨c, hc', ho ▸ hcheck⟩, ho ▸ hsuffix, .inl (hf.trans hnone)⟩
      · cases hs
    | owner succeeds =>
      simp only at hs
      split at hs
      · rename_i op rest htodo
        have hgc := hcheck
        rw [htodo, check, Bool.and_eq_true] at hgc
        rcases hc.owner hgc.1 hs with ⟨hc', ho, hf⟩ | ⟨hc', ho, k, hk, rfl, hf⟩
        · refine ⟨⟨effect c op, hc', ho ▸ hgc.2⟩, ?_, .inl (hf.trans hnone)⟩
          rw [ho]
          exact ((htodo ▸ List.suffix_cons op rest : rest <:+ s.owner.todo)).trans hsuffix
        · refine ⟨⟨c, hc', ho ▸ hcheck⟩, ho ▸ hsuffix, .inr ⟨k, hk, hsuffix.subset ?_, hf⟩⟩
          rw [htodo]
          exact List.mem_cons_self
      · cases hs

theorem inv_reachable (hcheck : check F.uses left ⟨none, [], [], []⟩ ops = true) (hr : (system F ops).Reachable s) :
    Inv F left ops s := by
  refine hr.invariant (I := Inv F left ops) ?_ ?_
  · intro s hs
    rw [show s = begin ops from hs]
    exact inv_begin hcheck
  · intro s a s' h hs
    exact inv_step h hs

/-- When the owner is done no call is running, and what is left is what the check says. -/
theorem Inv.finished (h : Inv F left ops s) (ht : s.owner.todo = []) : s.running = [] ∧ s.registered = [] ∧ s.live = left := by
  obtain ⟨c, hc, hcheck⟩ := h.sync
  rw [ht, check, Bool.and_eq_true, Bool.and_eq_true, List.isEmpty_iff, decide_eq_true_eq] at hcheck
  obtain ⟨⟨-, hstarted⟩, hleft⟩ := hcheck
  refine ⟨List.eq_nil_iff_forall_not_mem.mpr fun r hr => ?_, List.eq_nil_iff_forall_not_mem.mpr fun k hk => ?_,
    hc.live.trans hleft⟩
  · have := (hc.running r hr).1
    rw [hstarted] at this
    cases this
  · have := hc.started k (hc.registered k hk)
    rw [hstarted] at this
    cases this

/-! ## Somebody can go on -/

omit [DecidableEq K] in
theorem perform_ne_none (hl : x.object ∈ s.live) (hn : x.next h = some h') (hfree : h ≠ none ∨ ∀ o b, s.free o b = true) :
    perform s h.toList x ≠ none := by
  intro hp
  rcases perform_next hl hn with hp' | ⟨-, hnone, o, b, hb⟩
  · rw [hp] at hp'
    cases hp'
  · rcases hfree with hne | hall
    · exact hne hnone
    · rw [hall o b] at hb
      cases hb

omit [DecidableEq K] in
theorem callStep_isSome {i : ℕ} {k : K} {t : Thread (Step O) O} (ht : ∀ x xs, t.todo = x :: xs → perform s t.held x ≠ none) :
    (callStep s i k t).isSome := by
  obtain ⟨held, todo⟩ := t
  cases todo with
  | nil => rfl
  | cons x xs =>
    simp only [callStep]
    have := ht x xs rfl
    split
    · rfl
    · rfl
    · exact absurd ‹_› this

theorem ownerStep_isSome {op : Op K O} (hstep : ∀ x, op = .step x → perform s s.owner.held x ≠ none)
    (hawait : ∀ k, op = .await k → s.running = []) : (ownerStep s true ops op).isSome := by
  cases op with
  | step x =>
    simp only [ownerStep]
    have := hstep x rfl
    split
    · rfl
    · rfl
    · exact absurd ‹_› this
  | await k => simp [ownerStep, hawait k rfl]
  | construct o | revoke k => rfl
  | register k => rfl
  | destruct o =>
    simp only [ownerStep]
    split <;> rfl
  | follow k =>
    simp only [ownerStep]
    split <;> rfl

/-- Whoever holds a lock goes on; if nobody does, a call goes on, and if none is running the owner does. -/
theorem Inv.goes_on (h : Inv F left ops s) (hf : s.fault = none) (hopen : s.owner.todo ≠ [] ∨ s.running ≠ []) :
    ∃ a : Act C, (∀ c, a ≠ .start c) ∧ (step F s a).isSome := by
  obtain ⟨c, hc, hcheck⟩ := h.sync
  have hcall : ∀ r ∈ s.running, (r.2.held ≠ [] ∨ ∀ o b, s.free o b = true) →
      ∃ a : Act C, (∀ c, a ≠ .start c) ∧ (step F s a).isSome := by
    intro r hr hfree
    obtain ⟨i, hi⟩ := List.mem_iff_getElem?.mp hr
    obtain ⟨hk, hin, g, hg, hbal⟩ := hc.running r hr
    refine ⟨.call i, fun c => by simp, ?_⟩
    simp only [step, hf, hi]
    refine callStep_isSome fun x xs hx => ?_
    rw [hx] at hin hbal
    obtain ⟨g', hnext, -⟩ := hbal
    rw [hg] at hfree ⊢
    refine perform_ne_none (hc.live ▸ hc.uses _ hk _ (hin x List.mem_cons_self)) hnext (hfree.imp_left fun hne hn => ?_)
    subst hn
    exact hne rfl
  have howner : s.owner.todo ≠ [] → (s.owner.held ≠ [] ∨ (∀ o b, s.free o b = true) ∧ s.running = []) →
      ∃ a : Act C, (∀ c, a ≠ .start c) ∧ (step F s a).isSome := by
    intro hne hfree
    obtain ⟨op, ops, htodo⟩ := List.exists_cons_of_ne_nil hne
    rw [htodo, check, Bool.and_eq_true] at hcheck
    refine ⟨.owner true, fun c => by simp, ?_⟩
    simp only [step, hf, htodo]
    refine ownerStep_isSome (fun x hx => ?_) fun k hk => ?_
    · subst hx
      obtain ⟨hl, g', hnext⟩ : x.object ∈ c.live ∧ ∃ g', x.next c.held = some g' := by
        simpa [guard, Option.isSome_iff_exists] using hcheck.1
      rw [hc.held] at hfree ⊢
      refine perform_ne_none (hc.live ▸ hl) hnext (hfree.imp (fun hne hn => ?_) And.left)
      rw [hn] at hne
      exact hne rfl
    · subst hk
      refine hfree.elim (fun hheld => ?_) And.right
      have hnone : c.held = none := by
        have := hcheck.1
        simp only [guard, Bool.and_eq_true, Option.isNone_iff_eq_none] at this
        exact this.1
      rw [hc.held, hnone] at hheld
      exact absurd rfl hheld
  by_cases hheld : s.owner.held = []
  · by_cases hothers : ∃ r ∈ s.running, r.2.held ≠ []
    · obtain ⟨r, hr, hne⟩ := hothers
      exact hcall r hr (.inl hne)
    · have hfree : ∀ o b, s.free o b = true := by
        intro o b
        refine List.all_eq_true.mpr fun g hg => ?_
        rw [State.holds, hheld, List.nil_append] at hg
        obtain ⟨r, hr, hgr⟩ := List.mem_flatMap.mp hg
        exact absurd ⟨r, hr, List.ne_nil_of_mem hgr⟩ hothers
      cases hrun : s.running with
      | nil => exact howner (hopen.resolve_right fun hne => hne hrun) (.inr ⟨hfree, hrun⟩)
      | cons r rs => exact hcall r (hrun ▸ List.mem_cons_self) (.inr hfree)
  · refine howner (fun htodo => hheld ?_) (.inl hheld)
    rw [htodo, check, Bool.and_eq_true, Bool.and_eq_true, Option.isNone_iff_eq_none] at hcheck
    rw [hc.held, hcheck.1.1]
    rfl

/-- The steps that are left: those of the owner, those of the calls that are running, and a fault. -/
def rank (s : State K O) : ℕ :=
  s.owner.todo.length + (s.running.map fun r => r.2.todo.length + 1).sum + s.fault.isNone.toNat

variable (F) in
def cost : Act C → ℕ
  | .start c => (F.body c).length + 2
  | .call _ | .owner _ => 0

omit [DecidableEq K] in
theorem rank_callStep {i : ℕ} {k : K} {th : Thread (Step O) O} (hf : s.fault = none) (hi : s.running[i]? = some (k, th))
    (hs : callStep s i k th = some s') : rank s' + 1 ≤ rank s := by
  obtain ⟨l₁, l₂, hl, hset, herase⟩ := split_at hi
  obtain ⟨held, todo⟩ := th
  cases todo with
  | nil =>
    cases hs
    simp only [rank]
    rw [herase, hl]
    simp only [List.map_append, List.map_cons, List.sum_append, List.sum_cons, List.length_nil]
    omega
  | cons x xs =>
    simp only [callStep] at hs
    split at hs
    · cases hs
      simp only [rank]
      rw [hset, hl]
      simp only [List.map_append, List.map_cons, List.sum_append, List.sum_cons, List.length_cons]
      omega
    · cases hs
      simp [rank, hf]
    · cases hs

theorem rank_ownerStep {op : Op K O} {succeeds : Bool} (hf : s.fault = none) (ht : s.owner.todo = op :: ops)
    (hs : ownerStep s succeeds ops op = some s') : rank s' + 1 ≤ rank s := by
  have hnext : rank (s.next ops) + 1 ≤ rank s := by
    simp only [rank, State.next, ht, List.length_cons]
    omega
  have hfault : ∀ e, rank { s with fault := some e } + 1 ≤ rank s := by
    intro e
    simp [rank, hf]
  unfold ownerStep at hs
  split at hs
  · split at hs
    · cases hs
      exact hnext
    · cases hs
      exact hfault _
    · cases hs
  · cases hs
    exact hnext
  · split at hs
    · cases hs
      exact hnext
    · cases hs
      exact hfault _
  · split at hs <;>
    · cases hs
      exact hnext
  · split at hs
    · cases hs
      exact hnext
    · cases hs
      exact hfault _
  · cases hs
    exact hnext
  · split at hs
    · cases hs
    · cases hs
      exact hnext

theorem rank_step {a : Act C} (hs : step F s a = some s') : rank s' + 1 ≤ rank s + cost F a := by
  unfold step at hs
  split at hs
  · cases hs
  · have hnone : s.fault = none := by simpa using ‹¬ s.fault.isSome = true›
    cases a with
    | start a =>
      simp only at hs
      split at hs
      · cases hs
        simp only [rank, cost, List.map_append, List.sum_append, List.map_cons, List.map_nil, List.sum_cons, List.sum_nil]
        omega
      · cases hs
    | call i =>
      simp only at hs
      split at hs
      · exact rank_callStep hnone ‹_› hs
      · cases hs
    | owner succeeds =>
      simp only at hs
      split at hs
      · exact rank_ownerStep hnone ‹_› hs
      · cases hs

theorem exec_length {as : List (Act C)} (hs : (system F ops).exec (fun _ _ => True) (begin ops) as = some s) :
    as.length ≤ ops.length + 1 + (as.map (cost F)).sum := by
  have h : rank s + as.length ≤ rank (begin ops : State K O) + (as.map (cost F)).sum :=
    System.exec_length_le (I := fun _ => True) (fun _ _ _ _ _ _ => trivial) (fun _ _ _ _ _ hs => rank_step hs) as trivial hs
  have hbegin : rank (begin ops : State K O) = ops.length + 1 := rfl
  omega

end

end Dmsk.Callbacks
