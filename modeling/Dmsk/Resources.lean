import Mathlib.Data.List.Perm.Basic
import Mathlib.Data.List.Nodup
import Mathlib.Data.Nat.Notation

/-!
# Routines that hold resources

A routine calls a system that answers as it likes, opens resources, uses and
closes them, and returns or throws. A ledger keeps what is held, and records a
use or a close of what is not. `Total pre x Q post` says that `x`, given the
resources `pre`, misuses nothing, returns and leaves `post`, whatever else is
held and whatever the system answers. `Triple lost pre x post thrown` says it of
an `x` that may throw, and then leaves `thrown`; an exception may pass the close
of a resource, and `lost` tells by which answers resources of which kind are
left over like that.
-/

namespace Dmsk.Resources

/-- A resource is told from all others by the number of the call that opened it. -/
structure Resource (κ : Type) where
  kind : κ
  number : ℕ
deriving DecidableEq, Repr

structure Ledger (κ ω : Type) where
  answers : ℕ → ω
  calls : ℕ := 0
  opened : List (Resource κ) := []
  closed : List (Resource κ) := []
  held : List (Resource κ) := []
  misused : List (Resource κ) := []

def Routine (κ ω ε α : Type) := Ledger κ ω → Except ε α × Ledger κ ω

variable {κ ω ε α β : Type}

namespace Routine

def bind (x : Routine κ ω ε α) (f : α → Routine κ ω ε β) : Routine κ ω ε β := fun s =>
  match x s with
  | (.ok a, t) => f a t
  | (.error e, t) => (.error e, t)

instance : Monad (Routine κ ω ε) where
  pure a s := (.ok a, s)
  bind := bind

theorem bind_ok {x : Routine κ ω ε α} {f : α → Routine κ ω ε β} {s t : Ledger κ ω} {a : α} (h : x s = (.ok a, t)) :
    (x >>= f) s = f a t := by
  show bind x f s = _
  unfold bind
  rw [h]

theorem bind_error {x : Routine κ ω ε α} {f : α → Routine κ ω ε β} {s t : Ledger κ ω} {e : ε} (h : x s = (.error e, t)) :
    (x >>= f) s = (.error e, t) := by
  show bind x f s = _
  unfold bind
  rw [h]

def throw (e : ε) : Routine κ ω ε α := fun s => (.error e, s)

def tryCatch (x : Routine κ ω ε α) (handler : ε → Routine κ ω ε α) : Routine κ ω ε α := fun s =>
  match x s with
  | (.ok a, t) => (.ok a, t)
  | (.error e, t) => handler e t

/-- A call of the system, with its answer. -/
def call : Routine κ ω ε ω := fun s => (.ok (s.answers s.calls), { s with calls := s.calls + 1 })

/-- A call that throws when the answer is not `ok`. -/
def require (ok : ω → Bool) (e : ε) : Routine κ ω ε Unit := do
  if ok (← call) then pure () else throw e

/-- What a call that has succeeded hands out. -/
def create (kind : κ) : Routine κ ω ε (Resource κ) := fun s =>
  (.ok ⟨kind, s.calls⟩, { s with
    calls := s.calls + 1, opened := s.opened ++ [⟨kind, s.calls⟩], held := ⟨kind, s.calls⟩ :: s.held })

variable [DecidableEq κ]

def use (r : Resource κ) : Routine κ ω ε Unit := fun s =>
  (.ok (), if r ∈ s.held then s else { s with misused := s.misused ++ [r] })

def close (r : Resource κ) : Routine κ ω ε Unit := fun s =>
  (.ok (), if r ∈ s.held then { s with held := s.held.erase r, closed := s.closed ++ [r] }
    else { s with misused := s.misused ++ [r] })

end Routine

open Routine

/-! ## Ledgers -/

/-- Nothing was misused, and what was opened is held or was closed, once. -/
structure Ledger.Sound (s : Ledger κ ω) : Prop where
  misused : s.misused = []
  once : (s.closed ++ s.held).Perm s.opened
  distinct : s.opened.Nodup
  numbered : ∀ r ∈ s.opened, r.number < s.calls

/-- Sound, with the answers that there were. -/
structure Ledger.SoundAfter (t s : Ledger κ ω) : Prop where
  sound : t.Sound
  answers : t.answers = s.answers

theorem Ledger.sound_initial (answers : ℕ → ω) : (Ledger.mk (κ := κ) answers 0 [] [] [] []).Sound :=
  ⟨rfl, .refl _, .nil, fun r hr => by cases hr⟩

section
variable {s : Ledger κ ω}

theorem Ledger.Sound.after (h : s.Sound) : s.SoundAfter s := ⟨h, rfl⟩

theorem Ledger.SoundAfter.trans {t u : Ledger κ ω} (h : u.SoundAfter t) (h' : t.SoundAfter s) : u.SoundAfter s :=
  ⟨h.sound, h.answers.trans h'.answers⟩

theorem Ledger.Sound.call (h : s.Sound) : Ledger.SoundAfter { s with calls := s.calls + 1 } s :=
  ⟨⟨h.misused, h.once, h.distinct, fun r hr => Nat.lt_succ_of_lt (h.numbered r hr)⟩, rfl⟩

theorem Ledger.Sound.closed_nodup (h : s.Sound) : s.closed.Nodup :=
  (List.nodup_append.mp (h.once.nodup_iff.mpr h.distinct)).1

/-- When nothing is held, everything opened was closed. -/
theorem Ledger.Sound.all_closed (h : s.Sound) (hheld : s.held = []) : s.closed.Perm s.opened := by
  have := h.once
  rwa [hheld, List.append_nil] at this

end

/-! ## Triples -/

def left (post : α → List (Resource κ)) (thrown : ε → List (Resource κ)) : Except ε α → List (Resource κ)
  | .ok a => post a
  | .error e => thrown e

/-- Everything in `L` is of a kind that some answer may cost. -/
def Lost (lost : ω → κ → Prop) (answers : ℕ → ω) (L : List (Resource κ)) : Prop := ∀ r ∈ L, ∃ i, lost (answers i) r.kind

def Triple (lost : ω → κ → Prop) (pre : List (Resource κ)) (x : Routine κ ω ε α) (post : α → List (Resource κ))
    (thrown : ε → List (Resource κ)) : Prop :=
  ∀ s H, s.Sound → s.held.Perm (pre ++ H) → (x s).2.SoundAfter s ∧
    ∃ L, Lost lost s.answers L ∧ (x s).2.held.Perm (left post thrown (x s).1 ++ (L ++ H))

/-- A triple of a routine that returns, and returns what satisfies `Q`. -/
def Total (pre : List (Resource κ)) (x : Routine κ ω ε α) (Q : α → Prop) (post : α → List (Resource κ)) : Prop :=
  ∀ s H, s.Sound → s.held.Perm (pre ++ H) → ∃ a t, x s = (.ok a, t) ∧ Q a ∧ t.SoundAfter s ∧ t.held.Perm (post a ++ H)

variable {pre pre' R : List (Resource κ)} {x : Routine κ ω ε α} {f : α → Routine κ ω ε β} {P : α → Prop} {Q : β → Prop}
  {mid : α → List (Resource κ)} {post : β → List (Resource κ)} {thrown thrown' : ε → List (Resource κ)} {r : Resource κ}
  {lost : ω → κ → Prop}

theorem Lost.nil {answers : ℕ → ω} : Lost lost answers ([] : List (Resource κ)) := fun r hr => by cases hr

theorem Lost.append {answers : ℕ → ω} {L M : List (Resource κ)} (hL : Lost lost answers L) (hM : Lost lost answers M) :
    Lost lost answers (L ++ M) := fun r hr => (List.mem_append.mp hr).elim (hL r) (hM r)

namespace Total

theorem triple (h : Total pre x P mid) : Triple lost pre x mid thrown := by
  intro s H hs hh
  obtain ⟨a, t, hx, -, ht, hl⟩ := h s H hs hh
  rw [hx]
  exact ⟨ht, [], .nil, hl⟩

protected theorem pure {b : β} (hb : Q b) (h : pre = post b) : Total pre (pure b : Routine κ ω ε β) Q post := by
  subst h
  exact fun s _ hs hh => ⟨b, s, rfl, hb, hs.after, hh⟩

theorem pure_perm {b : β} (hb : Q b) (h : pre.Perm (post b)) : Total pre (pure b : Routine κ ω ε β) Q post := fun s _ hs hh =>
  ⟨b, s, rfl, hb, hs.after, hh.trans (h.append_right _)⟩

theorem skip : Total pre (pure () : Routine κ ω ε Unit) (fun _ => True) fun _ => pre := .pure trivial rfl

protected theorem bind (hx : Total pre x P mid) (hf : ∀ a, P a → Total (mid a) (f a) Q post) : Total pre (x >>= f) Q post := by
  intro s H hs hh
  obtain ⟨a, t, hxs, ha, ht, hl⟩ := hx s H hs hh
  obtain ⟨b, u, hft, hb, hu, hl'⟩ := hf a ha t H ht.sound hl
  exact ⟨b, u, (bind_ok hxs).trans hft, hb, hu.trans ht, hl'⟩

theorem weaken {x : Routine κ ω ε β} {post' : β → List (Resource κ)} (h : Total pre' x Q post') (hpre : pre.Perm pre')
    (hpost : ∀ b, Q b → (post' b).Perm (post b)) : Total pre x Q post := by
  intro s H hs hh
  obtain ⟨b, t, hx, hb, ht, hl⟩ := h s H hs (hh.trans (hpre.append_right H))
  exact ⟨b, t, hx, hb, ht, hl.trans ((hpost b hb).append_right H)⟩

theorem imp {P' : α → Prop} (h : Total pre x P mid) (hP : ∀ a, P a → P' a) : Total pre x P' mid := by
  intro s H hs hh
  obtain ⟨a, t, hx, ha, ht, hl⟩ := h s H hs hh
  exact ⟨a, t, hx, hP a ha, ht, hl⟩

/-- What a routine is not given stays. -/
theorem frame (h : Total pre x P mid) (F : List (Resource κ)) : Total (pre ++ F) x P fun a => mid a ++ F := by
  intro s H hs hh
  rw [List.append_assoc] at hh
  obtain ⟨a, t, hx, ha, ht, hl⟩ := h s (F ++ H) hs hh
  exact ⟨a, t, hx, ha, ht, by rwa [List.append_assoc]⟩

theorem call : Total pre (Routine.call : Routine κ ω ε ω) (fun _ => True) fun _ => pre := fun _ _ hs hh =>
  ⟨_, _, rfl, trivial, hs.call, hh⟩

theorem create (kind : κ) :
    Total pre (Routine.create kind : Routine κ ω ε (Resource κ)) (fun r => r.kind = kind) fun r => r :: pre := by
  intro s H hs hh
  refine ⟨_, _, rfl, rfl, ⟨⟨hs.misused, ?_, ?_, ?_⟩, rfl⟩, hh.cons _⟩
  · exact List.perm_middle.trans ((hs.once.cons _).trans (List.perm_append_singleton _ _).symm)
  · refine (List.nodup_append.mpr ⟨hs.distinct, List.nodup_singleton _, fun r hr t ht => ?_⟩)
    rw [List.mem_singleton.mp ht]
    rintro rfl
    exact absurd (hs.numbered _ hr) (Nat.lt_irrefl _)
  · intro r hr
    rcases List.mem_append.mp hr with hr | hr
    · exact Nat.lt_succ_of_lt (hs.numbered r hr)
    · rw [List.mem_singleton.mp hr]
      exact Nat.lt_succ_self _

variable [DecidableEq κ]

theorem use (hr : r ∈ pre) : Total pre (Routine.use r : Routine κ ω ε Unit) (fun _ => True) fun _ => pre := by
  intro s H hs hh
  have hmem : r ∈ s.held := hh.mem_iff.mpr (List.mem_append_left _ hr)
  refine ⟨(), s, ?_, trivial, hs.after, hh⟩
  unfold Routine.use
  rw [if_pos hmem]

theorem close (hpre : pre.Perm (r :: R)) : Total pre (Routine.close r : Routine κ ω ε Unit) (fun _ => True) fun _ => R := by
  intro s H hs hh
  have hheld : s.held.Perm (r :: (R ++ H)) := hh.trans (hpre.append_right H)
  have hmem : r ∈ s.held := hheld.mem_iff.mpr List.mem_cons_self
  refine ⟨(), { s with held := s.held.erase r, closed := s.closed ++ [r] }, ?_, trivial,
    ⟨⟨hs.misused, ?_, hs.distinct, hs.numbered⟩, rfl⟩, ?_⟩
  · unfold Routine.close
    rw [if_pos hmem]
  · show (s.closed ++ [r] ++ s.held.erase r).Perm s.opened
    rw [List.append_assoc, List.singleton_append]
    exact ((List.perm_cons_erase hmem).symm.append_left _).trans hs.once
  · exact (hheld.erase r).trans (.of_eq (List.erase_cons_head ..))

end Total

namespace Triple

protected theorem pure {b : β} (h : pre = post b) : Triple lost pre (pure b : Routine κ ω ε β) post thrown :=
  Total.triple (P := fun _ => True) (.pure trivial h)

theorem skip : Triple lost pre (pure () : Routine κ ω ε Unit) (fun _ => pre) thrown := Total.skip.triple

protected theorem throw {e : ε} (h : pre = thrown e) : Triple lost pre (throw e : Routine κ ω ε β) post thrown := by
  subst h
  exact fun _ _ hs hh => ⟨hs.after, [], .nil, hh⟩

/-- What the first part has lost is none of the second's concern. -/
theorem after {s t : Ledger κ ω} {H L : List (Resource κ)} {y : Routine κ ω ε β} (hy : Triple lost pre y post thrown)
    (ht : t.SoundAfter s) (hL : Lost lost s.answers L) (hl : t.held.Perm (pre ++ (L ++ H))) :
    (y t).2.SoundAfter s ∧ ∃ L, Lost lost s.answers L ∧ (y t).2.held.Perm (left post thrown (y t).1 ++ (L ++ H)) := by
  obtain ⟨hu, M, hM, hl'⟩ := hy t (L ++ H) ht.sound hl
  rw [ht.answers] at hM
  exact ⟨hu.trans ht, M ++ L, hM.append hL, by rwa [List.append_assoc]⟩

protected theorem bind (hx : Triple lost pre x mid thrown) (hf : ∀ a, Triple lost (mid a) (f a) post thrown) :
    Triple lost pre (x >>= f) post thrown := by
  intro s H hs hh
  obtain ⟨ht, L, hL, hl⟩ := hx s H hs hh
  cases hxs : x s with
  | mk r t =>
    rw [hxs] at ht hl
    cases r with
    | ok a =>
      rw [bind_ok hxs]
      exact (hf a).after ht hL hl
    | error e =>
      rw [bind_error hxs]
      exact ⟨ht, L, hL, hl⟩

/-- The second part may rely on what the first returns. -/
theorem bind_total (hx : Total pre x P mid) (hf : ∀ a, P a → Triple lost (mid a) (f a) post thrown) :
    Triple lost pre (x >>= f) post thrown := by
  intro s H hs hh
  obtain ⟨a, t, hxs, ha, ht, hl⟩ := hx s H hs hh
  rw [bind_ok hxs]
  exact (hf a ha).after (L := []) ht .nil hl

protected theorem tryCatch {x : Routine κ ω ε β} {handler : ε → Routine κ ω ε β} (hx : Triple lost pre x post thrown')
    (hf : ∀ e, Triple lost (thrown' e) (handler e) post thrown) : Triple lost pre (tryCatch x handler) post thrown := by
  intro s H hs hh
  obtain ⟨ht, L, hL, hl⟩ := hx s H hs hh
  unfold Routine.tryCatch
  cases hxs : x s with
  | mk r t =>
    rw [hxs] at ht hl
    cases r with
    | ok a => exact ⟨ht, L, hL, hl⟩
    | error e => exact (hf e).after ht hL hl

theorem weaken {x : Routine κ ω ε β} {post' : β → List (Resource κ)} (h : Triple lost pre' x post' thrown')
    (hpre : pre.Perm pre') (hpost : ∀ a, (post' a).Perm (post a)) (hthrown : ∀ e, (thrown' e).Perm (thrown e)) :
    Triple lost pre x post thrown := by
  intro s H hs hh
  obtain ⟨ht, L, hL, hl⟩ := h s H hs (hh.trans (hpre.append_right H))
  refine ⟨ht, L, hL, hl.trans (List.Perm.append_right _ ?_)⟩
  cases (x s).1 with
  | ok a => exact hpost a
  | error e => exact hthrown e

theorem pre_perm {x : Routine κ ω ε β} (h : Triple lost pre' x post thrown) (hpre : pre.Perm pre') :
    Triple lost pre x post thrown :=
  h.weaken hpre (fun _ => .refl _) fun _ => .refl _

theorem frame (h : Triple lost pre x mid thrown) (F : List (Resource κ)) :
    Triple lost (pre ++ F) x (fun a => mid a ++ F) fun e => thrown e ++ F := by
  intro s H hs hh
  rw [List.append_assoc] at hh
  obtain ⟨ht, L, hL, hl⟩ := h s (F ++ H) hs hh
  have hpast : ∀ A : List (Resource κ), (A ++ (L ++ (F ++ H))).Perm (A ++ F ++ (L ++ H)) := by
    intro A
    rw [List.append_assoc]
    refine List.Perm.append_left A ?_
    rw [← List.append_assoc, ← List.append_assoc]
    exact List.perm_append_comm.append_right H
  refine ⟨ht, L, hL, hl.trans ?_⟩
  cases (x s).1 with
  | ok a => exact hpast _
  | error e => exact hpast _

theorem call : Triple lost pre (Routine.call : Routine κ ω ε ω) (fun _ => pre) thrown := Total.call.triple

/-- Thrown past their closes, the resources `L` are lost. -/
theorem require {ok : ω → Bool} {e : ε} {L : List (Resource κ)} (hL : ∀ w, ok w = false → ∀ r ∈ L, lost w r.kind)
    (hpre : pre.Perm (thrown e ++ L)) : Triple lost pre (Routine.require ok e) (fun _ => pre) thrown := by
  intro s H hs hh
  have hx : Routine.require ok e s =
      (if ok (s.answers s.calls) then .ok () else .error e, { s with calls := s.calls + 1 }) := by
    cases hok : ok (s.answers s.calls) <;> simp [Routine.require, bind_ok (show Routine.call s = _ from rfl), hok] <;> rfl
  rw [hx]
  refine ⟨hs.call, ?_⟩
  cases hok : ok (s.answers s.calls) with
  | true => exact ⟨[], .nil, hh⟩
  | false =>
    refine ⟨L, fun r hr => ⟨s.calls, hL _ hok r hr⟩, ?_⟩
    rw [← List.append_assoc]
    exact hh.trans (hpre.append_right H)

theorem create (kind : κ) : Triple lost pre (Routine.create kind : Routine κ ω ε (Resource κ)) (fun r => r :: pre) thrown :=
  (Total.create kind).triple

variable [DecidableEq κ]

theorem use (hr : r ∈ pre) : Triple lost pre (Routine.use r : Routine κ ω ε Unit) (fun _ => pre) thrown := (Total.use hr).triple

theorem close (hpre : pre.Perm (r :: R)) : Triple lost pre (Routine.close r : Routine κ ω ε Unit) (fun _ => R) thrown :=
  (Total.close hpre).triple

end Triple

end Dmsk.Resources
