/-!
# Guarded transition systems

A step function is partial: `step s a` is the state after the action `a`, and
`none` when `a` is not enabled in `s`. A run may be restricted to steps that
satisfy a condition on the state before the step (`Path`, `ReachUnder`), so one
system serves what holds of every run and what holds only along such runs.
-/

namespace Dmsk

structure System (σ α : Type) where
  init : σ → Prop
  step : σ → α → Option σ

namespace System

variable {σ α : Type} (S : System σ α)

/-- The states reached from `s` by steps that satisfy `C`. -/
inductive Path (C : σ → α → Prop) (s : σ) : σ → Prop
  | refl : Path C s s
  | snoc {t u : σ} {a : α} : Path C s t → C t a → S.step t a = some u → Path C s u

/-- The states of the runs whose every step satisfies `C`. -/
def ReachUnder (C : σ → α → Prop) (s : σ) : Prop := ∃ s₀, S.init s₀ ∧ S.Path C s₀ s

def Reachable (s : σ) : Prop := S.ReachUnder (fun _ _ => True) s

def exec (C : σ → α → Prop) [∀ s a, Decidable (C s a)] : σ → List α → Option σ
  | s, [] => some s
  | s, a :: as => if C s a then (S.step s a).bind fun t => exec C t as else none

variable {S} {C : σ → α → Prop}

theorem Path.trans {s t u : σ} (h : S.Path C s t) (h' : S.Path C t u) : S.Path C s u := by
  induction h' with
  | refl => exact h
  | snoc _ hc hs ih => exact .snoc ih hc hs

theorem Path.mono {D : σ → α → Prop} (hCD : ∀ s a, C s a → D s a) {s t : σ} (h : S.Path C s t) :
    S.Path D s t := by
  induction h with
  | refl => exact .refl
  | snoc _ hc hs ih => exact .snoc ih (hCD _ _ hc) hs

/-- What every step keeps, a run keeps. -/
theorem Path.keeps {I : σ → Prop} (hI : ∀ s a t, I s → C s a → S.step s a = some t → I t)
    {s t : σ} (h : S.Path C s t) (hs : I s) : I t := by
  induction h with
  | refl => exact hs
  | snoc _ hc hst ih => exact hI _ _ _ ih hc hst

theorem ReachUnder.next {s t : σ} {a : α} (h : S.ReachUnder C s) (hc : C s a) (hs : S.step s a = some t) :
    S.ReachUnder C t := by
  obtain ⟨s₀, h₀, hp⟩ := h
  exact ⟨s₀, h₀, hp.snoc hc hs⟩

theorem ReachUnder.reachable {s : σ} (h : S.ReachUnder C s) : S.Reachable s := by
  obtain ⟨s₀, h₀, hp⟩ := h
  exact ⟨s₀, h₀, hp.mono fun _ _ _ => trivial⟩

/-- An invariant that every step satisfying `C` keeps holds along the runs under `C`. -/
theorem ReachUnder.invariant {I : σ → Prop} (h0 : ∀ s, S.init s → I s)
    (hI : ∀ s a t, I s → C s a → S.step s a = some t → I t) {s : σ} (h : S.ReachUnder C s) : I s := by
  obtain ⟨s₀, h₀, hp⟩ := h
  exact hp.keeps hI (h0 _ h₀)

theorem Reachable.invariant {I : σ → Prop} (h0 : ∀ s, S.init s → I s)
    (hI : ∀ s a t, I s → S.step s a = some t → I t) {s : σ} (h : S.Reachable s) : I s :=
  ReachUnder.invariant h0 (fun s a t hs _ hst => hI s a t hs hst) h

theorem path_of_exec [∀ s a, Decidable (C s a)] : ∀ (as : List α) {s t : σ}, S.exec C s as = some t → S.Path C s t
  | [], _, _, h => by
    cases h
    exact .refl
  | a :: as, s, t, h => by
    simp only [exec] at h
    split at h
    · rename_i hc
      cases hs : S.step s a with
      | none => rw [hs] at h; cases h
      | some u =>
        rw [hs] at h
        exact (Path.snoc .refl hc hs).trans (path_of_exec as h)
    · cases h

theorem reach_of_exec [∀ s a, Decidable (C s a)] {s₀ s : σ} (h₀ : S.init s₀) (as : List α)
    (h : S.exec C s₀ as = some s) : S.ReachUnder C s :=
  ⟨s₀, h₀, path_of_exec as h⟩

end System

end Dmsk
