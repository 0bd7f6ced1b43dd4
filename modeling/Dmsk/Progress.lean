import Mathlib.Algebra.BigOperators.Group.List.Basic
import Mathlib.Algebra.GroupWithZero.Nat
import Dmsk.Transition

/-!
# Runs that come to an end

A rank that every step lowers bounds the length of the runs. Some actions are
requests from outside: each may raise the rank by what it costs, so a run is as
long as the rank it starts with and the requests it contains allow.
-/

namespace Dmsk.System

variable {σ α : Type} {S : System σ α} {C : σ → α → Prop} [∀ s a, Decidable (C s a)] {I : σ → Prop}
  {rank : σ → Nat} {cost : α → Nat}

/-- A run is as long as its rank and its requests allow. -/
theorem exec_length_le (hI : ∀ s a t, I s → C s a → S.step s a = some t → I t)
    (hr : ∀ s a t, I s → C s a → S.step s a = some t → rank t + 1 ≤ rank s + cost a) :
    ∀ (as : List α) {s t : σ}, I s → S.exec C s as = some t → rank t + as.length ≤ rank s + (as.map cost).sum
  | [], _, _, _, h => by
    cases h
    exact Nat.le_refl _
  | a :: as, s, t, hs, h => by
    simp only [exec] at h
    split at h
    · rename_i hc
      obtain ⟨u, hu, hut⟩ := Option.bind_eq_some_iff.mp h
      have ih := exec_length_le hI hr as (hI _ _ _ hs hc hu) hut
      have := hr _ _ _ hs hc hu
      simp only [List.length_cons, List.map_cons, List.sum_cons]
      omega
    · cases h

/-- A part of the rank is a sum over the members of a list, of which a step changes one. -/
theorem sum_map_set {β : Type} (f : β → Nat) {l : List β} {i : Nat} {x : β} (hi : l[i]? = some x) (y : β) :
    ((l.set i y).map f).sum + f x = (l.map f).sum + f y := by
  induction l generalizing i with
  | nil => cases hi
  | cons b l ih =>
    cases i with
    | zero =>
      obtain rfl : b = x := Option.some.inj hi
      simp only [List.set_cons_zero, List.map_cons, List.sum_cons]
      omega
    | succ i =>
      have := ih hi
      simp only [List.set_cons_succ, List.map_cons, List.sum_cons]
      omega

end Dmsk.System
