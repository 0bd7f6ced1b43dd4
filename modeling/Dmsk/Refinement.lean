/-!
# Refinement of a fallible machine

A machine answers requests and may fail; a specification says which requests
it may be given, what they do and what they answer. When one step of the
machine does what the specification says, whole runs do (`Refines.run`).
-/

namespace Dmsk

structure Spec (τ α ο : Type) where
  valid : τ → α → Prop
  next : τ → α → τ
  out : τ → α → ο

variable {σ τ α ο ε : Type}

namespace Spec

/-- Every request of the list is valid when its turn comes. -/
def Admits (P : Spec τ α ο) : τ → List α → Prop
  | _, [] => True
  | t, a :: as => P.valid t a ∧ P.Admits (P.next t a) as

def after (P : Spec τ α ο) : τ → List α → τ
  | t, [] => t
  | t, a :: as => P.after (P.next t a) as

def outs (P : Spec τ α ο) : τ → List α → List ο
  | _, [] => []
  | t, a :: as => P.out t a :: P.outs (P.next t a) as

/-- An answer is that to its request after the ones before it. -/
theorem outs_getElem? (P : Spec τ α ο) : ∀ (as : List α) (t : τ) (k : Nat),
    (P.outs t as)[k]? = (as[k]?).map (P.out (P.after t (as.take k)))
  | [], _, _ => rfl
  | _ :: _, _, 0 => rfl
  | a :: as, t, k + 1 => P.outs_getElem? as (P.next t a) k

instance decidableAdmits (P : Spec τ α ο) [∀ t a, Decidable (P.valid t a)] :
    ∀ t as, Decidable (P.Admits t as)
  | _, [] => inferInstanceAs (Decidable True)
  | t, a :: as =>
    have := P.decidableAdmits (P.next t a) as
    inferInstanceAs (Decidable (_ ∧ _))

end Spec

def execAll (step : σ → α → Except ε (σ × ο)) : σ → List α → Except ε (σ × List ο)
  | s, [] => .ok (s, [])
  | s, a :: as => do
    let (s, o) ← step s a
    let (s, os) ← execAll step s as
    return (s, o :: os)

/-- A valid request succeeds and keeps the machine in step with the specification. -/
def Refines (step : σ → α → Except ε (σ × ο)) (P : Spec τ α ο) (R : σ → τ → Prop) : Prop :=
  ∀ s t a, R s t → P.valid t a → ∃ s', step s a = .ok (s', P.out t a) ∧ R s' (P.next t a)

theorem Refines.run {step : σ → α → Except ε (σ × ο)} {P : Spec τ α ο} {R : σ → τ → Prop}
    (hr : Refines step P R) : ∀ (as : List α) {s : σ} {t : τ}, R s t → P.Admits t as →
      ∃ s', execAll step s as = .ok (s', P.outs t as) ∧ R s' (P.after t as)
  | [], s, _, hs, _ => ⟨s, rfl, hs⟩
  | a :: as, s, t, hs, hv => by
    obtain ⟨s₁, e₁, h₁⟩ := hr s t a hs hv.1
    obtain ⟨s₂, e₂, h₂⟩ := hr.run as h₁ hv.2
    refine ⟨s₂, ?_, h₂⟩
    simp only [execAll, e₁, bind, Except.bind, e₂]
    rfl

end Dmsk
