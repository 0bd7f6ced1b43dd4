import Mathlib.Data.Fintype.EquivFin

/-!
# Orbits of a partial map

A deterministic loop is a partial map: `none` is where it ends. Over a finite
type it ends unless it comes back to where it has been.
-/

namespace Dmsk

variable {α : Type*} {next : α → Option α} {a b : α}

/-- Where `a` is after `k` passes. -/
def orbit (next : α → Option α) (a : α) : ℕ → Option α
  | 0 => some a
  | k + 1 => (orbit next a k).bind next

theorem orbit_add (next : α → Option α) (a : α) (j k : ℕ) :
    orbit next a (j + k) = (orbit next a j).bind fun b => orbit next b k := by
  induction k with
  | zero => exact (Option.bind_fun_some _).symm
  | succ k ih => rw [← Nat.add_assoc, orbit, ih, Option.bind_assoc]; rfl

theorem orbit_succ (next : α → Option α) (a : α) (k : ℕ) :
    orbit next a (k + 1) = (next a).bind fun b => orbit next b k := by
  rw [Nat.add_comm, orbit_add]
  rfl

theorem exists_orbit_of_none (h : next a = none) : (∃ k, orbit next a k = some b) ↔ b = a := by
  constructor
  · rintro ⟨k, hk⟩
    cases k with
    | zero => exact (Option.some.inj hk).symm
    | succ k =>
      rw [orbit_succ, h] at hk
      cases hk
  · rintro rfl
    exact ⟨0, rfl⟩

theorem exists_orbit_of_some {c : α} (h : next a = some c) :
    (∃ k, orbit next a k = some b) ↔ b = a ∨ ∃ k, orbit next c k = some b := by
  constructor
  · rintro ⟨k, hk⟩
    cases k with
    | zero => exact .inl (Option.some.inj hk).symm
    | succ k =>
      rw [orbit_succ, h] at hk
      exact .inr ⟨k, hk⟩
  · rintro (rfl | ⟨k, hk⟩)
    · exact ⟨0, rfl⟩
    · exact ⟨k + 1, by rw [orbit_succ, h]; exact hk⟩

theorem orbit_none {j k : ℕ} (hjk : j ≤ k) (h : orbit next a j = none) : orbit next a k = none := by
  obtain ⟨n, rfl⟩ := Nat.exists_eq_add_of_le hjk
  rw [orbit_add, h]
  rfl

theorem orbit_of_return {n : ℕ} (h : orbit next a n = some a) (rounds : ℕ) : orbit next a (rounds * n) = some a := by
  induction rounds with
  | zero => rw [Nat.zero_mul]; rfl
  | succ rounds ih => rw [Nat.succ_mul, orbit_add, ih, Option.bind_some, h]

theorem not_ends_of_return {j k : ℕ} (hjk : j < k) (hj : orbit next a j = some b) (hk : orbit next a k = some b) (n : ℕ) :
    orbit next a n ≠ none := by
  intro hn
  obtain ⟨m, rfl⟩ := Nat.exists_eq_add_of_le hjk.le
  have hreturn : orbit next b m = some b := by rwa [orbit_add, hj, Option.bind_some] at hk
  have hround : orbit next a (j + n * m) = some b := by rw [orbit_add, hj, Option.bind_some, orbit_of_return hreturn]
  have hle : n ≤ j + n * m := by
    have := Nat.le_mul_of_pos_right n (show 0 < m by omega)
    omega
  rw [orbit_none hle hn] at hround
  cases hround

/-- Over a finite type a loop ends if and only if it never comes back. -/
theorem ends_iff_no_return [Finite α] (next : α → Option α) (a : α) :
    (∃ k, orbit next a k = none) ↔ ∀ j k b, j < k → orbit next a j = some b → orbit next a k ≠ some b := by
  constructor
  · rintro ⟨n, hn⟩ j k b hjk hj hk
    exact not_ends_of_return hjk hj hk n hn
  · intro h
    by_contra hall
    rw [not_exists] at hall
    choose f hf using fun k => Option.ne_none_iff_exists'.mp (hall k)
    refine not_injective_infinite_finite f ?_
    intro j k hfjk
    rcases Nat.lt_trichotomy j k with hjk | rfl | hkj
    · exact absurd (hfjk ▸ hf k) (h j k (f j) hjk (hf j))
    · rfl
    · exact absurd (hfjk ▸ hf j) (h k j (f k) hkj (hf k))

end Dmsk
