import Dmsk.StackTrace
import Mathlib.Data.List.TakeWhile
import Mathlib.Data.List.Infix

/-!
# What the comparison of two traces compares

The constructor delimits the first run of nt frames by an inclusive end, and
keeps a run of one frame and a trace without nt frame under the same pair
`(0, 0)`. The loop of `AreNtTracesSame` stops before the end, so that it
compares the runs without their last frame.
-/

namespace Dmsk.StackTrace

variable {w : ℕ} {m : NtModule w} {frames : Frames w}

/-- The first maximal run of frames in the nt module. -/
def firstRun (m : NtModule w) (frames : Frames w) : List (BitVec w) :=
  (frames.val.dropWhile fun a => !isAddressInNtModule m a).takeWhile (isAddressInNtModule m)

/-- The frames above the first run. -/
def above (m : NtModule w) (frames : Frames w) : ℕ :=
  (frames.val.takeWhile fun a => !isAddressInNtModule m a).length

/-- Same frames but for the last one: another address, or no frame against one. -/
def DifferInLast {α : Type*} (xs ys : List α) : Prop :=
  (∃ run a b, xs = run ++ [a] ∧ ys = run ++ [b] ∧ a ≠ b) ∨
    (xs = [] ∧ ys.length = 1) ∨ (xs.length = 1 ∧ ys = [])

theorem dropLast_eq_iff {α : Type*} {xs ys : List α} :
    xs.dropLast = ys.dropLast ↔ xs = ys ∨ DifferInLast xs ys := by
  constructor
  · intro h
    rcases List.eq_nil_or_concat' xs with rfl | ⟨run, a, rfl⟩
    · rcases List.eq_nil_or_concat' ys with rfl | ⟨run, b, rfl⟩
      · exact .inl rfl
      · have hrun : run = [] := by simpa using h.symm
        subst hrun
        exact .inr (.inr (.inl ⟨rfl, rfl⟩))
    · rcases List.eq_nil_or_concat' ys with rfl | ⟨run', b, rfl⟩
      · have hrun : run = [] := by simpa using h
        subst hrun
        exact .inr (.inr (.inr ⟨rfl, rfl⟩))
      · have hrun : run = run' := by simpa using h
        subst hrun
        by_cases hab : a = b
        · subst hab; exact .inl rfl
        · exact .inr (.inl ⟨run, a, b, rfl, rfl, hab⟩)
  · rintro (rfl | ⟨run, a, b, rfl, rfl, -⟩ | ⟨rfl, hy⟩ | ⟨hx, rfl⟩)
    · rfl
    · simp
    · obtain ⟨b, rfl⟩ := List.length_eq_one_iff.mp hy; rfl
    · obtain ⟨a, rfl⟩ := List.length_eq_one_iff.mp hx; rfl

/-! ## The loops of the constructor -/

theorem capture_getElem? (frames : Frames w) {i : ℕ} (hi : i < frames.val.length) :
    (capture frames)[i]? = frames.val[i]? := by
  have h50 : i < 50 := lt_of_lt_of_le hi frames.property
  simp [capture, h50, hi]

theorem scan_eq (frames : Frames w) (stop : BitVec w → Bool) : ∀ {passes i : ℕ}, i + passes = frames.val.length →
    scan (capture frames) stop passes i = i + ((frames.val.drop i).takeWhile fun a => !stop a).length := by
  intro passes
  induction passes with
  | zero =>
    intro i hi
    simp [scan, List.drop_of_length_le (show frames.val.length ≤ i by omega)]
  | succ passes ih =>
    intro i hi
    have hlt : i < frames.val.length := by omega
    unfold scan
    rw [capture_getElem? frames hlt, List.drop_eq_getElem_cons hlt, List.getElem?_eq_getElem hlt]
    by_cases hs : stop frames.val[i] = true
    · simp [hs]
    · have hs' : (!stop frames.val[i]) = true := by simpa using hs
      rw [List.takeWhile_cons_of_pos (p := fun a => !stop a) hs', List.length_cons]
      simp only [Option.any_some, hs, if_false, Bool.false_eq_true]
      rw [ih (i := i + 1) (by omega)]
      omega

theorem drop_above : frames.val.drop (above m frames) = frames.val.dropWhile fun a => !isAddressInNtModule m a := by
  have h := List.takeWhile_append_dropWhile (p := fun a => !isAddressInNtModule m a) (l := frames.val)
  conv_lhs => rw [← h]
  exact List.drop_left

theorem above_add_length_le (m : NtModule w) (frames : Frames w) : above m frames + (firstRun m frames).length ≤ frames.val.length := by
  have h : (firstRun m frames).length ≤ (frames.val.drop (above m frames)).length := by
    rw [drop_above]; exact (List.takeWhile_prefix _).length_le
  have ha : above m frames ≤ frames.val.length := (List.takeWhile_prefix _).length_le
  rw [List.length_drop] at h
  omega

theorem getElem?_above {i : ℕ} (hi : i < (firstRun m frames).length) :
    (capture frames)[above m frames + i]? = (firstRun m frames)[i]? := by
  have hle := above_add_length_le m frames
  rw [capture_getElem? frames (by omega), ← List.getElem?_drop, drop_above]
  exact (List.prefix_iff_getElem?.mp (List.takeWhile_prefix _) i hi).trans (List.getElem?_eq_getElem hi).symm

/-- A trace delimits a run when its inclusive range has the length of the run,
or length one for the empty run, and holds its frames. -/
structure Delimits (t : StackTrace w) (run : List (BitVec w)) : Prop where
  length : t.ntEndIdx - t.ntStartIdx = (run.length - 1 : ℕ)
  frames : ∀ i < run.length, t.backtrace[t.ntStartIdx.toNat + i]? = run[i]?

theorem new_eq (m : NtModule w) (frames : Frames w) :
    new m frames = if firstRun m frames = [] then ⟨0, 0, capture frames, frames.val.length⟩ else
      ⟨above m frames, above m frames + (firstRun m frames).length - 1, capture frames, frames.val.length⟩ := by
  have hle := above_add_length_le m frames
  have hstart : scan (capture frames) (isAddressInNtModule m) frames.val.length 0 = above m frames := by
    rw [scan_eq frames _ (by omega)]; simp [above]
  have hstop : scan (capture frames) (fun a => !isAddressInNtModule m a) (frames.val.length - above m frames)
      (above m frames) = above m frames + (firstRun m frames).length := by
    rw [scan_eq frames _ (by omega), drop_above]; simp [firstRun]
  have hnil : firstRun m frames = [] ↔ (firstRun m frames).length = 0 := List.length_eq_zero_iff.symm
  simp only [new, hstart, hstop, hnil]
  -- the step back inside the loop and the one after it exclude each other
  split_ifs <;> first | omega | rfl

theorem new_delimits (m : NtModule w) (frames : Frames w) : (new m frames).Delimits (firstRun m frames) := by
  by_cases hr : firstRun m frames = []
  · rw [new_eq, if_pos hr, hr]
    exact ⟨rfl, by simp⟩
  · have hpos := List.length_pos_iff.mpr hr
    rw [new_eq, if_neg hr]
    refine ⟨?_, ?_⟩
    · show ((above m frames : Int) + (firstRun m frames).length - 1) - above m frames = _
      omega
    · intro i hi
      exact getElem?_above hi

/-! ## The comparison -/

theorem sameFrom_iff (a b : Vector (BitVec w) 50) : ∀ {passes i j : ℕ},
    sameFrom a b passes i j = true ↔ ∀ k < passes, a[i + k]? = b[j + k]? := by
  intro passes
  induction passes with
  | zero => simp [sameFrom]
  | succ passes ih =>
    intro i j
    unfold sameFrom
    by_cases h0 : a[i]? = b[j]?
    · rw [if_neg (not_not.mpr h0), ih]
      constructor
      · intro h k hk
        cases k with
        | zero => exact h0
        | succ k => simpa [Nat.add_assoc, Nat.add_comm 1] using h k (by omega)
      · intro h k hk
        simpa [Nat.add_assoc, Nat.add_comm 1] using h (k + 1) (by omega)
    · rw [if_pos h0]
      constructor
      · intro h; cases h
      · intro h; exact absurd (h 0 (by omega)) h0

/-- `AreNtTracesSame` compares the runs without their last frame. -/
theorem areNtTracesSame_eq {t u : StackTrace w} {xs ys : List (BitVec w)} (ht : t.Delimits xs) (hu : u.Delimits ys) :
    t.areNtTracesSame u = true ↔ xs.dropLast = ys.dropLast := by
  unfold areNtTracesSame
  rw [ht.length, hu.length]
  by_cases hlen : xs.length - 1 = ys.length - 1
  · rw [if_neg (by simp [hlen]), sameFrom_iff, Int.toNat_natCast]
    constructor
    · intro h
      apply List.ext_getElem? fun i => ?_
      by_cases hi : i < xs.length - 1
      · rw [List.getElem?_dropLast, List.getElem?_dropLast, if_pos hi, if_pos (by omega),
          ← ht.frames i (by omega), ← hu.frames i (by omega)]
        exact h i hi
      · rw [List.getElem?_dropLast, List.getElem?_dropLast, if_neg hi, if_neg (by omega)]
    · intro h i hi
      rw [ht.frames i (by omega), hu.frames i (by omega)]
      have hxy : xs.dropLast[i]? = ys.dropLast[i]? := by rw [h]
      rwa [List.getElem?_dropLast, List.getElem?_dropLast, if_pos hi, if_pos (by omega)] at hxy
  · rw [if_pos (by omega)]
    constructor
    · intro h; cases h
    · intro h
      have := congrArg List.length h
      simp only [List.length_dropLast] at this
      exact absurd this hlen

/-- The answer is the equality of the first runs exactly for traces whose first
runs do not differ in their last frame alone. -/
theorem areNtTracesSame_exact_iff (m : NtModule w) (a b : Frames w) :
    ((new m a).areNtTracesSame (new m b) = true ↔ firstRun m a = firstRun m b) ↔
      ¬ DifferInLast (firstRun m a) (firstRun m b) := by
  rw [areNtTracesSame_eq (new_delimits m a) (new_delimits m b), dropLast_eq_iff]
  constructor
  · intro h hd
    have he := h.mp (.inr hd)
    rw [he] at hd
    rcases hd with ⟨run, x, y, hx, hy, hxy⟩ | ⟨h0, h1⟩ | ⟨h1, h0⟩
    · exact hxy (by simpa using hx.symm.trans hy)
    · simp [h0] at h1
    · simp [h0] at h1
  · intro hd
    exact ⟨fun h => h.resolve_right hd, .inl⟩

theorem areNtTracesSame_misses_last :
    ¬ ((new (⟨0x1000, 0x1000⟩ : NtModule 64) ⟨[0x1010, 0x5000], by decide⟩).areNtTracesSame
          (new ⟨0x1000, 0x1000⟩ ⟨[0x1020, 0x5000], by decide⟩) = true ↔
        firstRun (⟨0x1000, 0x1000⟩ : NtModule 64) ⟨[0x1010, 0x5000], by decide⟩ =
          firstRun ⟨0x1000, 0x1000⟩ ⟨[0x1020, 0x5000], by decide⟩) := by
  decide

end Dmsk.StackTrace
