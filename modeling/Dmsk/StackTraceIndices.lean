import Dmsk.StackTracePrintSound

/-!
# The indices of a stack trace

The constructor leaves both of its loops by a break or at the last frame, and
corrects the end afterwards. The indices that it keeps are positions of the
array in any case, and so are those that the comparison and the printing of
traces count through: the second trace has as many positions as the first.
-/

namespace Dmsk.StackTrace

variable {w : ℕ} {m : NtModule w} {frames : Frames w}

/-! ## The frames around the first run -/

theorem any_before {i : ℕ} (hi : i < above m frames) : frames.val[i]?.any (isAddressInNtModule m) = false := by
  have hat := List.prefix_iff_getElem?.mp (List.takeWhile_prefix (l := frames.val) fun a => !isAddressInNtModule m a) i hi
  have houtside := List.all_eq_true.mp (List.all_takeWhile (l := frames.val) (p := fun a => !isAddressInNtModule m a)) _
    (List.getElem_mem hi)
  rw [hat, Option.any_some]
  simpa using houtside

theorem any_inside {i : ℕ} (hi : i < (firstRun m frames).length) :
    frames.val[above m frames + i]?.any (isAddressInNtModule m) = true := by
  have hle := above_add_length_le m frames
  have hat := getElem?_above hi
  rw [capture_getElem? frames (by omega), List.getElem?_eq_getElem hi] at hat
  rw [hat, Option.any_some]
  exact List.all_eq_true.mp List.all_takeWhile _ (List.getElem_mem hi)

theorem any_takeWhile_length {α : Type*} (p : α → Bool) (l : List α) : l[(l.takeWhile p).length]?.any p = false := by
  induction l with
  | nil => rfl
  | cons a l ih =>
    by_cases ha : p a = true
    · rwa [List.takeWhile_cons_of_pos ha, List.length_cons, List.getElem?_cons_succ]
    · rw [List.takeWhile_cons_of_neg ha, List.length_nil, List.getElem?_cons_zero, Option.any_some]
      simpa using ha

theorem any_behind : frames.val[above m frames + (firstRun m frames).length]?.any (isAddressInNtModule m) = false := by
  rw [← List.getElem?_drop, drop_above]
  exact any_takeWhile_length (isAddressInNtModule m) _

theorem firstRun_eq_nil_iff : firstRun m frames = [] ↔ ∀ a ∈ frames.val, isAddressInNtModule m a = false := by
  have houtside : (frames.val.dropWhile fun a => !isAddressInNtModule m a) = [] ↔
      ∀ a ∈ frames.val, isAddressInNtModule m a = false := by
    simp [List.dropWhile_eq_nil_iff]
  rw [← houtside]
  constructor
  · intro h
    by_contra hne
    have hhead := List.head_dropWhile_not (fun a => !isAddressInNtModule m a) hne
    obtain ⟨a, rest, hrest⟩ := List.exists_cons_of_ne_nil hne
    simp only [hrest, List.head_cons, Bool.not_eq_false'] at hhead
    rw [firstRun, hrest, List.takeWhile_cons_of_pos hhead] at h
    cases h
  · intro h
    rw [firstRun, h, List.takeWhile_nil]

/-! ## The indices that are kept -/

/-- From `start` to `stop` is the first run of frames in the nt module. -/
structure FirstRunAt (m : NtModule w) (frames : Frames w) (start stop : Int) : Prop where
  before : ∀ i : ℕ, i < start → frames.val[i]?.any (isAddressInNtModule m) = false
  inside : ∀ i : ℕ, start ≤ i → i ≤ stop → frames.val[i]?.any (isAddressInNtModule m) = true
  behind : frames.val[(stop + 1).toNat]?.any (isAddressInNtModule m) = false

theorem firstRunAt_above :
    FirstRunAt m frames (above m frames) (above m frames + (firstRun m frames).length - 1) where
  before i hi := any_before (by omega)
  inside i hi hi' := by
    obtain ⟨k, rfl⟩ := Nat.exists_eq_add_of_le (show above m frames ≤ i by omega)
    exact any_inside (by omega)
  behind := by
    rw [show ((above m frames : Int) + (firstRun m frames).length - 1 + 1).toNat = above m frames + (firstRun m frames).length by omega]
    exact any_behind

theorem new_bounds (m : NtModule w) (frames : Frames w) :
    0 ≤ (new m frames).ntStartIdx ∧ (new m frames).ntStartIdx ≤ (new m frames).ntEndIdx ∧ (new m frames).ntEndIdx ≤ 49 := by
  rw [new_eq]
  split
  · exact ⟨Int.le_refl 0, Int.le_refl 0, show (0 : Int) ≤ 49 by decide⟩
  · rename_i hr
    have hpos := List.length_pos_iff.mpr hr
    have hle := above_add_length_le m frames
    have h50 := frames.property
    refine ⟨?_, ?_, ?_⟩ <;> dsimp only <;> omega

theorem new_firstRunAt (hr : ∃ a ∈ frames.val, isAddressInNtModule m a = true) :
    FirstRunAt m frames (new m frames).ntStartIdx (new m frames).ntEndIdx := by
  have hne : firstRun m frames ≠ [] := by
    rw [Ne, firstRun_eq_nil_iff]
    obtain ⟨a, ha, hin⟩ := hr
    intro h
    rw [h a ha] at hin
    cases hin
  rw [new_eq, if_neg hne]
  exact firstRunAt_above

theorem new_outside (hr : ∀ a ∈ frames.val, isAddressInNtModule m a = false) :
    (new m frames).ntStartIdx = 0 ∧ (new m frames).ntEndIdx = 0 := by
  rw [new_eq, if_pos (firstRun_eq_nil_iff.mpr hr)]
  exact ⟨rfl, rfl⟩

/-! ## The indices that are used -/

def comparedFrom (a b : Vector (BitVec w) 50) : ℕ → Int → Int → List (Int × Int)
  | 0, _, _ => []
  | passes + 1, i, j =>
    (i, j) :: if a[i.toNat]? ≠ b[j.toNat]? then [] else comparedFrom a b passes (i + 1) (j + 1)

/-- The values of `i` and `j` in `AreNtTracesSame` until its loop is left. -/
def comparedIndices (this other : StackTrace w) : List (Int × Int) :=
  if this.ntEndIdx - this.ntStartIdx + 1 ≠ other.ntEndIdx - other.ntStartIdx + 1 then []
  else comparedFrom this.backtrace other.backtrace (this.ntEndIdx - this.ntStartIdx).toNat this.ntStartIdx other.ntStartIdx

/-- The values of `i` in `PrintNtStackTrace`. -/
def printedIndices (this : StackTrace w) : List Int :=
  (List.range (this.ntEndIdx - this.ntStartIdx).toNat).map fun (k : ℕ) => this.ntStartIdx + k

theorem mem_comparedFrom {a b : Vector (BitVec w) 50} {passes : ℕ} {i j : Int} {ij : Int × Int}
    (h : ij ∈ comparedFrom a b passes i j) : ∃ k < passes, ij = (i + k, j + k) := by
  induction passes generalizing i j with
  | zero => cases h
  | succ passes ih =>
    rw [comparedFrom, List.mem_cons] at h
    rcases h with rfl | h
    · exact ⟨0, Nat.succ_pos _, by simp⟩
    · split at h
      · cases h
      · obtain ⟨k, hk, rfl⟩ := ih h
        refine ⟨k + 1, by omega, ?_⟩
        push_cast
        congr 1 <;> omega

/-- The comparison depends on the frames at these indices alone. -/
theorem sameFrom_compared {a b : Vector (BitVec w) 50} {passes i j : ℕ} :
    sameFrom a b passes i j = true ↔ ∀ ij ∈ comparedFrom a b passes i j, a[ij.1.toNat]? = b[ij.2.toNat]? := by
  induction passes generalizing i j with
  | zero => simp [sameFrom, comparedFrom]
  | succ passes ih =>
    rw [sameFrom, comparedFrom, List.forall_mem_cons]
    simp only [Int.toNat_natCast]
    by_cases h0 : a[i]? = b[j]?
    · rw [if_neg (not_not.mpr h0), if_neg (not_not.mpr h0), ih]
      exact (and_iff_right h0).symm
    · rw [if_pos h0]
      exact iff_of_false Bool.false_ne_true fun h => h0 h.1

theorem areNtTracesSame_compared {this other : StackTrace w} (h0 : 0 ≤ this.ntStartIdx) (h0' : 0 ≤ other.ntStartIdx) :
    this.areNtTracesSame other = true ↔
      this.ntEndIdx - this.ntStartIdx + 1 = other.ntEndIdx - other.ntStartIdx + 1 ∧
        ∀ ij ∈ comparedIndices this other, this.backtrace[ij.1.toNat]? = other.backtrace[ij.2.toNat]? := by
  unfold areNtTracesSame comparedIndices
  by_cases hlength : this.ntEndIdx - this.ntStartIdx + 1 = other.ntEndIdx - other.ntStartIdx + 1
  · rw [if_neg (not_not.mpr hlength), if_neg (not_not.mpr hlength), sameFrom_compared, Int.toNat_of_nonneg h0,
      Int.toNat_of_nonneg h0']
    exact (and_iff_right hlength).symm
  · rw [if_pos hlength]
    exact iff_of_false Bool.false_ne_true fun h => hlength h.1

section
variable {t : Target}

theorem printFrom_congr {a b : Vector (BitVec t.sizeTBits) 50} {passes i : ℕ} (h : ∀ k < passes, a[i + k]? = b[i + k]?)
    (memory : WideMemory) (tmp : UnicodeString) : printFrom t a passes i memory tmp = printFrom t b passes i memory tmp := by
  induction passes generalizing i memory tmp with
  | zero => rfl
  | succ passes ih =>
    have h0 : a[i]? = b[i]? := h 0 (Nat.succ_pos _)
    have hrest : ∀ k < passes, a[i + 1 + k]? = b[i + 1 + k]? := by
      intro k hk
      rw [Nat.add_assoc, Nat.add_comm 1]
      exact h (k + 1) (Nat.succ_lt_succ hk)
    rw [printFrom, printFrom, h0]
    exact ih hrest _ _

/-- The printed text depends on the frames at these indices alone. -/
theorem printNtStackTrace_congr {this : StackTrace t.sizeTBits} (h0 : 0 ≤ this.ntStartIdx) {b : Vector (BitVec t.sizeTBits) 50}
    (h : ∀ i ∈ printedIndices this, this.backtrace[i.toNat]? = b[i.toNat]?) (pool : Option WideMemory) :
    printNtStackTrace this pool = printNtStackTrace { this with backtrace := b } pool := by
  have hframes : ∀ k < (this.ntEndIdx - this.ntStartIdx).toNat,
      this.backtrace[this.ntStartIdx.toNat + k]? = b[this.ntStartIdx.toNat + k]? := by
    intro k hk
    have hat := h (this.ntStartIdx + k) (List.mem_map.mpr ⟨k, List.mem_range.mpr hk, rfl⟩)
    rwa [show (this.ntStartIdx + k).toNat = this.ntStartIdx.toNat + k by omega] at hat
  unfold printNtStackTrace
  congr 1
  funext memory
  exact printFrom_congr hframes _ _

end

/-- A position of the array `backtrace`. -/
def InBacktrace (i : Int) : Prop := 0 ≤ i ∧ i ≤ 49

theorem compared_inBacktrace (m m' : NtModule w) (frames frames' : Frames w) {ij : Int × Int}
    (h : ij ∈ comparedIndices (new m frames) (new m' frames')) : InBacktrace ij.1 ∧ InBacktrace ij.2 := by
  have hb := new_bounds m frames
  have hb' := new_bounds m' frames'
  unfold comparedIndices at h
  split at h
  · cases h
  · rename_i hlength
    obtain ⟨k, hk, rfl⟩ := mem_comparedFrom h
    -- the second trace is bounded by the equal lengths only
    refine ⟨⟨?_, ?_⟩, ⟨?_, ?_⟩⟩ <;> dsimp only <;> omega

theorem printed_inBacktrace (m : NtModule w) (frames : Frames w) {i : Int} (h : i ∈ printedIndices (new m frames)) :
    InBacktrace i := by
  have hb := new_bounds m frames
  obtain ⟨k, hk, rfl⟩ := List.mem_map.mp h
  rw [List.mem_range] at hk
  constructor <;> omega

/-- **The index invariant.** The kept indices are ordered positions of the array
that delimit the first run of frames in the nt module, and both are 0 if there
is none. The comparison and the printing count through such positions and depend
on the frames at these alone. -/
theorem index_invariant (m : NtModule w) (frames : Frames w) :
    (0 ≤ (new m frames).ntStartIdx ∧ (new m frames).ntStartIdx ≤ (new m frames).ntEndIdx ∧ (new m frames).ntEndIdx ≤ 49) ∧
    ((∃ a ∈ frames.val, isAddressInNtModule m a = true) →
      FirstRunAt m frames (new m frames).ntStartIdx (new m frames).ntEndIdx) ∧
    ((∀ a ∈ frames.val, isAddressInNtModule m a = false) → (new m frames).ntStartIdx = 0 ∧ (new m frames).ntEndIdx = 0) ∧
    (∀ m' frames', (∀ ij ∈ comparedIndices (new m frames) (new m' frames'), InBacktrace ij.1 ∧ InBacktrace ij.2) ∧
      ((new m frames).areNtTracesSame (new m' frames') = true ↔
        (new m frames).ntEndIdx - (new m frames).ntStartIdx + 1 = (new m' frames').ntEndIdx - (new m' frames').ntStartIdx + 1 ∧
          ∀ ij ∈ comparedIndices (new m frames) (new m' frames'),
            (new m frames).backtrace[ij.1.toNat]? = (new m' frames').backtrace[ij.2.toNat]?)) ∧
    (∀ i ∈ printedIndices (new m frames), InBacktrace i) ∧
    ∀ (t : Target) (m : NtModule t.sizeTBits) (frames : Frames t.sizeTBits) (b : Vector (BitVec t.sizeTBits) 50),
      (∀ i ∈ printedIndices (new m frames), (new m frames).backtrace[i.toNat]? = b[i.toNat]?) →
        ∀ pool, printNtStackTrace (new m frames) pool = printNtStackTrace { new m frames with backtrace := b } pool :=
  ⟨new_bounds m frames, new_firstRunAt, new_outside,
    fun m' frames' => ⟨fun _ => compared_inBacktrace m m' frames frames',
      areNtTracesSame_compared (new_bounds m frames).1 (new_bounds m' frames').1⟩,
    fun _ => printed_inBacktrace m frames, fun _ m frames _ h => printNtStackTrace_congr (new_bounds m frames).1 h⟩

/-- A run in the middle, one up to the last frame, and none. -/
example :
    (let t := new (⟨0x1000, 0x1000⟩ : NtModule 32) ⟨[1, 0x1010, 0x1020, 2], by decide⟩; (t.ntStartIdx, t.ntEndIdx)) = (1, 2) ∧
    (let t := new (⟨0x1000, 0x1000⟩ : NtModule 32) ⟨[1, 0x1010, 0x1020], by decide⟩; (t.ntStartIdx, t.ntEndIdx)) = (1, 2) ∧
    (let t := new (⟨0x1000, 0x1000⟩ : NtModule 32) ⟨[1, 2], by decide⟩; (t.ntStartIdx, t.ntEndIdx)) = (0, 0) := by
  decide

end Dmsk.StackTrace
