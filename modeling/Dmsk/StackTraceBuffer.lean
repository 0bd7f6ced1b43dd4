import Dmsk.StackTraceIndices

/-!
# The fields of the string that is printed into

Every pass of `PrintNtStackTrace` moves the three fields of `tmp` by the size of
a 32-bit record, and `RtlUnicodeStringPrintf` sets one of them again. A 64-bit
record is longer than the step; what keeps it inside the buffer is the number of
passes, which the indices of the trace bound.
-/

namespace Dmsk.StackTrace

variable {t : Target}

/-! ## The passes of the loop -/

/-- Memory and `tmp` on entry to `RtlUnicodeStringPrintf` and when it returns. -/
structure Pass where
  before : WideMemory
  entered : UnicodeString
  after : WideMemory
  printed : UnicodeString

/-- `tmp` at the end of the pass. -/
def Pass.left (p : Pass) : UnicodeString := ⟨p.printed.length - 28, p.printed.maximumLength - 28, p.printed.buffer + 14⟩

def passesFrom (t : Target) (backtrace : Vector (BitVec t.sizeTBits) 50) : ℕ → ℕ → WideMemory → UnicodeString → List Pass
  | 0, _, _, _ => []
  | passes + 1, i, memory, tmp =>
    let (after, printed) := rtlUnicodeStringPrintf memory tmp (record t (backtrace[i]?.getD 0))
    let pass : Pass := ⟨memory, tmp, after, printed⟩
    pass :: passesFrom t backtrace passes (i + 1) after pass.left

/-- The passes of `PrintNtStackTrace` on a buffer of the pool. -/
def printPasses (this : StackTrace t.sizeTBits) (pool : WideMemory) : List Pass :=
  passesFrom t this.backtrace (this.ntEndIdx - this.ntStartIdx).toNat this.ntStartIdx.toNat (rtlZeroMemory pool 0) ⟨1500, 1500, 0⟩

/-- The memory after the last pass. -/
def memoryAfter (memory : WideMemory) (passes : List Pass) : WideMemory := (passes.getLast?.map Pass.after).getD memory

theorem memoryAfter_cons (memory : WideMemory) (pass : Pass) (passes : List Pass) :
    memoryAfter memory (pass :: passes) = memoryAfter pass.after passes := by
  unfold memoryAfter
  rw [List.getLast?_cons]
  cases passes.getLast? <;> rfl

theorem printFrom_passes (backtrace : Vector (BitVec t.sizeTBits) 50) (passes i : ℕ) (memory : WideMemory) (tmp : UnicodeString) :
    printFrom t backtrace passes i memory tmp = memoryAfter memory (passesFrom t backtrace passes i memory tmp) := by
  induction passes generalizing i memory tmp with
  | zero => rfl
  | succ passes ih =>
    rw [passesFrom, memoryAfter_cons]
    exact ih _ _ _

theorem printNtStackTrace_passes (this : StackTrace t.sizeTBits) (pool : WideMemory) :
    printNtStackTrace this (some pool) = some (memoryAfter (rtlZeroMemory pool 0) (printPasses this pool)) :=
  congrArg some (printFrom_passes _ _ _ _ _)

theorem length_passesFrom (backtrace : Vector (BitVec t.sizeTBits) 50) (passes i : ℕ) (memory : WideMemory) (tmp : UnicodeString) :
    (passesFrom t backtrace passes i memory tmp).length = passes := by
  induction passes generalizing i memory tmp with
  | zero => rfl
  | succ passes ih => rw [passesFrom, List.length_cons, ih]

/-! ## One pass -/

/-- Where the string ends, in bytes from the start of the buffer. -/
def UnicodeString.endOf (s : UnicodeString) : ℕ := 2 * s.buffer + s.maximumLength.toNat

/-- A pass over a buffer of `size` bytes: what is printed into is valid, the
subtractions do not wrap, the string ends where the buffer does, and the
characters written are in it. -/
structure Pass.Within (p : Pass) (size : ℕ) : Prop where
  valid : p.entered.length ≤ p.entered.maximumLength
  length : 28 ≤ p.printed.length
  maximumLength : 28 ≤ p.printed.maximumLength
  entered : p.entered.endOf = size
  printed : p.printed.endOf = size
  left : p.left.endOf = size
  written : 2 * p.entered.buffer + p.printed.length.toNat ≤ size
  frame : ∀ i, i < p.entered.buffer ∨ 2 * p.entered.buffer + p.printed.length.toNat ≤ 2 * i → p.after i = p.before i

theorem twice_recordLength : (BitVec.ofNat 16 (2 * recordLength t)).toNat = 2 * recordLength t ∧
    28 ≤ 2 * recordLength t ∧ 2 * recordLength t ≤ 44 := by
  cases t <;> decide

theorem pass_within {tmp : UnicodeString} {passes size : ℕ} (hlength : tmp.length ≤ tmp.maximumLength)
    (hroom : 28 * (passes + 1) + 16 ≤ tmp.maximumLength.toNat) (hend : tmp.endOf = size) (memory : WideMemory)
    (a : BitVec t.sizeTBits) {p : Pass} (hp : p = ⟨memory, tmp, (rtlUnicodeStringPrintf memory tmp (record t a)).1,
      (rtlUnicodeStringPrintf memory tmp (record t a)).2⟩) :
    p.Within size ∧ p.left.length ≤ p.left.maximumLength ∧ 28 * passes + 16 ≤ p.left.maximumLength.toNat := by
  obtain ⟨htwice, hlow, hhigh⟩ := twice_recordLength (t := t)
  obtain ⟨hleft, hmax⟩ := advance_lengths (t := t) hroom
  rw [printf_record hlength (by omega) memory a] at hp
  subst hp
  unfold UnicodeString.endOf at hend
  refine ⟨⟨hlength, ?_, ?_, hend, hend, ?_, ?_, ?_⟩, hleft, ?_⟩
  · rw [BitVec.le_def]
    dsimp only
    rw [htwice]
    exact hlow
  · rw [BitVec.le_def]
    show 28 ≤ tmp.maximumLength.toNat
    omega
  · unfold UnicodeString.endOf Pass.left
    dsimp only
    rw [hmax]
    omega
  · dsimp only
    rw [htwice]
    omega
  · intro i hi
    dsimp only at hi ⊢
    rw [htwice] at hi
    have hrecord := length_record a
    refine if_neg ?_
    omega
  · show 28 * passes + 16 ≤ (tmp.maximumLength - 28).toNat
    omega

/-! ## All passes -/

theorem passesFrom_within {backtrace : Vector (BitVec t.sizeTBits) 50} {passes i size : ℕ} {memory : WideMemory}
    {tmp : UnicodeString} (hlength : tmp.length ≤ tmp.maximumLength) (hroom : 28 * passes + 16 ≤ tmp.maximumLength.toNat)
    (hend : tmp.endOf = size) : ∀ p ∈ passesFrom t backtrace passes i memory tmp, p.Within size := by
  induction passes generalizing i memory tmp with
  | zero => exact fun _ h => nomatch h
  | succ passes ih =>
    rw [passesFrom, List.forall_mem_cons]
    obtain ⟨hwithin, hlength', hroom'⟩ := pass_within hlength hroom hend memory (backtrace[i]?.getD 0) rfl
    exact ⟨hwithin, ih hlength' hroom' hwithin.left⟩

theorem passes_le (m : NtModule t.sizeTBits) (frames : Frames t.sizeTBits) :
    ((new m frames).ntEndIdx - (new m frames).ntStartIdx).toNat ≤ 49 := by
  have hb := new_bounds m frames
  omega

/-- **The print buffer.** In every pass over every trace the fields stay
consistent: no length wraps around, what is printed into is a valid string that
ends where the 1500 bytes of the buffer do, and all that is written lies in
them. -/
theorem print_within (m : NtModule t.sizeTBits) (frames : Frames t.sizeTBits) (pool : WideMemory) :
    printNtStackTrace (new m frames) (some pool) =
        some (memoryAfter (rtlZeroMemory pool 0) (printPasses (new m frames) pool)) ∧
      (printPasses (new m frames) pool).length = ((new m frames).ntEndIdx - (new m frames).ntStartIdx).toNat ∧
      ∀ p ∈ printPasses (new m frames) pool, p.Within 1500 := by
  refine ⟨printNtStackTrace_passes _ _, length_passesFrom _ _ _ _ _, passesFrom_within (BitVec.le_refl _) ?_ rfl⟩
  have hpasses := passes_le m frames
  show 28 * _ + 16 ≤ 1500
  omega

end Dmsk.StackTrace
