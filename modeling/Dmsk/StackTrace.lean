import Mathlib.Data.Nat.Notation

/-!
# Captured stack traces

`StackTrace.cpp`. A trace keeps the frames it captured, at most 50, and the
range of the first frames that lie in the nt module. The indices are `LONG`,
and `ntEndIdx` may pass below `ntStartIdx` before the constructor resets both.
-/

namespace Dmsk

variable {w : ℕ}

structure NtModule (w : ℕ) where
  ntBaseAddress : BitVec w
  ntModuleSize : BitVec w
deriving DecidableEq, Repr

/-- What `RtlCaptureStackBackTrace` returns when it is asked for 50 frames. -/
abbrev Frames (w : ℕ) := { frames : List (BitVec w) // frames.length ≤ 50 }

/-- `RtlCaptureStackBackTrace(0, 50, ..)` on a call stack, the innermost return
address first. -/
def rtlCaptureStackBackTrace (stack : List (BitVec w)) : Frames w := ⟨stack.take 50, List.length_take_le 50 stack⟩

structure StackTrace (w : ℕ) where
  ntStartIdx : Int
  ntEndIdx : Int
  backtrace : Vector (BitVec w) 50
  stackframes : ℕ
deriving DecidableEq, Repr

namespace StackTrace

/-- `SIZE_T` arithmetic: the end of the module may wrap around. -/
def isAddressInNtModule (m : NtModule w) (address : BitVec w) : Bool :=
  m.ntBaseAddress < address && address < m.ntBaseAddress + m.ntModuleSize

/-- The array of the class, zeroed and then filled. -/
def capture (frames : Frames w) : Vector (BitVec w) 50 := Vector.ofFn fun i => frames.val.getD i 0

/-- A loop over the frames from `i` on, of at most `passes` passes, left at the
first frame that `stop` holds of. -/
def scan (backtrace : Vector (BitVec w) 50) (stop : BitVec w → Bool) : ℕ → ℕ → ℕ
  | 0, i => i
  | passes + 1, i => if backtrace[i]?.any stop then i else scan backtrace stop passes (i + 1)

def new (m : NtModule w) (frames : Frames w) : StackTrace w :=
  let stackframes := frames.val.length
  let backtrace := capture frames
  let start := scan backtrace (isAddressInNtModule m) stackframes 0
  let stop := scan backtrace (fun a => !isAddressInNtModule m a) (stackframes - start) start
  -- the loop steps back when it is left before the last frame
  let ntEndIdx : Int := if stop < stackframes then stop - 1 else stop
  let ntEndIdx := if ntEndIdx = stackframes then ntEndIdx - 1 else ntEndIdx
  if ntEndIdx < start then ⟨0, 0, backtrace, stackframes⟩ else ⟨start, ntEndIdx, backtrace, stackframes⟩

def sameFrom (a b : Vector (BitVec w) 50) : ℕ → ℕ → ℕ → Bool
  | 0, _, _ => true
  | passes + 1, i, j => if a[i]? ≠ b[j]? then false else sameFrom a b passes (i + 1) (j + 1)

def areNtTracesSame (this other : StackTrace w) : Bool :=
  if this.ntEndIdx - this.ntStartIdx + 1 ≠ other.ntEndIdx - other.ntStartIdx + 1 then false
  else sameFrom this.backtrace other.backtrace (this.ntEndIdx - this.ntStartIdx).toNat this.ntStartIdx.toNat
    other.ntStartIdx.toNat

end StackTrace

end Dmsk
