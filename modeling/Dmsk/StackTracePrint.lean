import Dmsk.Nt
import Dmsk.StackTraceSound

/-!
# The printed stack trace

`PrintNtStackTrace` formats the frames into a buffer from the pool, 14
characters apart, and logs the text up to the first null character in it. What
the pool returns is not initialised, and nothing that is written ends the text.
-/

namespace Dmsk.StackTrace

/-! ## Text -/

abbrev WChar := BitVec 16

/-- The characters from the start of the buffer on. -/
abbrev WideMemory := ℕ → WChar

def wide (s : String) : List WChar := s.toList.map fun c => BitVec.ofNat 16 c.toNat

def writeText (memory : WideMemory) (offset : ℕ) (text : List WChar) : WideMemory := fun i =>
  if offset ≤ i ∧ i < offset + text.length then text.getD (i - offset) 0 else memory i

/-- The null-terminated text at the start of the memory. -/
def ReadsAs (memory : WideMemory) (text : List WChar) : Prop :=
  (List.range (text.length + 1)).map memory = text ++ [0] ∧ 0 ∉ text

instance (memory : WideMemory) (text : List WChar) : Decidable (ReadsAs memory text) :=
  inferInstanceAs (Decidable (_ ∧ _))

/-! ## Formatting -/

def hexDigit (n : ℕ) : WChar := BitVec.ofNat 16 (if n < 10 then '0'.toNat + n else 'A'.toNat + (n - 10))

/-- The last `digits` hexadecimal digits of `n`, the highest first. -/
def hexDigits : ℕ → ℕ → List WChar
  | 0, _ => []
  | digits + 1, n => hexDigits digits (n / 16) ++ [hexDigit (n % 16)]

/-- `nt!0x%8p;`. All digits of a pointer are printed; the width is a minimum. -/
def record (t : Target) (address : BitVec t.sizeTBits) : List WChar :=
  wide "nt!0x" ++ hexDigits (2 * t.sizeofPointer) address.toNat ++ wide ";"

/-- The buffer of a `UNICODE_STRING` by its place in memory, the lengths in bytes. -/
structure UnicodeString where
  length : BitVec 16
  maximumLength : BitVec 16
  buffer : ℕ
deriving DecidableEq, Repr

/-- `RtlUnicodeStringPrintf` of a formatted text, which is cut off where it does
not fit. An invalid string is left as it is. -/
def rtlUnicodeStringPrintf (memory : WideMemory) (s : UnicodeString) (text : List WChar) : WideMemory × UnicodeString :=
  if s.maximumLength < s.length then (memory, s)
  else
    let text := text.take (s.maximumLength.toNat / 2)
    (writeText memory s.buffer text, { s with length := BitVec.ofNat 16 (2 * text.length) })

def rtlZeroMemory (memory : WideMemory) (bytes : ℕ) : WideMemory := writeText memory 0 (List.replicate (bytes / 2) 0)

def printFrom (t : Target) (backtrace : Vector (BitVec t.sizeTBits) 50) : ℕ → ℕ → WideMemory → UnicodeString → WideMemory
  | 0, _, memory, _ => memory
  | passes + 1, i, memory, tmp =>
    let (memory, tmp) := rtlUnicodeStringPrintf memory tmp (record t (backtrace[i]?.getD 0))
    printFrom t backtrace passes (i + 1) memory ⟨tmp.length - 28, tmp.maximumLength - 28, tmp.buffer + 14⟩

/-- What is in memory when the text is logged, if `ExAllocatePoolWithTag`
returns a buffer; `pool` is what memory then holds. -/
def printNtStackTrace {t : Target} (this : StackTrace t.sizeTBits) (pool : Option WideMemory) : Option WideMemory :=
  pool.map fun memory =>
    printFrom t this.backtrace (this.ntEndIdx - this.ntStartIdx).toNat this.ntStartIdx.toNat (rtlZeroMemory memory 0)
      ⟨1500, 1500, 0⟩

end Dmsk.StackTrace
