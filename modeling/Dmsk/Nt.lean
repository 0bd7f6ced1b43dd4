import Mathlib.Algebra.Group.Nat.Defs
import Mathlib.Data.Nat.Notation

/-!
# Types and codes of the kernel interface

Pointers, handles and `SIZE_T` are `w` bits wide.
-/

namespace Dmsk

abbrev Addr (w : ℕ) := BitVec w

/-- A `HANDLE` that holds a process id. -/
abbrev Handle (w : ℕ) := BitVec w

abbrev NtStatus := BitVec 32

/-- `NT_SUCCESS`: the status is not negative. -/
def ntSuccess (status : NtStatus) : Bool := !status.msb

def statusSuccess : NtStatus := 0x00000000#32
def statusNotSupported : NtStatus := 0xC00000BB#32
def statusAlreadyRegistered : NtStatus := 0xC0000718#32
def statusInvalidBufferSize : NtStatus := 0xC0000206#32

@[simp] theorem ntSuccess_statusSuccess : ntSuccess statusSuccess = true := by decide

@[simp] theorem ntSuccess_statusAlreadyRegistered : ntSuccess statusAlreadyRegistered = false := by decide

def methodBuffered : BitVec 32 := 0
def fileAnyAccess : BitVec 32 := 0

/-- `CTL_CODE`. -/
def ctlCode (deviceType function method access : BitVec 32) : BitVec 32 :=
  (deviceType <<< 16) ||| (access <<< 14) ||| (function <<< 2) ||| method

/-! ## The targets -/

inductive Target
  | win32
  | x64
deriving DecidableEq, Repr

namespace Target

/-- `sizeof(PVOID)`, and that of a handle or a `SIZE_T`. -/
def sizeofPointer : Target → ℕ
  | win32 => 4
  | x64 => 8

def sizeTBits (t : Target) : ℕ := 8 * t.sizeofPointer

end Target

end Dmsk
