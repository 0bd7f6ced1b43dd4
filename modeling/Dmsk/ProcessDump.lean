import Dmsk.ByteMemory
import Dmsk.StackTracePrint

/-!
# What is dumped of a process

`PupDumpProcess` follows the PEB of a process to its process parameters and
these to its command line, with a read of the target's memory at each step, and
prints what it finds.
-/

namespace Dmsk

namespace Target

/-- `FIELD_OFFSET(PEB, ProcessParameters)`. -/
def offsetofProcessParameters : Target → ℕ
  | win32 => 2 + 1 + 1 + 2 * 4 + 4
  | x64 => 2 + 1 + 21 + 8

/-- Two `USHORT`s, padded to the alignment of the pointer that follows. -/
def sizeofUnicodeString (t : Target) : ℕ := 2 * t.sizeofPointer

def offsetofBuffer (t : Target) : ℕ := t.sizeofPointer

/-- `FIELD_OFFSET(RTL_USER_PROCESS_PARAMETERS, CommandLine)`: 16 bytes, ten
pointers and `ImagePathName` lie before it. -/
def offsetofCommandLine (t : Target) : ℕ := 16 + 10 * t.sizeofPointer + t.sizeofUnicodeString

def sizeofRtlUserProcessParameters (t : Target) : ℕ := t.offsetofCommandLine + t.sizeofUnicodeString

end Target

namespace ProcessDump

open StackTrace (WChar)

variable {t : Target}

/-- What the calls for a process return. A read that succeeds has copied all the
bytes that are asked for. -/
structure Process (t : Target) where
  openProcess : Except (BitVec 32) (BitVec t.sizeTBits)
  /-- The status and `PebBaseAddress`. -/
  zwQueryInformationProcess : NtStatus × Addr t.sizeTBits
  memory : Addr t.sizeTBits → Option (BitVec 8)
  /-- The status and the bytes in the buffer. -/
  zwReadVirtualMemory : Addr t.sizeTBits → ℕ → NtStatus × List (BitVec 8)
  copied : ∀ a size, ntSuccess (zwReadVirtualMemory a size).1 = true →
    bytesAt memory size a = some (zwReadVirtualMemory a size).2

inductive Value (t : Target)
  /-- An error code or a status, in hexadecimal. -/
  | code (n : BitVec 32)
  | pointer (a : Addr t.sizeTBits)
  | size (n : BitVec t.sizeTBits)
  | wstring (text : List WChar)
deriving DecidableEq, Repr

inductive Effect (t : Target)
  /-- `std::wcout << text << value << std::endl`. -/
  | print (text : String) (value : Value t)
  | closeHandle (handle : BitVec t.sizeTBits)
deriving DecidableEq, Repr

/-- A read and what follows it. If the read fails this is printed and nothing
follows. -/
def afterRead (process : Process t) (a : Addr t.sizeTBits) (size : ℕ) (rest : List (BitVec 8) → List (Effect t)) :
    List (Effect t) :=
  let (status, bytes) := process.zwReadVirtualMemory a size
  if !ntSuccess status then
    [.print "\t > Can't display more information. ZwReadVirtualMemory failed with NTSTATUS =  " (.code status)]
  else rest bytes

/-- A string of `length` null characters, of which the first bytes have been
overwritten. -/
def overwritten (length : BitVec 16) (bytes : List (BitVec 8)) : List WChar :=
  units (bytes ++ (List.replicate (2 * length.toNat) 0).drop bytes.length)

/-- From the PEB to `CleanUp`. -/
def dumpPeb (process : Process t) (pebBaseAddress : Addr t.sizeTBits) : List (Effect t) :=
  .print "\t > [PEB address] " (.pointer pebBaseAddress) ::
    let processParametersAddress := pebBaseAddress + BitVec.ofNat _ t.offsetofProcessParameters
    afterRead process processParametersAddress t.sizeofPointer fun bytes =>
      let processParametersActualAddress := BitVec.ofNat _ (littleEndian bytes)
      .print "\t > [Process parameters address] " (.size processParametersActualAddress) ::
        afterRead process processParametersActualAddress t.sizeofRtlUserProcessParameters fun userProcessParameters =>
          let length := BitVec.ofNat 16 (field t.offsetofCommandLine 2 userProcessParameters)
          let commandLineAddress :=
            BitVec.ofNat _ (field (t.offsetofCommandLine + t.offsetofBuffer) t.sizeofPointer userProcessParameters)
          afterRead process commandLineAddress length.toNat fun bytes =>
            [.print "\t > [Command Line] " (.wstring (overwritten length bytes))]

def dumpOpened (process : Process t) (handle : BitVec t.sizeTBits) : List (Effect t) :=
  .print "\t > [Opened handle] " (.pointer handle) ::
    let (status, pebBaseAddress) := process.zwQueryInformationProcess
    if !ntSuccess status then
      [.print "\t > Can't display more information. ZwQueryInformationProcess failed with NTSTATUS =  " (.code status)]
    else dumpPeb process pebBaseAddress

def pupDumpProcess (process : Process t) : List (Effect t) :=
  match process.openProcess with
  | .error gle => [.print "\t > Can't display more information. Open Process failed with GLE =  " (.code gle)]
  | .ok handle => dumpOpened process handle ++ [.closeHandle handle]

example : Target.x64.offsetofProcessParameters = 0x20 ∧ Target.x64.offsetofCommandLine = 0x70 := by decide

end ProcessDump

end Dmsk
