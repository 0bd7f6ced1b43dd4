import Dmsk.Nt

/-!
# Walking the process list

The loop at the end of `PuDumpActiveProcessesZwQuerySystemInformation`. What
`ZwQuerySystemInformation` returns is read at an index of type `DWORD`; the sum
in the guard is a `SIZE_T`.
-/

namespace Dmsk

namespace Target

/-! The fields of `SYSTEM_PROCESS_INFORMATION`, which lie without gaps:
`NextEntryOffset`, `NumberOfThreads`, 48 bytes, three pointers, `UniqueProcessId`
and so on. -/

def offsetofUniqueProcessId (t : Target) : ℕ := 4 + 4 + 48 + 3 * t.sizeofPointer

def sizeofSystemProcessInformation (t : Target) : ℕ :=
  t.offsetofUniqueProcessId + t.sizeofPointer + t.sizeofPointer + 4 + 4 + 11 * t.sizeofPointer + t.sizeofPointer +
    t.sizeofPointer + 6 * 8

end Target

namespace ProcessList

/-- The bytes from the start of the buffer on. -/
abbrev Memory := ℕ → BitVec 8

def readULong (memory : Memory) (offset : ℕ) : BitVec 32 :=
  (memory (offset + 3) ++ memory (offset + 2) : BitVec 16) ++ (memory (offset + 1) ++ memory offset : BitVec 16)

def nextEntryOffset (memory : Memory) (idx : BitVec 32) : BitVec 32 := readULong memory idx.toNat

/-- What the cast to a `DWORD` leaves of the handle. -/
def pid (t : Target) (memory : Memory) (offset : ℕ) : BitVec 32 := readULong memory (offset + t.offsetofUniqueProcessId)

/-- `idx + sizeof(SYSTEM_PROCESS_INFORMATION) < requiredSize`. -/
def guard (t : Target) (requiredSize idx : BitVec 32) : Bool :=
  (idx.toNat + t.sizeofSystemProcessInformation) % 2 ^ t.sizeTBits < requiredSize.toNat

/-- The index of the next pass, unless the guard or the offset ends the loop. -/
def pass (t : Target) (memory : Memory) (requiredSize idx : BitVec 32) : Option (BitVec 32) :=
  if guard t requiredSize idx && nextEntryOffset memory idx ≠ 0 then some (idx + nextEntryOffset memory idx) else none

/-- The loop from `idx` on, of fewer passes than `fuel`: the entries that it
reads. -/
def walk (t : Target) (memory : Memory) (requiredSize : BitVec 32) : ℕ → BitVec 32 → Option (List (BitVec 32))
  | 0, _ => none
  | fuel + 1, idx =>
    if guard t requiredSize idx then
      match pass t memory requiredSize idx with
      | some idx' => (walk t memory requiredSize fuel idx').map (idx :: ·)
      | none => some [idx]
    else some []

/-- The pids that are dumped. -/
def dumpActiveProcesses (t : Target) (memory : Memory) (requiredSize : BitVec 32) (fuel : ℕ) : Option (List (BitVec 32)) :=
  (walk t memory requiredSize fuel 0).map (List.map fun idx => pid t memory idx.toNat)

example : Target.win32.sizeofSystemProcessInformation = 184 ∧ Target.x64.sizeofSystemProcessInformation = 256 := by decide

end ProcessList

end Dmsk
