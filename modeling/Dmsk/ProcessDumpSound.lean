import Dmsk.ProcessDump

/-!
# The command line that is dumped

The length of a command line is in bytes, and the string it is read into has
that many characters: what is printed is the command line of the target,
followed by null characters in the second half of the string.
-/

namespace Dmsk.ProcessDump

open StackTrace (WChar)

def statusPartialCopy : NtStatus := 0x8000000D#32

variable {t : Target} {process : Process t} {handle : BitVec t.sizeTBits} {peb parameters buffer : Addr t.sizeTBits}
  {length : BitVec 16} {bytes : List (BitVec 8)}

/-! ## The target's memory -/

def Process.pointerAt (process : Process t) (a : Addr t.sizeTBits) : Option (Addr t.sizeTBits) :=
  (numberAt process.memory t.sizeofPointer a).map (BitVec.ofNat _)

def Process.ushortAt (process : Process t) (a : Addr t.sizeTBits) : Option (BitVec 16) :=
  (numberAt process.memory 2 a).map (BitVec.ofNat 16)

/-- The whole units of a text of `length` bytes. -/
def Process.unitsAt (process : Process t) (length : BitVec 16) (buffer : Addr t.sizeTBits) : List (Option WChar) :=
  (List.range (length.toNat / 2)).map fun i => unitAt process.memory (buffer + BitVec.ofNat _ (2 * i))

def Process.Reads (process : Process t) (a : Addr t.sizeTBits) (size : ℕ) : Prop :=
  ntSuccess (process.zwReadVirtualMemory a size).1 = true

/-- The process can be opened and queried, and the three reads succeed at what
lies in its memory. -/
structure Readable (process : Process t) (handle : BitVec t.sizeTBits) (peb parameters buffer : Addr t.sizeTBits)
    (length : BitVec 16) : Prop where
  opened : process.openProcess = .ok handle
  queried : ntSuccess process.zwQueryInformationProcess.1 = true ∧ process.zwQueryInformationProcess.2 = peb
  parametersAt : process.pointerAt (peb + BitVec.ofNat _ t.offsetofProcessParameters) = some parameters
  lengthAt : process.ushortAt (parameters + BitVec.ofNat _ t.offsetofCommandLine) = some length
  bufferAt : process.pointerAt (parameters + BitVec.ofNat _ (t.offsetofCommandLine + t.offsetofBuffer)) = some buffer
  readsAddress : process.Reads (peb + BitVec.ofNat _ t.offsetofProcessParameters) t.sizeofPointer
  readsParameters : process.Reads parameters t.sizeofRtlUserProcessParameters
  readsText : process.Reads buffer length.toNat

theorem number_read {a : Addr t.sizeTBits} {size : ℕ} (h : process.Reads a size) :
    numberAt process.memory size a = some (littleEndian (process.zwReadVirtualMemory a size).2) := by
  rw [numberAt, process.copied a size h, Option.map_some]

theorem field_read {a : Addr t.sizeTBits} {size : ℕ} (h : process.Reads a size) {offset n : ℕ} (hpart : offset + n ≤ size) :
    numberAt process.memory n (a + BitVec.ofNat _ offset) =
      some (field offset n (process.zwReadVirtualMemory a size).2) :=
  numberAt_field (process.copied a size h) hpart

/-! ## The string -/

theorem overwritten_length (h : bytesAt process.memory length.toNat buffer = some bytes) :
    (overwritten length bytes).length = length.toNat := by
  rw [overwritten, units_length, List.length_append, List.length_drop, List.length_replicate, (bytesAt_iff.mp h).1]
  omega

theorem overwritten_take (h : bytesAt process.memory length.toNat buffer = some bytes) :
    ((overwritten length bytes).take (length.toNat / 2)).map some = process.unitsAt length buffer := by
  refine List.ext_getElem? fun i => ?_
  rw [Process.unitsAt, List.getElem?_map, List.getElem?_map]
  rcases Nat.lt_or_ge i (length.toNat / 2) with hi | hi
  · have hlen := overwritten_length h
    rw [List.getElem?_take_of_lt hi, List.getElem?_range hi, Option.map_some, ← units_read h _ hi, ← overwritten,
      List.getElem?_eq_getElem (by omega), Option.map_some]
  · rw [List.getElem?_eq_none (by rw [List.length_take]; omega), List.getElem?_eq_none (by simpa using hi)]
    rfl

/-- What follows the text, and the last byte of an odd length, is null. -/
theorem overwritten_surplus (h : bytesAt process.memory length.toNat buffer = some bytes) {i : ℕ}
    (hi : (length.toNat + 1) / 2 ≤ i) (hlen : i < length.toNat) : (overwritten length bytes)[i]? = some 0 := by
  have hbytes := (bytesAt_iff.mp h).1
  rw [overwritten, units_getElem?, List.getElem?_append_right (by omega), List.getElem?_append_right (by omega),
    List.getElem?_drop, List.getElem?_drop, List.getElem?_replicate_of_lt (by omega),
    List.getElem?_replicate_of_lt (by omega)]
  rfl

theorem overwritten_iff (h : bytesAt process.memory length.toNat buffer = some bytes) :
    (overwritten length bytes).map some = process.unitsAt length buffer ↔ length = 0 := by
  have hlen := overwritten_length h
  constructor
  · intro heq
    have := congrArg List.length heq
    rw [List.length_map, hlen, Process.unitsAt, List.length_map, List.length_range] at this
    exact BitVec.eq_of_toNat_eq (by simp; omega)
  · rintro rfl
    rw [List.eq_nil_of_length_eq_zero hlen]
    rfl

/-! ## A process with a command line of one character -/

def readMemory (memory : Addr t.sizeTBits → Option (BitVec 8)) (a : Addr t.sizeTBits) (size : ℕ) :
    NtStatus × List (BitVec 8) :=
  match bytesAt memory size a with
  | some bytes => (statusSuccess, bytes)
  | none => (statusPartialCopy, [])

theorem readMemory_copied (memory : Addr t.sizeTBits → Option (BitVec 8)) (a : Addr t.sizeTBits) (size : ℕ)
    (h : ntSuccess (readMemory memory a size).1 = true) : bytesAt memory size a = some (readMemory memory a size).2 := by
  cases hbytes : bytesAt memory size a with
  | some bytes => rw [readMemory, hbytes]
  | none =>
    rw [readMemory, hbytes] at h
    exact absurd h (by decide)

/-- The PEB at `0x1000`, the process parameters at `0x2000` and the text at
`0x3000`. -/
def oneCharacter : Process .win32 where
  openProcess := .ok 0x44
  zwQueryInformationProcess := (statusSuccess, 0x1000)
  memory a :=
    if a = 0x1011 then some 0x20 else if a = 0x2040 then some 2 else if a = 0x2045 then some 0x30
    else if a = 0x3000 then some 0x43 else if a < 0x1000 then none else some 0
  zwReadVirtualMemory := readMemory _
  copied := readMemory_copied _

theorem oneCharacter_readable : Readable oneCharacter 0x44 0x1000 0x2000 0x3000 2 where
  opened := rfl
  queried := ⟨by decide, rfl⟩
  parametersAt := by decide +kernel
  lengthAt := by decide +kernel
  bufferAt := by decide +kernel
  readsAddress := by unfold Process.Reads; decide +kernel
  readsParameters := by unfold Process.Reads; decide +kernel
  readsText := by unfold Process.Reads; decide +kernel

/-! ## The dump -/

/-- What is printed when no call fails. -/
def dumped (handle : BitVec t.sizeTBits) (peb parameters : Addr t.sizeTBits) (text : List WChar) : List (Effect t) :=
  [.print "\t > [Opened handle] " (.pointer handle), .print "\t > [PEB address] " (.pointer peb),
    .print "\t > [Process parameters address] " (.size parameters), .print "\t > [Command Line] " (.wstring text),
    .closeHandle handle]

theorem afterRead_of_reads {a : Addr t.sizeTBits} {size : ℕ} (h : process.Reads a size)
    (rest : List (BitVec 8) → List (Effect t)) : afterRead process a size rest = rest (process.zwReadVirtualMemory a size).2 :=
  if_neg (show ¬ (!ntSuccess (process.zwReadVirtualMemory a size).1) = true by simpa [Process.Reads] using h)

/-- What the three reads copy is what lies in the memory of the target. -/
theorem dump_eq (h : Readable process handle peb parameters buffer length) :
    ∃ bytes, bytesAt process.memory length.toNat buffer = some bytes ∧
      pupDumpProcess process = dumped handle peb parameters (overwritten length bytes) := by
  obtain ⟨hopen, ⟨hquery, hpeb⟩, hparameters, hlength, hbuffer, haddress, hstructure, htext⟩ := h
  refine ⟨_, process.copied _ _ htext, ?_⟩
  rw [Process.pointerAt, number_read haddress, Option.map_some, Option.some_inj] at hparameters
  rw [Process.ushortAt, field_read hstructure (by cases t <;> decide), Option.map_some, Option.some_inj] at hlength
  rw [Process.pointerAt, field_read hstructure (by cases t <;> decide), Option.map_some, Option.some_inj] at hbuffer
  have hdump : dumpOpened process handle = .print "\t > [Opened handle] " (.pointer handle) :: dumpPeb process peb := by
    rw [dumpOpened, ← hpeb]
    exact congrArg (List.cons _) (if_neg (show ¬ (!ntSuccess process.zwQueryInformationProcess.1) = true by simpa using hquery))
  rw [pupDumpProcess, hopen]
  simp only [dumped, hdump, dumpPeb, afterRead_of_reads haddress, hparameters, afterRead_of_reads hstructure, hlength, hbuffer,
    afterRead_of_reads htext, List.cons_append, List.nil_append]

/-- **The string that is printed** starts with the command line and is filled up
with null characters to the length that the command line has in bytes. -/
theorem dump_starts_with_commandLine (h : Readable process handle peb parameters buffer length) :
    ∃ text, pupDumpProcess process = dumped handle peb parameters text ∧ text.length = length.toNat ∧
      (text.take (length.toNat / 2)).map some = process.unitsAt length buffer ∧
      ∀ i, (length.toNat + 1) / 2 ≤ i → i < length.toNat → text[i]? = some 0 := by
  obtain ⟨bytes, hbytes, hdump⟩ := dump_eq h
  exact ⟨_, hdump, overwritten_length hbytes, overwritten_take hbytes, fun _ => overwritten_surplus hbytes⟩

/-- **The dumped command line is the target's exactly if it is empty.** -/
theorem dumps_commandLine_iff (h : Readable process handle peb parameters buffer length) :
    ∃ text, pupDumpProcess process = dumped handle peb parameters text ∧
      (text.map some = process.unitsAt length buffer ↔ length = 0) := by
  obtain ⟨bytes, hbytes, hdump⟩ := dump_eq h
  exact ⟨_, hdump, overwritten_iff hbytes⟩

theorem dumps_commandLine_oneCharacter : Readable oneCharacter 0x44 0x1000 0x2000 0x3000 2 ∧
    ∃ text, pupDumpProcess oneCharacter = dumped 0x44 0x1000 0x2000 text ∧
      (text.map some = oneCharacter.unitsAt 2 0x3000 ↔ (2 : BitVec 16) = 0) :=
  ⟨oneCharacter_readable, dumps_commandLine_iff oneCharacter_readable⟩

/-- **A null character follows the command line.** -/
theorem null_follows_commandLine : Readable oneCharacter 0x44 0x1000 0x2000 0x3000 2 ∧
    pupDumpProcess oneCharacter = dumped 0x44 0x1000 0x2000 [0x43, 0] ∧ oneCharacter.unitsAt 2 0x3000 = [some 0x43] :=
  ⟨oneCharacter_readable, by decide +kernel, by decide +kernel⟩

end Dmsk.ProcessDump
