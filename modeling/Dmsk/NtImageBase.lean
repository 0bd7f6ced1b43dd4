import Dmsk.StackTracePrint

/-!
# Finding the nt module

`GdrvpInitializeNtImageBase` asks for the list of loaded modules until it gets
one, and looks in it for the path of ntoskrnl. What the calls return is given
as a sequence of rounds, one for each pass of the loop that asks; a buffer is
named after the round that allocates it.
-/

namespace Dmsk

def statusNotFound : NtStatus := 0xC0000225#32
def statusInsufficientResources : NtStatus := 0xC000009A#32
def statusBufferTooSmall : NtStatus := 0xC0000023#32

/-- `sizeof(AUX_MODULE_EXTENDED_INFO)`: a pointer, a `ULONG`, a `USHORT` and 256
`UCHAR`s, padded to the alignment of the pointer. -/
def Target.sizeofAuxModuleExtendedInfo : Target → ℕ
  | .win32 => 268
  | .x64 => 272

namespace NtImageBase

open StackTrace (WChar wide)

variable {t : Target}

structure AuxModuleExtendedInfo (t : Target) where
  imageBase : Addr t.sizeTBits
  imageSize : BitVec 32
  fullPathName : Vector (BitVec 8) 256
deriving DecidableEq, Repr

/-- A list of modules in the buffer, with its size in bytes. -/
structure ModuleList (t : Target) where
  modules : List (AuxModuleExtendedInfo t)
  modulesSize : BitVec 32
  size : modulesSize.toNat = modules.length * t.sizeofAuxModuleExtendedInfo

/-! ## The query -/

/-- One pass of the loop: the call that asks for the size, the allocation, and
the call that fills the buffer. -/
structure Round (t : Target) where
  sizeStatus : NtStatus
  allocation : Bool
  fillStatus : NtStatus
  modules : ModuleList t

inductive PoolCall
  | allocate (buffer : ℕ)
  | free (buffer : ℕ)
deriving DecidableEq, Repr

inductive Query (t : Target)
  | failed (status : NtStatus)
  | obtained (status : NtStatus) (buffer : ℕ) (modules : ModuleList t)

/-- `while (!modules)`, from the round `k` on, with fewer passes than `fuel`. -/
def queryModules (rounds : ℕ → Round t) : ℕ → ℕ → Option (Query t × List PoolCall)
  | 0, _ => none
  | fuel + 1, k =>
    let round := rounds k
    if !ntSuccess round.sizeStatus then some (.failed round.sizeStatus, [])
    else if !round.allocation then some (.failed statusInsufficientResources, [])
    else if !ntSuccess round.fillStatus then
      -- whatever the status is
      (queryModules rounds fuel (k + 1)).map fun (query, pool) => (query, .allocate k :: .free k :: pool)
    else some (.obtained round.fillStatus k round.modules, [.allocate k])

/-! ## The search -/

def gNtoskrnl : List WChar := wide "\\SystemRoot\\system32\\ntoskrnl.exe"

/-- The lower case of the characters that a `UCHAR` is widened to. -/
def rtlDowncaseUnicodeChar (c : WChar) : WChar :=
  if (0x41 ≤ c ∧ c ≤ 0x5A) ∨ (0xC0 ≤ c ∧ c ≤ 0xDE ∧ c ≠ 0xD7) then c + 0x20 else c

def AuxModuleExtendedInfo.charAt (e : AuxModuleExtendedInfo t) (idx : ℕ) : WChar := (e.fullPathName[idx]?.getD 0).setWidth 16

/-- The loop over the characters, from `idx` on. -/
def sameFrom (e : AuxModuleExtendedInfo t) : ℕ → ℕ → Bool
  | 0, _ => true
  | passes + 1, idx =>
    if rtlDowncaseUnicodeChar (gNtoskrnl.getD idx 0) = rtlDowncaseUnicodeChar (e.charAt idx) then sameFrom e passes (idx + 1)
    else false

/-- The bound is the length of `gNtoskrnl`. -/
def isSelected (e : AuxModuleExtendedInfo t) : Bool := sameFrom e gNtoskrnl.length 0

/-- The index at which the loop over the modules breaks. -/
def selectFrom (modules : List (AuxModuleExtendedInfo t)) : ℕ → ℕ → Option ℕ
  | 0, _ => none
  | passes + 1, i => if modules[i]?.any isSelected then some i else selectFrom modules passes (i + 1)

def select (l : ModuleList t) : Option ℕ :=
  selectFrom l.modules (l.modulesSize.toNat / t.sizeofAuxModuleExtendedInfo) 0

/-- What the loop over the modules leaves in the global data. -/
def assign (l : ModuleList t) (gDrvData : NtModule t.sizeTBits) : NtModule t.sizeTBits :=
  match (select l).bind (l.modules[·]?) with
  | some e => ⟨e.imageBase, e.imageSize.setWidth _⟩
  | none => gDrvData

/-! ## The function -/

/-- `selected` is the index of the module that was taken. -/
structure Result (t : Target) where
  status : NtStatus
  gDrvData : NtModule t.sizeTBits
  selected : Option ℕ
  pool : List PoolCall

def gdrvpInitializeNtImageBase (auxKlibInitialize : NtStatus) (rounds : ℕ → Round t) (gDrvData : NtModule t.sizeTBits)
    (fuel : ℕ) : Option (Result t) :=
  if !ntSuccess auxKlibInitialize then some ⟨auxKlibInitialize, gDrvData, none, []⟩
  else
    (queryModules rounds fuel 0).map fun
      | (.failed status, pool) => ⟨status, gDrvData, none, pool⟩
      | (.obtained status buffer l, pool) =>
        let gDrvData := assign l gDrvData
        let status := if gDrvData.ntBaseAddress = 0 then statusNotFound else status
        ⟨status, gDrvData, select l, pool ++ [.free buffer]⟩

end NtImageBase

end Dmsk
