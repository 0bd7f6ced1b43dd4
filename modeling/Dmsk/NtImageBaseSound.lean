import Dmsk.NtImageBase
import Mathlib.Data.List.TakeWhile
import Mathlib.Data.List.GetD

/-!
# Which module is taken for ntoskrnl, and when the query ends

The characters are compared as far as the text goes that is looked for, so a
module is taken whose path starts with it. The loop that asks for the list is
left when a call fails that is not the filling of the buffer, or when that one
succeeds.
-/

namespace Dmsk.NtImageBase

open StackTrace (WChar)

variable {t : Target} {e : AuxModuleExtendedInfo t}

/-! ## Paths -/

/-- `FullPathName` up to its null character. -/
def AuxModuleExtendedInfo.path (e : AuxModuleExtendedInfo t) : List WChar :=
  (e.fullPathName.toList.map (BitVec.setWidth 16)).takeWhile (· ≠ 0)

def downcase (text : List WChar) : List WChar := text.map rtlDowncaseUnicodeChar

/-- The whole path is the one of ntoskrnl, ignoring case. -/
def hasPath (e : AuxModuleExtendedInfo t) : Bool := downcase e.path = downcase gNtoskrnl

/-- The path starts with the one of ntoskrnl, ignoring case. -/
def startsWithPath (e : AuxModuleExtendedInfo t) : Bool := (downcase gNtoskrnl).isPrefixOf (downcase e.path)

theorem startsWithPath_iff : startsWithPath e = true ↔ downcase gNtoskrnl <+: downcase e.path := List.isPrefixOf_iff_prefix

theorem startsWith_of_hasPath (h : hasPath e = true) : startsWithPath e = true := by
  rw [startsWithPath_iff, of_decide_eq_true h]

/-- A text without null character starts the memory if it starts the
null-terminated text in it. -/
theorem prefix_takeWhile {f : WChar → WChar} (h0 : f 0 = 0) : ∀ {text memory : List WChar}, 0 ∉ text →
    (text <+: memory.map f ↔ text <+: (memory.takeWhile (· ≠ 0)).map f)
  | [], _, _ => iff_of_true List.nil_prefix List.nil_prefix
  | _ :: _, [], _ => Iff.rfl
  | c :: text, r :: memory, hnull => by
    obtain ⟨hc, htext⟩ := not_or.mp (mt List.mem_cons.mpr hnull)
    by_cases hr : r = 0
    · rw [hr, List.takeWhile_cons_of_neg (by simp), List.map_cons, h0, List.cons_prefix_cons]
      refine iff_of_false (fun h => hc h.1.symm) ?_
      simp
    · rw [List.takeWhile_cons_of_pos (by simpa using hr), List.map_cons, List.map_cons, List.cons_prefix_cons,
        List.cons_prefix_cons, prefix_takeWhile h0 htext]

theorem sameFrom_iff {passes idx : ℕ} : sameFrom e passes idx = true ↔
    ∀ k < passes, rtlDowncaseUnicodeChar (gNtoskrnl.getD (idx + k) 0) = rtlDowncaseUnicodeChar (e.charAt (idx + k)) := by
  induction passes generalizing idx with
  | zero => simp [sameFrom]
  | succ passes ih =>
    rw [sameFrom]
    by_cases h0 : rtlDowncaseUnicodeChar (gNtoskrnl.getD idx 0) = rtlDowncaseUnicodeChar (e.charAt idx)
    · rw [if_pos h0, ih]
      constructor
      · intro h k hk
        cases k with
        | zero => exact h0
        | succ k =>
          rw [← Nat.add_assoc, Nat.add_right_comm]
          exact h k (Nat.lt_of_succ_lt_succ hk)
      · intro h k hk
        rw [Nat.add_right_comm, Nat.add_assoc]
        exact h (k + 1) (Nat.succ_lt_succ hk)
    · rw [if_neg h0]
      exact iff_of_false (fun h => nomatch h) fun h => h0 (h 0 (Nat.succ_pos _))

theorem length_gNtoskrnl : gNtoskrnl.length = 33 := by decide

theorem zero_notMem_gNtoskrnl : 0 ∉ downcase gNtoskrnl := by decide

theorem downcase_charAt {k : ℕ} (hk : k < 256) :
    (downcase (e.fullPathName.toList.map (BitVec.setWidth 16)))[k]? = some (rtlDowncaseUnicodeChar (e.charAt k)) := by
  unfold downcase AuxModuleExtendedInfo.charAt
  simp [hk]

/-- The comparison accepts the paths that start with the text. -/
theorem isSelected_eq : isSelected e = startsWithPath e := by
  have hlength : (downcase gNtoskrnl).length = gNtoskrnl.length := List.length_map _
  have hat : ∀ (k : ℕ) (hk : k < (downcase gNtoskrnl).length),
      rtlDowncaseUnicodeChar (gNtoskrnl.getD (0 + k) 0) = rtlDowncaseUnicodeChar (e.charAt (0 + k)) ↔
        (downcase (e.fullPathName.toList.map (BitVec.setWidth 16)))[k]? = some (downcase gNtoskrnl)[k] := by
    intro k hk
    have h33 := length_gNtoskrnl
    rw [Nat.zero_add, downcase_charAt (by omega), Option.some.injEq, List.getD_eq_getElem _ _ (hlength ▸ hk), eq_comm]
    simp [downcase]
  have hraw : isSelected e = true ↔ downcase gNtoskrnl <+: downcase (e.fullPathName.toList.map (BitVec.setWidth 16)) := by
    rw [isSelected, sameFrom_iff, List.prefix_iff_getElem?]
    constructor
    · exact fun h k hk => (hat k hk).mp (h k (hlength ▸ hk))
    · exact fun h k hk => (hat k (hlength.symm ▸ hk)).mpr (h k (hlength.symm ▸ hk))
  rw [Bool.eq_iff_iff, hraw, startsWithPath_iff]
  exact prefix_takeWhile (by decide) zero_notMem_gNtoskrnl

/-! ## The first module -/

section
variable {α : Type*} {p q : α → Bool} {l : List α} {a : α}

theorem findIdx?_of_find?_eq_none (h : l.find? p = none) : l.findIdx? p = none := by
  rw [List.findIdx?_eq_none_iff]
  rw [List.find?_eq_none] at h
  intro x hx
  simpa using h x hx

theorem findIdx?_of_find?_eq_some (h : l.find? p = some a) : ∃ i, l.findIdx? p = some i ∧ l[i]? = some a ∧ p a = true := by
  obtain ⟨ha, as, bs, rfl, has⟩ := List.find?_eq_some_iff_append.mp h
  refine ⟨as.length, ?_, by simp, ha⟩
  have hnone : as.findIdx? p = none := by
    rw [List.findIdx?_eq_none_iff]
    intro x hx
    simpa using has x hx
  rw [List.findIdx?_append, hnone]
  simp [List.findIdx?_cons, ha]

/-- Of two searches that accept the same first element both find it. -/
theorem find?_of_imp (hqp : ∀ x, q x = true → p x = true) (h : l.find? p = some a) (ha : q a = true) :
    l.find? q = some a ∧ l.findIdx? q = l.findIdx? p := by
  obtain ⟨hpa, as, bs, rfl, has⟩ := List.find?_eq_some_iff_append.mp h
  have hno : ∀ x ∈ as, ¬ q x = true := fun x hx hqx => by
    have := has x hx
    rw [hqp x hqx] at this
    cases this
  have hnone : ∀ r : α → Bool, (∀ x ∈ as, ¬ r x = true) → as.findIdx? r = none := fun r hr => by
    rw [List.findIdx?_eq_none_iff]
    intro x hx
    simpa using hr x hx
  refine ⟨List.find?_eq_some_iff_append.mpr ⟨ha, as, bs, rfl, fun x hx => by simpa using hno x hx⟩, ?_⟩
  rw [List.findIdx?_append, List.findIdx?_append, hnone q hno, hnone p fun x hx => by simpa using has x hx]
  simp [List.findIdx?_cons, ha, hpa]

end

theorem selectFrom_eq {modules : List (AuxModuleExtendedInfo t)} : ∀ {passes i : ℕ}, i + passes = modules.length →
    selectFrom modules passes i = ((modules.drop i).findIdx? startsWithPath).map (i + ·) := by
  intro passes
  induction passes with
  | zero =>
    intro i hi
    simp [selectFrom, List.drop_of_length_le (show modules.length ≤ i by omega)]
  | succ passes ih =>
    intro i hi
    have hlt : i < modules.length := by omega
    rw [selectFrom, List.drop_eq_getElem_cons hlt, List.getElem?_eq_getElem hlt, Option.any_some, isSelected_eq,
      List.findIdx?_cons, ih (i := i + 1) (by omega)]
    split
    · rfl
    · rw [Option.map_map]
      congr 1
      funext k
      show i + 1 + k = i + (k + 1)
      omega

theorem select_eq (l : ModuleList t) : select l = l.modules.findIdx? startsWithPath := by
  have hsize : 0 < t.sizeofAuxModuleExtendedInfo := by cases t <;> decide
  rw [select, l.size, Nat.mul_div_cancel _ hsize, selectFrom_eq (Nat.zero_add _)]
  simp

/-! ## What is taken -/

/-- What `GdrvInitGlobalData` sets before. -/
def initial : NtModule t.sizeTBits := ⟨0, 0⟩

def AuxModuleExtendedInfo.range (e : AuxModuleExtendedInfo t) : NtModule t.sizeTBits := ⟨e.imageBase, e.imageSize.setWidth _⟩

section
variable {auxKlibInitialize status : NtStatus} {rounds : ℕ → Round t} {fuel k : ℕ} {l : ModuleList t} {pool : List PoolCall}
  {query : Query t}

/-- The loop that asks for the list is left with `l`. -/
def Obtains (auxKlibInitialize : NtStatus) (rounds : ℕ → Round t) (fuel : ℕ) (l : ModuleList t) : Prop :=
  ntSuccess auxKlibInitialize = true ∧
    ∃ status buffer pool, queryModules rounds fuel 0 = some (.obtained status buffer l, pool)

/-- A query that fails has a failure status, one that succeeds a success status. -/
def Query.StatusFits : Query t → Prop
  | .failed status => ntSuccess status = false
  | .obtained status _ _ => ntSuccess status = true

theorem queryModules_status (h : queryModules rounds fuel k = some (query, pool)) : query.StatusFits := by
  induction fuel generalizing k pool with
  | zero => cases h
  | succ fuel ih =>
    unfold queryModules at h
    dsimp only at h
    split at h
    · rename_i hsize
      cases h
      unfold Query.StatusFits
      simpa using hsize
    split at h
    · cases h
      rfl
    split at h
    · obtain ⟨⟨query', pool'⟩, hrest, heq⟩ := Option.map_eq_some_iff.mp h
      cases heq
      exact ih hrest
    · rename_i hfill
      cases h
      unfold Query.StatusFits
      simpa using hfill

def takenFrom (l : ModuleList t) : NtModule t.sizeTBits :=
  match (l.modules.find? startsWithPath) with
  | some e => e.range
  | none => initial

theorem assign_eq (l : ModuleList t) : assign l initial = takenFrom l := by
  unfold assign takenFrom
  rw [select_eq]
  cases hfind : l.modules.find? startsWithPath with
  | none => rw [findIdx?_of_find?_eq_none hfind]; rfl
  | some e =>
    obtain ⟨i, hidx, hat, -⟩ := findIdx?_of_find?_eq_some hfind
    rw [hidx, Option.bind_some, hat]
    rfl

/-- What is returned once the list has been obtained. -/
def searched (l : ModuleList t) (status : NtStatus) (pool : List PoolCall) : Result t :=
  ⟨if (takenFrom l).ntBaseAddress = 0 then statusNotFound else status, takenFrom l, l.modules.findIdx? startsWithPath, pool⟩

theorem init_obtains (h : Obtains auxKlibInitialize rounds fuel l) : ∃ status pool, ntSuccess status = true ∧
    gdrvpInitializeNtImageBase auxKlibInitialize rounds initial fuel = some (searched l status pool) := by
  obtain ⟨hinit, status, buffer, pool, hquery⟩ := h
  refine ⟨status, pool ++ [.free buffer], queryModules_status hquery, ?_⟩
  unfold gdrvpInitializeNtImageBase
  rw [if_neg (by simpa using hinit), hquery, Option.map_some]
  dsimp only
  rw [select_eq, assign_eq, searched]

end

/-- The first module with the path of ntoskrnl is taken, or none if there is none. -/
structure FindsNtoskrnl (l : ModuleList t) (r : Result t) : Prop where
  selected : r.selected = l.modules.findIdx? hasPath
  found : ∀ e, l.modules.find? hasPath = some e → r.gDrvData = e.range ∧ ntSuccess r.status = true
  missing : l.modules.find? hasPath = none → r.gDrvData = initial ∧ r.status = statusNotFound

section
variable {l : ModuleList t} {status : NtStatus} {pool : List PoolCall}

theorem takenFrom_some (h : l.modules.find? startsWithPath = some e) : takenFrom l = e.range := by rw [takenFrom, h]

theorem takenFrom_none (h : l.modules.find? startsWithPath = none) : takenFrom l = initial := by rw [takenFrom, h]

theorem finds_none (h : l.modules.find? startsWithPath = none) : FindsNtoskrnl l (searched l status pool) := by
  have hnone : l.modules.find? hasPath = none := by
    rw [List.find?_eq_none] at h ⊢
    exact fun x hx hpath => h x hx (startsWith_of_hasPath hpath)
  refine ⟨?_, ?_, ?_⟩
  · exact (findIdx?_of_find?_eq_none h).trans (findIdx?_of_find?_eq_none hnone).symm
  · intro e he
    rw [hnone] at he
    cases he
  · intro _
    rw [searched, takenFrom_none h]
    exact ⟨rfl, rfl⟩

theorem finds_whole (h : l.modules.find? startsWithPath = some e) (hpath : hasPath e = true) (hbase : e.imageBase ≠ 0)
    (hstatus : ntSuccess status = true) : FindsNtoskrnl l (searched l status pool) := by
  obtain ⟨hfind, hidx⟩ := find?_of_imp (fun _ => startsWith_of_hasPath) h hpath
  refine ⟨hidx.symm, ?_, ?_⟩
  · intro e' he'
    rw [hfind] at he'
    cases he'
    rw [searched, takenFrom_some h, if_neg (show ¬ e.range.ntBaseAddress = 0 from hbase)]
    exact ⟨rfl, hstatus⟩
  · intro hnone
    rw [hfind] at hnone
    cases hnone

theorem whole_of_finds (h : l.modules.find? startsWithPath = some e) (hfinds : FindsNtoskrnl l (searched l status pool)) :
    hasPath e = true ∧ e.imageBase ≠ 0 := by
  obtain ⟨i, hidx, hat, -⟩ := findIdx?_of_find?_eq_some h
  have hselected := hfinds.selected.symm.trans hidx
  have hpath : hasPath e = true := by
    obtain ⟨hlt, hpath, -⟩ := List.findIdx?_eq_some_iff_getElem.mp hselected
    rw [List.getElem?_eq_getElem hlt, Option.some.injEq] at hat
    rwa [hat] at hpath
  refine ⟨hpath, ?_⟩
  intro hnull
  have hsuccess := (hfinds.found e (find?_of_imp (fun _ => startsWith_of_hasPath) h hpath).1).2
  rw [searched, takenFrom_some h, if_pos (show e.range.ntBaseAddress = 0 from hnull)] at hsuccess
  exact absurd (show ntSuccess statusNotFound = true from hsuccess) (by decide)

end

/-- **Finding ntoskrnl.** The right module is taken from a list if and only if
the first one whose path starts with the one of ntoskrnl has no longer path, and
has an address. -/
theorem finds_ntoskrnl_iff {auxKlibInitialize : NtStatus} {rounds : ℕ → Round t} {fuel : ℕ} {l : ModuleList t}
    (h : Obtains auxKlibInitialize rounds fuel l) :
    ∃ r, gdrvpInitializeNtImageBase auxKlibInitialize rounds initial fuel = some r ∧
      (FindsNtoskrnl l r ↔ ∀ e, l.modules.find? startsWithPath = some e → hasPath e = true ∧ e.imageBase ≠ 0) := by
  obtain ⟨status, pool, hstatus, hinit⟩ := init_obtains h
  refine ⟨_, hinit, fun hfinds e he => whole_of_finds he hfinds, ?_⟩
  intro hcond
  cases hfind : l.modules.find? startsWithPath with
  | none => exact finds_none hfind
  | some e =>
    obtain ⟨hpath, hbase⟩ := hcond e hfind
    exact finds_whole hfind hpath hbase hstatus

def pathName (s : String) : Vector (BitVec 8) 256 :=
  Vector.ofFn fun i => (s.toList.map fun c => BitVec.ofNat 8 c.toNat).getD i 0

theorem size_three (e₁ e₂ e₃ : AuxModuleExtendedInfo .win32) :
    (804#32).toNat = [e₁, e₂, e₃].length * Target.win32.sizeofAuxModuleExtendedInfo := by
  rw [show [e₁, e₂, e₃].length = 3 from rfl]
  decide

def halModule : AuxModuleExtendedInfo .win32 := ⟨0x8000, 0x4000, pathName "\\SystemRoot\\system32\\halmacpi.dll"⟩

def kernelModule : AuxModuleExtendedInfo .win32 := ⟨0x1000, 0x2000, pathName "\\SystemRoot\\System32\\NTOSKRNL.EXE"⟩

def bakModule : AuxModuleExtendedInfo .win32 := ⟨0x4000, 0x1000, pathName "\\SystemRoot\\system32\\ntoskrnl.exe.bak"⟩

def atOnce (l : ModuleList t) : ℕ → Round t := fun _ => ⟨statusSuccess, true, statusSuccess, l⟩

theorem obtains_atOnce (l : ModuleList t) : Obtains statusSuccess (atOnce l) 1 l :=
  ⟨ntSuccess_statusSuccess, statusSuccess, 0, [.allocate 0], by simp [queryModules, atOnce]⟩

def kernel : ModuleList .win32 := ⟨[halModule, kernelModule, bakModule], 804#32, size_three _ _ _⟩

/-- The kernel comes after the module with the longer path. -/
def longerPath : ModuleList .win32 := ⟨[halModule, bakModule, kernelModule], 804#32, size_three _ _ _⟩

theorem finds_ntoskrnl_kernel : ∃ r, gdrvpInitializeNtImageBase statusSuccess (atOnce kernel) initial 1 = some r ∧
    FindsNtoskrnl kernel r := by
  obtain ⟨r, hr, hiff⟩ := finds_ntoskrnl_iff (obtains_atOnce kernel)
  refine ⟨r, hr, hiff.mpr ?_⟩
  have hhal : ¬ startsWithPath halModule = true := by decide +kernel
  have hkernel : hasPath kernelModule = true := by decide +kernel
  have hfind : kernel.modules.find? startsWithPath = some kernelModule := by
    rw [kernel, List.find?_cons_of_neg hhal, List.find?_cons_of_pos (startsWith_of_hasPath hkernel)]
  intro e he
  rw [hfind] at he
  cases he
  exact ⟨hkernel, by decide⟩

/-- A module is selected whose path goes on after the text. -/
theorem longer_path_selected : ¬ ∀ (rounds : ℕ → Round .win32) (fuel : ℕ) (l : ModuleList .win32) r,
    Obtains statusSuccess rounds fuel l → gdrvpInitializeNtImageBase statusSuccess rounds initial fuel = some r →
      FindsNtoskrnl l r := by
  intro h
  have hselected : (gdrvpInitializeNtImageBase statusSuccess (atOnce longerPath) initial 1).map Result.selected = some (some 1) := by
    decide +kernel
  obtain ⟨r, hr, hone⟩ := Option.map_eq_some_iff.mp hselected
  have hfinds := (h _ 1 _ r (obtains_atOnce longerPath) hr).selected
  rw [hone] at hfinds
  exact absurd hfinds (by decide +kernel)

/-! ## The end of the query -/

/-- The round ends with a buffer that could not be filled. -/
def Round.retried (round : Round t) : Bool := ntSuccess round.sizeStatus && round.allocation && !ntSuccess round.fillStatus

def Query.release : Query t → List PoolCall
  | .failed _ => []
  | .obtained _ buffer _ => [.free buffer]

section
variable {auxKlibInitialize : NtStatus} {rounds : ℕ → Round t} {fuel k : ℕ} {pool : List PoolCall} {query : Query t}

/-- The three ways in which a round ends. -/
theorem queryModules_cases (h : queryModules rounds (fuel + 1) k = some (query, pool)) :
    (∃ status, ntSuccess status = false ∧ query = .failed status ∧ pool = []) ∨
    (∃ status l, query = .obtained status k l ∧ pool = [.allocate k]) ∨
    ∃ rest, queryModules rounds fuel (k + 1) = some (query, rest) ∧ pool = .allocate k :: .free k :: rest := by
  unfold queryModules at h
  dsimp only at h
  split at h
  · rename_i hsize
    cases h
    exact .inl ⟨_, by simpa using hsize, rfl, rfl⟩
  split at h
  · cases h
    exact .inl ⟨_, rfl, rfl, rfl⟩
  split at h
  · obtain ⟨⟨query', rest⟩, hrest, heq⟩ := Option.map_eq_some_iff.mp h
    cases heq
    exact .inr (.inr ⟨rest, hrest, rfl⟩)
  · cases h
    exact .inr (.inl ⟨_, _, rfl, rfl⟩)

theorem queryModules_retried (hk : (rounds k).retried = true) :
    queryModules rounds (fuel + 1) k =
      (queryModules rounds fuel (k + 1)).map fun (query, pool) => (query, .allocate k :: .free k :: pool) := by
  unfold Round.retried at hk
  simp only [Bool.and_eq_true, Bool.not_eq_true'] at hk
  rw [queryModules]
  simp [hk]

theorem queryModules_not_retried (hk : (rounds k).retried = false) : ∃ r, queryModules rounds (fuel + 1) k = some r := by
  unfold Round.retried at hk
  unfold queryModules
  dsimp only
  split
  · exact ⟨_, rfl⟩
  split
  · exact ⟨_, rfl⟩
  split
  · simp_all
  · exact ⟨_, rfl⟩

theorem queryModules_endless (h : ∀ k, (rounds k).retried = true) : queryModules rounds fuel k = none := by
  induction fuel generalizing k with
  | zero => rfl
  | succ fuel ih => rw [queryModules_retried (h k), ih]; rfl

theorem queryModules_ends {d : ℕ} (h : (rounds (k + d)).retried = false) : ∃ r, queryModules rounds (d + 1) k = some r := by
  induction d generalizing k with
  | zero => exact queryModules_not_retried h
  | succ d ih =>
    cases hk : (rounds k).retried with
    | false => exact queryModules_not_retried hk
    | true =>
      obtain ⟨r, hr⟩ := ih (k := k + 1) (by rwa [Nat.add_right_comm, Nat.add_assoc])
      rw [queryModules_retried hk, hr]
      exact ⟨_, rfl⟩

/-- Every buffer is allocated once at most and freed as often; none of the
rounds before `k` is. -/
def Balanced (k : ℕ) (pool : List PoolCall) : Prop :=
  ∀ b, pool.count (.free b) = pool.count (.allocate b) ∧ pool.count (.allocate b) ≤ if b < k then 0 else 1

theorem Balanced.round (h : Balanced (k + 1) pool) : Balanced k (.allocate k :: .free k :: pool) := by
  intro b
  obtain ⟨heq, hle⟩ := h b
  by_cases hb : b = k
  · subst hb
    rw [if_pos (Nat.lt_succ_self b)] at hle
    simp only [List.count_cons_self, List.count_cons_of_ne, ne_eq, reduceCtorEq, not_false_eq_true, Nat.lt_irrefl, if_false]
    omega
  · have hfree : PoolCall.free k ≠ .free b := fun he => hb (PoolCall.free.inj he).symm
    have hallocate : PoolCall.allocate k ≠ .allocate b := fun he => hb (PoolCall.allocate.inj he).symm
    simp only [List.count_cons_of_ne, ne_eq, reduceCtorEq, not_false_eq_true, hfree, hallocate]
    refine ⟨heq, ?_⟩
    split at hle <;> split <;> omega

theorem balanced_nil (k : ℕ) : Balanced k [] := fun _ => ⟨rfl, Nat.zero_le _⟩

theorem queryModules_balanced (h : queryModules rounds fuel k = some (query, pool)) : Balanced k (pool ++ query.release) := by
  induction fuel generalizing k pool with
  | zero => cases h
  | succ fuel ih =>
    rcases queryModules_cases h with ⟨status, -, rfl, rfl⟩ | ⟨status, l, rfl, rfl⟩ | ⟨rest, hrest, rfl⟩
    · exact balanced_nil k
    · exact (balanced_nil (k + 1)).round
    · exact (ih hrest).round

end

/-- The function returns after finitely many calls, every buffer that it has
allocated is freed once, and it reports a failure unless it has had the list. -/
def Returns (auxKlibInitialize : NtStatus) (rounds : ℕ → Round t) : Prop :=
  ∃ fuel r, gdrvpInitializeNtImageBase auxKlibInitialize rounds initial fuel = some r ∧
    (∀ b, r.pool.count (.free b) = r.pool.count (.allocate b) ∧ r.pool.count (.allocate b) ≤ 1) ∧
    ((∀ l, ¬ Obtains auxKlibInitialize rounds fuel l) → ntSuccess r.status = false)

section
variable {auxKlibInitialize : NtStatus} {rounds : ℕ → Round t} {fuel : ℕ} {pool : List PoolCall} {query : Query t}

/-- The function after the loop: the buffer is released, and a failure is passed on. -/
theorem init_query (hinit : ntSuccess auxKlibInitialize = true) (hquery : queryModules rounds fuel 0 = some (query, pool)) :
    ∃ r, gdrvpInitializeNtImageBase auxKlibInitialize rounds initial fuel = some r ∧ r.pool = pool ++ query.release ∧
      ((∀ l, ¬ Obtains auxKlibInitialize rounds fuel l) → ntSuccess r.status = false) := by
  unfold gdrvpInitializeNtImageBase
  rw [if_neg (by simpa using hinit), hquery, Option.map_some]
  cases query with
  | failed status => exact ⟨_, rfl, (List.append_nil _).symm, fun _ => queryModules_status hquery⟩
  | obtained status buffer l => exact ⟨_, rfl, rfl, fun hno => absurd ⟨hinit, status, buffer, pool, hquery⟩ (hno l)⟩

theorem not_returns (hinit : ntSuccess auxKlibInitialize = true) (hrounds : ∀ k, (rounds k).retried = true) :
    ¬ Returns auxKlibInitialize rounds := by
  rintro ⟨fuel, r, hr, -⟩
  unfold gdrvpInitializeNtImageBase at hr
  rw [if_neg (by simpa using hinit), queryModules_endless hrounds] at hr
  cases hr

theorem returns_of_not_retried (hinit : ntSuccess auxKlibInitialize = true) {k : ℕ} (hk : (rounds k).retried = false) :
    Returns auxKlibInitialize rounds := by
  obtain ⟨⟨query, pool⟩, hquery⟩ := queryModules_ends (k := 0) (by rwa [Nat.zero_add])
  obtain ⟨r, hr, hpool, hfailure⟩ := init_query hinit hquery
  refine ⟨k + 1, r, hr, fun b => ?_, hfailure⟩
  have hbalanced := queryModules_balanced hquery b
  rwa [if_neg (Nat.not_lt_zero b), ← hpool] at hbalanced

end

/-- **The query ends** if and only if some round does not leave a buffer that
could not be filled, whatever the reason was. -/
theorem returns_iff (auxKlibInitialize : NtStatus) (rounds : ℕ → Round t) :
    Returns auxKlibInitialize rounds ↔ ntSuccess auxKlibInitialize = false ∨ ∃ k, (rounds k).retried = false := by
  cases hinit : ntSuccess auxKlibInitialize with
  | false => exact iff_of_true ⟨0, _, if_pos (by simpa using hinit), fun _ => ⟨rfl, Nat.zero_le _⟩, fun _ => hinit⟩ (.inl rfl)
  | true =>
    constructor
    · intro h
      by_contra hn
      refine not_returns hinit (fun k => ?_) h
      simpa using not_exists.mp (not_or.mp hn).2 k
    · intro h
      obtain ⟨k, hk⟩ := h.resolve_left nofun
      exact returns_of_not_retried hinit hk

/-- The buffer is never too small, and never filled for want of memory. -/
theorem persistent_failure_hangs : ¬ ∀ (auxKlibInitialize : NtStatus) (rounds : ℕ → Round .win32),
    (∃ n, ∀ k ≥ n, (rounds k).fillStatus ≠ statusBufferTooSmall) → Returns auxKlibInitialize rounds := by
  intro h
  have hreturns := h statusSuccess (fun _ => ⟨statusSuccess, true, statusInsufficientResources, kernel⟩)
    ⟨0, fun _ _ => by decide⟩
  exact not_returns ntSuccess_statusSuccess (fun _ => by decide) hreturns

end Dmsk.NtImageBase
