import Dmsk.Orbits
import Dmsk.ProcessList
import Mathlib.Algebra.GroupWithZero.Nat

/-!
# When the walk is complete, and when it is safe

The guard is strict, so an entry that ends where the reply ends is left out. The
step is taken from the reply, so the walk may go back, and on Win32 an index so
high that the guard's sum wraps around passes the guard.
-/

namespace Dmsk.ProcessList

variable {t : Target} {memory : Memory} {requiredSize : BitVec 32}

/-! ## Passes -/

theorem walk_last {idx : BitVec 32} (hp : pass t memory requiredSize idx = none) (fuel : ℕ) :
    walk t memory requiredSize (fuel + 1) idx = some (if guard t requiredSize idx then [idx] else []) := by
  unfold walk
  rw [hp]
  split <;> rfl

theorem pass_unread {idx : BitVec 32} (h : guard t requiredSize idx = false) : pass t memory requiredSize idx = none := by
  unfold pass
  rw [h]
  rfl

theorem pass_eq_some_iff {idx idx' : BitVec 32} : pass t memory requiredSize idx = some idx' ↔
    guard t requiredSize idx = true ∧ nextEntryOffset memory idx ≠ 0 ∧ idx + nextEntryOffset memory idx = idx' := by
  unfold pass
  simp only [Option.ite_none_right_eq_some, Bool.and_eq_true, decide_eq_true_eq, Option.some.injEq, and_assoc]

theorem walk_next {idx idx' : BitVec 32} (hp : pass t memory requiredSize idx = some idx') (fuel : ℕ) :
    walk t memory requiredSize (fuel + 1) idx = (walk t memory requiredSize fuel idx').map (idx :: ·) := by
  conv_lhs => unfold walk
  rw [if_pos (pass_eq_some_iff.mp hp).1, hp]

theorem walk_ends_iff (idx : BitVec 32) : (∃ fuel read, walk t memory requiredSize fuel idx = some read) ↔
    ∃ k, orbit (pass t memory requiredSize) idx k = none := by
  constructor
  · rintro ⟨fuel, read, h⟩
    induction fuel generalizing idx read with
    | zero => cases h
    | succ fuel ih =>
      cases hp : pass t memory requiredSize idx with
      | none => exact ⟨1, by rw [orbit_succ, hp]; rfl⟩
      | some idx' =>
        rw [walk_next hp] at h
        obtain ⟨read', h', -⟩ := Option.map_eq_some_iff.mp h
        obtain ⟨k, hk⟩ := ih idx' read' h'
        exact ⟨k + 1, by rw [orbit_succ, hp]; exact hk⟩
  · rintro ⟨k, h⟩
    induction k generalizing idx with
    | zero => cases h
    | succ k ih =>
      cases hp : pass t memory requiredSize idx with
      | none => exact ⟨1, _, walk_last hp 0⟩
      | some idx' =>
        rw [orbit_succ, hp] at h
        obtain ⟨fuel, read, h'⟩ := ih idx' h
        exact ⟨fuel + 1, _, by rw [walk_next hp, h']; rfl⟩

/-- The entries read are those that the walk comes to and the guard lets pass. -/
theorem mem_walk_iff {fuel : ℕ} {idx : BitVec 32} {read : List (BitVec 32)}
    (h : walk t memory requiredSize fuel idx = some read) (i : BitVec 32) :
    i ∈ read ↔ guard t requiredSize i = true ∧ ∃ k, orbit (pass t memory requiredSize) idx k = some i := by
  induction fuel generalizing idx read with
  | zero => cases h
  | succ fuel ih =>
    cases hp : pass t memory requiredSize idx with
    | some idx' =>
      rw [walk_next hp] at h
      obtain ⟨read', h', rfl⟩ := Option.map_eq_some_iff.mp h
      have hg : i = idx → guard t requiredSize i = true := by
        rintro rfl
        exact (pass_eq_some_iff.mp hp).1
      rw [List.mem_cons, ih h', exists_orbit_of_some hp, and_or_left, and_iff_right_of_imp hg]
    | none =>
      rw [walk_last hp] at h
      obtain rfl := Option.some.inj h
      rw [exists_orbit_of_none hp]
      split
      · rename_i hg
        rw [List.mem_singleton, and_iff_right_of_imp]
        rintro rfl
        exact hg
      · rename_i hg
        refine iff_of_false List.not_mem_nil ?_
        rintro ⟨hi, rfl⟩
        exact hg hi

/-! ## Complete walks -/

theorem toNat_lt_sizeT (t : Target) (requiredSize : BitVec 32) : requiredSize.toNat < 2 ^ t.sizeTBits := by
  have hlt := requiredSize.isLt
  cases t
  · exact hlt
  · exact hlt.trans (by decide)

theorem guard_iff (t : Target) (requiredSize : BitVec 32) {idx : BitVec 32}
    (h : idx.toNat + t.sizeofSystemProcessInformation < 2 ^ t.sizeTBits) :
    guard t requiredSize idx = true ↔ idx.toNat + t.sizeofSystemProcessInformation < requiredSize.toNat := by
  unfold guard
  rw [Nat.mod_eq_of_lt h, decide_eq_true_eq]

/-- Entries of these sizes from `offset` on, one linked to the next. -/
def Chain (t : Target) (memory : Memory) : ℕ → List ℕ → Prop
  | _, [] => False
  | offset, [size] => t.sizeofSystemProcessInformation ≤ size ∧ readULong memory offset = 0
  | offset, size :: size' :: sizes =>
    t.sizeofSystemProcessInformation ≤ size ∧ (readULong memory offset).toNat = size ∧
      Chain t memory (offset + size) (size' :: sizes)

def starts : ℕ → List ℕ → List ℕ
  | _, [] => []
  | offset, size :: sizes => offset :: starts (offset + size) sizes

theorem starts_cons (offset size : ℕ) (sizes : List ℕ) :
    starts offset (size :: sizes) = offset :: starts (offset + size) sizes := rfl

theorem starts_ne_nil (offset : ℕ) {sizes : List ℕ} (h : sizes ≠ []) : starts offset sizes ≠ [] := by
  cases sizes with
  | nil => exact absurd rfl h
  | cons size sizes => exact List.cons_ne_nil _ _

theorem sizeof_pos (t : Target) : 0 < t.sizeofSystemProcessInformation := by cases t <;> decide

theorem chain_sizeof {offset size : ℕ} {sizes : List ℕ} (hc : Chain t memory offset (size :: sizes)) :
    t.sizeofSystemProcessInformation ≤ size := by
  cases sizes with
  | nil => exact hc.1
  | cons size' sizes => exact hc.1

/-- The guard lets the last entry pass unless it ends where the reply ends. -/
theorem walk_chain_last {size : ℕ} {idx : BitVec 32} (hc : Chain t memory idx.toNat [size])
    (hfit : idx.toNat + size ≤ requiredSize.toNat) (fuel : ℕ) : walk t memory requiredSize (fuel + 1) idx =
      some (if idx.toNat + t.sizeofSystemProcessInformation = requiredSize.toNat then [] else [idx]) := by
  obtain ⟨hle, hzero⟩ := hc
  have hsize := toNat_lt_sizeT t requiredSize
  have hguard := guard_iff t requiredSize (show idx.toNat + t.sizeofSystemProcessInformation < 2 ^ t.sizeTBits by omega)
  have hp : pass t memory requiredSize idx = none := by
    unfold pass nextEntryOffset
    rw [hzero]
    simp
  rw [walk_last hp]
  by_cases hexact : idx.toNat + t.sizeofSystemProcessInformation = requiredSize.toNat
  · rw [if_pos hexact, if_neg]
    rw [hguard]
    omega
  · rw [if_neg hexact, if_pos]
    rw [hguard]
    omega

theorem pass_chain {size size' : ℕ} {sizes : List ℕ} {idx : BitVec 32} (hc : Chain t memory idx.toNat (size :: size' :: sizes))
    (hfit : idx.toNat + (size :: size' :: sizes).sum ≤ requiredSize.toNat) :
    ∃ idx', pass t memory requiredSize idx = some idx' ∧ idx'.toNat = idx.toNat + size := by
  have hle' := chain_sizeof hc.2.2
  obtain ⟨hle, hnext, -⟩ := hc
  have hpos := sizeof_pos t
  have hlt := requiredSize.isLt
  have hsize := toNat_lt_sizeT t requiredSize
  rw [List.sum_cons, List.sum_cons] at hfit
  have hguard := guard_iff t requiredSize (show idx.toNat + t.sizeofSystemProcessInformation < 2 ^ t.sizeTBits by omega)
  refine ⟨idx + nextEntryOffset memory idx, pass_eq_some_iff.mpr ⟨hguard.mpr (by omega), ?_, rfl⟩, ?_⟩
  · intro hzero
    rw [nextEntryOffset] at hzero
    rw [hzero] at hnext
    simp at hnext
    omega
  · rw [BitVec.toNat_add, nextEntryOffset, hnext, Nat.mod_eq_of_lt (by omega)]

/-- The walk over a chain reads all entries, or all but the last one when that
ends where the reply ends. -/
theorem walk_chain {sizes : List ℕ} {idx : BitVec 32} (hc : Chain t memory idx.toNat sizes)
    (hfit : idx.toNat + sizes.sum ≤ requiredSize.toNat) :
    ∃ fuel read, walk t memory requiredSize fuel idx = some read ∧ read.map BitVec.toNat =
      if idx.toNat + sizes.dropLast.sum + t.sizeofSystemProcessInformation = requiredSize.toNat
      then (starts idx.toNat sizes).dropLast else starts idx.toNat sizes := by
  induction sizes generalizing idx with
  | nil => exact hc.elim
  | cons size sizes ih =>
    cases sizes with
    | nil =>
      rw [List.sum_singleton] at hfit
      refine ⟨1, _, walk_chain_last hc hfit 0, ?_⟩
      rw [List.dropLast_singleton, List.sum_nil, Nat.add_zero]
      split <;> rfl
    | cons size' sizes =>
      obtain ⟨idx', hp, hidx⟩ := pass_chain hc hfit
      rw [List.sum_cons] at hfit
      have hc' := hc.2.2
      rw [← hidx] at hc'
      obtain ⟨fuel, read, hwalk, hread⟩ := ih hc' (by rw [hidx]; omega)
      refine ⟨fuel + 1, idx :: read, by rw [walk_next hp, hwalk]; rfl, ?_⟩
      rw [hidx] at hread
      have hsplit : (size :: size' :: sizes).dropLast.sum = size + (size' :: sizes).dropLast.sum := by
        rw [List.dropLast_cons_of_ne_nil (List.cons_ne_nil _ _), List.sum_cons]
      rw [List.map_cons, hread, hsplit, ← Nat.add_assoc, starts_cons idx.toNat size,
        List.dropLast_cons_of_ne_nil (starts_ne_nil _ (List.cons_ne_nil _ _))]
      split <;> rfl

theorem walk_unique {fuel fuel' : ℕ} {idx : BitVec 32} {read read' : List (BitVec 32)}
    (h : walk t memory requiredSize fuel idx = some read) (h' : walk t memory requiredSize fuel' idx = some read') :
    read = read' := by
  induction fuel generalizing fuel' idx read read' with
  | zero => cases h
  | succ fuel ih =>
    cases fuel' with
    | zero => cases h'
    | succ fuel' =>
      cases hp : pass t memory requiredSize idx with
      | some idx' =>
        rw [walk_next hp] at h h'
        obtain ⟨rest, hrest, rfl⟩ := Option.map_eq_some_iff.mp h
        obtain ⟨rest', hrest', rfl⟩ := Option.map_eq_some_iff.mp h'
        rw [ih hrest hrest']
      | none =>
        rw [walk_last hp] at h h'
        exact Option.some.inj (h.symm.trans h')

/-- **Completeness.** The pids of a chain of entries that fills the reply, or
less, are all dumped in order if and only if the last entry, of no more than its
fixed size, does not end where the reply ends. -/
theorem dump_complete_iff {sizes : List ℕ} (hc : Chain t memory 0 sizes) (hfit : sizes.sum ≤ requiredSize.toNat) :
    (∃ fuel, dumpActiveProcesses t memory requiredSize fuel = some ((starts 0 sizes).map (pid t memory))) ↔
      sizes.dropLast.sum + t.sizeofSystemProcessInformation ≠ requiredSize.toNat := by
  have hzero : (0 : BitVec 32).toNat = 0 := rfl
  have hc' : Chain t memory (0 : BitVec 32).toNat sizes := hc
  have hfit' : (0 : BitVec 32).toNat + sizes.sum ≤ requiredSize.toNat := by rwa [hzero, Nat.zero_add]
  obtain ⟨fuel, read, hwalk, hread⟩ := walk_chain hc' hfit'
  rw [hzero, Nat.zero_add] at hread
  have hdump : ∀ r : List (BitVec 32), r.map (fun idx => pid t memory idx.toNat) = (r.map BitVec.toNat).map (pid t memory) :=
    fun r => by rw [List.map_map]; rfl
  constructor
  · rintro ⟨fuel', h⟩ hexact
    obtain ⟨read', hwalk', hmap⟩ := Option.map_eq_some_iff.mp h
    have hne : sizes ≠ [] := by
      rintro rfl
      exact hc
    have hpos := List.length_pos_iff.mpr (starts_ne_nil 0 hne)
    rw [hdump, walk_unique hwalk' hwalk, hread, if_pos hexact] at hmap
    have := congrArg List.length hmap
    rw [List.length_map, List.length_map, List.length_dropLast] at this
    omega
  · intro hexact
    refine ⟨fuel, ?_⟩
    rw [if_neg hexact] at hread
    rw [dumpActiveProcesses, hwalk, Option.map_some, hdump, hread]

/-- Entries of 280, 272 and 300 bytes. -/
def threeProcesses : Memory
  | 0 => 0x18
  | 1 => 0x01
  | 80 => 4
  | 280 => 0x10
  | 281 => 0x01
  | 360 => 88
  | 632 => 0x04
  | 633 => 0x01
  | _ => 0

theorem dump_complete_three : (starts 0 [280, 272, 300]).map (pid .x64 threeProcesses) = [4, 88, 260] ∧
    ((∃ fuel, dumpActiveProcesses .x64 threeProcesses 852 fuel =
        some ((starts 0 [280, 272, 300]).map (pid .x64 threeProcesses))) ↔
      [280, 272, 300].dropLast.sum + Target.x64.sizeofSystemProcessInformation ≠ (852 : BitVec 32).toNat) := by
  refine ⟨by decide, dump_complete_iff ?_ (by decide)⟩
  exact ⟨by decide, by decide, by decide, by decide, by decide, by decide⟩

theorem dump_misses_last : Chain .x64 (fun _ => 0) 0 [256] ∧ [256].sum ≤ (256 : BitVec 32).toNat ∧
    ¬ ∃ fuel, dumpActiveProcesses .x64 (fun _ => 0) 256 fuel = some ((starts 0 [256]).map (pid .x64 fun _ => 0)) := by
  refine ⟨⟨by decide, by decide⟩, by decide, ?_⟩
  rintro ⟨fuel, h⟩
  obtain ⟨read, hwalk, hmap⟩ := Option.map_eq_some_iff.mp h
  rw [walk_unique hwalk (walk_last (pass_unread (by decide)) 0)] at hmap
  cases hmap

/-! ## Safe walks -/

/-- Where the entries lie when the offsets are followed modulo `2 ^ 32`. -/
def index (memory : Memory) : ℕ → BitVec 32
  | 0 => 0
  | k + 1 => index memory k + nextEntryOffset memory (index memory k)

/-- No entry before the `k`th ends the walk. -/
def Reached (t : Target) (memory : Memory) (requiredSize : BitVec 32) (k : ℕ) : Prop :=
  ∀ i < k, guard t requiredSize (index memory i) = true ∧ nextEntryOffset memory (index memory i) ≠ 0

theorem orbit_pass_iff {k : ℕ} {idx : BitVec 32} : orbit (pass t memory requiredSize) 0 k = some idx ↔
    Reached t memory requiredSize k ∧ index memory k = idx := by
  induction k generalizing idx with
  | zero =>
    constructor
    · intro h
      exact ⟨fun i hi => absurd hi (Nat.not_lt_zero i), Option.some.inj h⟩
    · rintro ⟨-, rfl⟩
      rfl
  | succ k ih =>
    have hsucc : Reached t memory requiredSize (k + 1) ↔ Reached t memory requiredSize k ∧
        guard t requiredSize (index memory k) = true ∧ nextEntryOffset memory (index memory k) ≠ 0 :=
      Nat.forall_lt_succ_right
    rw [orbit, Option.bind_eq_some_iff, hsucc]
    constructor
    · rintro ⟨i, hi, hp⟩
      obtain ⟨hreached, rfl⟩ := ih.mp hi
      obtain ⟨hg, hne, rfl⟩ := pass_eq_some_iff.mp hp
      exact ⟨⟨hreached, hg, hne⟩, rfl⟩
    · rintro ⟨⟨hreached, hg, hne⟩, rfl⟩
      exact ⟨index memory k, ih.mpr ⟨hreached, rfl⟩, pass_eq_some_iff.mpr ⟨hg, hne, rfl⟩⟩

/-- **Safety.** The walk ends and reads inside the reply if and only if the
chain of offsets does not come back to where it has been, and it does not get to
an entry that the guard lets pass because its sum wraps around. -/
theorem walk_safe_iff (t : Target) (memory : Memory) (requiredSize : BitVec 32) :
    (∃ fuel read, walk t memory requiredSize fuel 0 = some read ∧
        ∀ idx ∈ read, idx.toNat + t.sizeofSystemProcessInformation ≤ requiredSize.toNat) ↔
      (∀ j k, j < k → Reached t memory requiredSize k → index memory j ≠ index memory k) ∧
        ∀ k, Reached t memory requiredSize k → guard t requiredSize (index memory k) = true →
          (index memory k).toNat + t.sizeofSystemProcessInformation < 2 ^ t.sizeTBits := by
  have hends : (∃ fuel read, walk t memory requiredSize fuel 0 = some read) ↔
      ∀ j k, j < k → Reached t memory requiredSize k → index memory j ≠ index memory k := by
    have hfinite : Finite (BitVec 32) := Finite.of_injective BitVec.toFin fun _ _ h => BitVec.toFin_inj.mp h
    rw [walk_ends_iff, ends_iff_no_return]
    constructor
    · intro h j k hjk hk heq
      have hj : Reached t memory requiredSize j := fun i hi => hk i (hi.trans hjk)
      exact h j k _ hjk (orbit_pass_iff.mpr ⟨hj, rfl⟩) (orbit_pass_iff.mpr ⟨hk, heq.symm⟩)
    · intro h j k idx hjk hj hk
      obtain ⟨-, rfl⟩ := orbit_pass_iff.mp hj
      obtain ⟨hk, heq⟩ := orbit_pass_iff.mp hk
      exact h j k hjk hk heq.symm
  have hsize := toNat_lt_sizeT t requiredSize
  rw [← hends]
  constructor
  · rintro ⟨fuel, read, hwalk, hinside⟩
    refine ⟨⟨fuel, read, hwalk⟩, ?_⟩
    intro k hk hg
    have := hinside (index memory k) ((mem_walk_iff hwalk _).mpr ⟨hg, k, orbit_pass_iff.mpr ⟨hk, rfl⟩⟩)
    omega
  · rintro ⟨⟨fuel, read, hwalk⟩, hwrap⟩
    refine ⟨fuel, read, hwalk, ?_⟩
    intro idx hidx
    obtain ⟨hg, k, horbit⟩ := (mem_walk_iff hwalk idx).mp hidx
    obtain ⟨hk, rfl⟩ := orbit_pass_iff.mp horbit
    exact ((guard_iff t requiredSize (hwrap k hk hg)).mp hg).le

theorem guard_sum_x64 (idx : BitVec 32) : idx.toNat + Target.x64.sizeofSystemProcessInformation < 2 ^ Target.x64.sizeTBits := by
  have hlt := idx.isLt
  have hsum : 2 ^ 32 + Target.x64.sizeofSystemProcessInformation < 2 ^ Target.x64.sizeTBits := by decide
  omega

def backAndForth : Memory := fun offset =>
  if offset = 1 then 1 else if offset = 257 ∨ offset = 258 ∨ offset = 259 then 0xff else 0

/-- An entry linked to the end of the address space. -/
def farAway : Memory := fun offset =>
  if offset = 0 then 0x9c else if offset = 1 ∨ offset = 2 ∨ offset = 3 then 0xff else 0

/-- A walk on x64 that never ends, and a read far outside the reply on Win32. -/
theorem walk_unsafe :
    (¬ ∃ fuel read, walk .x64 backAndForth 1000 fuel 0 = some read ∧
        ∀ idx ∈ read, idx.toNat + Target.x64.sizeofSystemProcessInformation ≤ (1000 : BitVec 32).toNat) ∧
      ¬ ∃ fuel read, walk .win32 farAway 1000 fuel 0 = some read ∧
        ∀ idx ∈ read, idx.toNat + Target.win32.sizeofSystemProcessInformation ≤ (1000 : BitVec 32).toNat := by
  constructor
  · rintro ⟨fuel, read, hwalk, -⟩
    obtain ⟨k, hk⟩ := (walk_ends_iff 0).mp ⟨fuel, read, hwalk⟩
    have hback : orbit (pass .x64 backAndForth 1000) 0 2 = some 0 := by decide
    exact not_ends_of_return (show 0 < 2 by decide) rfl hback k hk
  · rintro ⟨fuel, read, hwalk, hinside⟩
    have hread : walk .win32 farAway 1000 3 0 = some [0, 0xffffff9c] := by decide
    have := hinside 0xffffff9c (by rw [walk_unique hwalk hread]; decide)
    exact absurd this (by decide)

end Dmsk.ProcessList
