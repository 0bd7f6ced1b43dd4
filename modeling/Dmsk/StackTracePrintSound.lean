import Dmsk.StackTracePrint
import Mathlib.Data.List.GetD

/-!
# What the printed stack trace reads as

The loop prints all frames of the run but the last. Records of 14 characters lie
side by side; the longer ones of a 64-bit pointer overwrite each other. What
follows the last character that is written is left from the pool.
-/

namespace Dmsk.StackTrace

/-! ## Writing and reading text -/

section
variable (memory : WideMemory) (offset : ℕ)

theorem writeText_nil : writeText memory offset [] = memory := by
  funext i
  unfold writeText
  rw [if_neg]
  rw [List.length_nil]
  omega

theorem writeText_before {i : ℕ} (h : i < offset) (text : List WChar) : writeText memory offset text i = memory i :=
  if_neg (by omega)

theorem writeText_at {i : ℕ} {text : List WChar} (h : i < text.length) : writeText memory offset text (offset + i) = text.getD i 0 := by
  unfold writeText
  rw [if_pos (by omega), Nat.add_sub_cancel_left]

theorem writeText_after {i : ℕ} {text : List WChar} (h : text.length ≤ i) :
    writeText memory offset text (offset + i) = memory (offset + i) :=
  if_neg (by omega)

theorem writeText_append (xs ys : List WChar) :
    writeText (writeText memory offset xs) (offset + xs.length) ys = writeText memory offset (xs ++ ys) := by
  funext i
  rcases Nat.lt_or_ge i offset with hi | hi
  · rw [writeText_before _ _ (by omega), writeText_before _ _ hi, writeText_before _ _ hi]
  · obtain ⟨k, rfl⟩ := Nat.exists_eq_add_of_le hi
    rcases Nat.lt_or_ge k xs.length with hk | hk
    · rw [writeText_before _ _ (by omega), writeText_at _ _ hk, writeText_at _ _ (by rw [List.length_append]; omega),
        List.getD_append _ _ _ _ hk]
    · obtain ⟨j, rfl⟩ := Nat.exists_eq_add_of_le hk
      rw [← Nat.add_assoc]
      rcases Nat.lt_or_ge j ys.length with hj | hj
      · rw [writeText_at _ _ hj, Nat.add_assoc, writeText_at _ _ (by rw [List.length_append]; omega),
          List.getD_append_right _ _ _ _ (by omega), Nat.add_sub_cancel_left]
      · rw [writeText_after _ _ hj, Nat.add_assoc, writeText_after _ _ hk,
          writeText_after _ _ (by rw [List.length_append]; omega)]

end

theorem map_range_writeText (memory : WideMemory) (xs : List WChar) : (List.range xs.length).map (writeText memory 0 xs) = xs := by
  apply List.ext_getElem (by simp)
  intro i hi hi'
  rw [List.getElem_map, List.getElem_range]
  have h := writeText_at memory 0 hi'
  rw [Nat.zero_add] at h
  rw [h, List.getD_eq_getElem _ _ hi']

/-- Behind a text that was written, what was in memory is read. -/
theorem readsAs_writeText (memory : WideMemory) {xs : List WChar} (hxs : 0 ∉ xs) (ys : List WChar) :
    ReadsAs (writeText memory 0 xs) (xs ++ ys) ↔ ReadsAs (fun i => memory (xs.length + i)) ys := by
  have hread : (List.range ((xs ++ ys).length + 1)).map (writeText memory 0 xs) =
      xs ++ (List.range (ys.length + 1)).map fun i => memory (xs.length + i) := by
    rw [List.length_append, Nat.add_assoc, List.range_add, List.map_append, map_range_writeText, List.map_map]
    congr 1
    refine List.map_congr_left fun i _ => ?_
    have h := writeText_after memory 0 (show xs.length ≤ xs.length + i by omega)
    rwa [Nat.zero_add] at h
  unfold ReadsAs
  rw [hread, List.append_assoc, List.append_cancel_left_eq, List.mem_append, not_or]
  exact and_congr_right fun _ => and_iff_right hxs

theorem ReadsAs.at {memory : WideMemory} {text : List WChar} (h : ReadsAs memory text) {i : ℕ} (hi : i < text.length) :
    memory i = text.getD i 0 := by
  have hget := congrArg (fun l => l[i]?) h.1
  rw [List.getElem?_map, List.getElem?_range (by omega), List.getElem?_append_left hi] at hget
  rw [List.getD_eq_getElem?_getD, ← hget]
  rfl

/-! ## Records -/

theorem length_hexDigits (digits n : ℕ) : (hexDigits digits n).length = digits := by
  induction digits generalizing n with
  | zero => rfl
  | succ digits ih => rw [hexDigits, List.length_append, ih, List.length_singleton]

theorem mem_hexDigits {digits n : ℕ} {c : WChar} (h : c ∈ hexDigits digits n) : ∃ d < 16, c = hexDigit d := by
  induction digits generalizing n with
  | zero => cases h
  | succ digits ih =>
    rcases List.mem_append.mp h with h | h
    · exact ih h
    · exact ⟨n % 16, Nat.mod_lt n (by decide), List.mem_singleton.mp h⟩

theorem hexDigit_ne : ∀ d < 16, hexDigit d ≠ 0 ∧ hexDigit d ≠ 0x6e := by decide

section
variable {t : Target}

def recordLength (t : Target) : ℕ := 6 + 2 * t.sizeofPointer

theorem length_record (a : BitVec t.sizeTBits) : (record t a).length = recordLength t := by
  unfold record
  rw [List.length_append, List.length_append, length_hexDigits, show (wide "nt!0x").length = 5 by decide,
    show (wide ";").length = 1 by decide, recordLength]
  omega

theorem zero_notMem_record (a : BitVec t.sizeTBits) : 0 ∉ record t a := by
  unfold record
  rw [List.mem_append, List.mem_append, not_or, not_or]
  refine ⟨⟨by decide, ?_⟩, by decide⟩
  intro h
  obtain ⟨d, hd, hc⟩ := mem_hexDigits h
  exact (hexDigit_ne d hd).1 hc.symm

theorem length_records (run : List (BitVec t.sizeTBits)) : (run.flatMap (record t)).length = recordLength t * run.length := by
  induction run with
  | nil => rfl
  | cons a run ih => rw [List.flatMap_cons, List.length_append, length_record, ih, List.length_cons, Nat.mul_succ, Nat.add_comm]

theorem zero_notMem_records (run : List (BitVec t.sizeTBits)) : 0 ∉ run.flatMap (record t) := by
  rw [List.mem_flatMap]
  rintro ⟨a, -, h⟩
  exact zero_notMem_record a h

end

/-! ## The loop -/

/-- Texts written 14 characters apart. -/
def overlay (memory : WideMemory) (offset : ℕ) : List (List WChar) → WideMemory
  | [] => memory
  | text :: texts => overlay (writeText memory offset text) (offset + 14) texts

theorem overlay_before (memory : WideMemory) {offset i : ℕ} (h : i < offset) (texts : List (List WChar)) :
    overlay memory offset texts i = memory i := by
  induction texts generalizing memory offset with
  | nil => rfl
  | cons text texts ih => rw [overlay, ih _ (by omega), writeText_before _ _ h]

/-- Texts of 14 characters lie side by side, and so does a single text. -/
theorem overlay_eq (memory : WideMemory) (offset : ℕ) {texts : List (List WChar)}
    (h : (∀ text ∈ texts, text.length = 14) ∨ texts.length ≤ 1) :
    overlay memory offset texts = writeText memory offset texts.flatten := by
  induction texts generalizing memory offset with
  | nil => exact (writeText_nil memory offset).symm
  | cons text texts ih =>
    rw [overlay, List.flatten_cons]
    rcases h with h | h
    · have htext := h text List.mem_cons_self
      rw [ih _ _ (.inl fun text' h' => h text' (List.mem_cons_of_mem text h')), ← htext, writeText_append]
    · have hnil : texts = [] := by
        rw [List.length_cons] at h
        exact List.length_eq_zero_iff.mp (by omega)
      rw [hnil, overlay, List.flatten_nil, List.append_nil]

section
variable {t : Target}

theorem printf_record {tmp : UnicodeString} (hlength : tmp.length ≤ tmp.maximumLength) (hroom : 44 ≤ tmp.maximumLength.toNat)
    (memory : WideMemory) (a : BitVec t.sizeTBits) :
    rtlUnicodeStringPrintf memory tmp (record t a) =
      (writeText memory tmp.buffer (record t a), { tmp with length := BitVec.ofNat 16 (2 * recordLength t) }) := by
  have hrecord := length_record a
  have hlong : recordLength t ≤ 22 := by cases t <;> decide
  unfold rtlUnicodeStringPrintf
  rw [if_neg (by rw [BitVec.not_lt]; exact hlength), List.take_of_length_le (by omega)]
  dsimp only
  rw [hrecord]

/-- The lengths after a pass, with room for one more record. -/
theorem advance_lengths {maximumLength : BitVec 16} {passes : ℕ} (hroom : 28 * (passes + 1) + 16 ≤ maximumLength.toNat) :
    BitVec.ofNat 16 (2 * recordLength t) - 28 ≤ maximumLength - 28 ∧ (maximumLength - 28).toNat = maximumLength.toNat - 28 := by
  have hmax : (maximumLength - 28).toNat = maximumLength.toNat - 28 :=
    BitVec.toNat_sub_of_le (BitVec.le_def.mpr (show 28 ≤ maximumLength.toNat by omega))
  have hless : (BitVec.ofNat 16 (2 * recordLength t) - 28 : BitVec 16).toNat ≤ 16 := by cases t <;> decide
  refine ⟨?_, hmax⟩
  rw [BitVec.le_def, hmax]
  omega

theorem printFrom_eq {backtrace : Vector (BitVec t.sizeTBits) 50} {run : List (BitVec t.sizeTBits)} {i : ℕ}
    (hrun : ∀ k < run.length, backtrace[i + k]? = run[k]?) (memory : WideMemory) {tmp : UnicodeString}
    (hlength : tmp.length ≤ tmp.maximumLength) (hroom : 28 * run.length + 16 ≤ tmp.maximumLength.toNat) :
    printFrom t backtrace run.length i memory tmp = overlay memory tmp.buffer (run.map (record t)) := by
  induction run generalizing i memory tmp with
  | nil => rfl
  | cons a run ih =>
    have hprintf := printf_record hlength (by rw [List.length_cons] at hroom; omega) memory a
    obtain ⟨hlength', hmax⟩ := advance_lengths (t := t) hroom
    have hroom' : 28 * run.length + 16 ≤ (tmp.maximumLength - 28).toNat := by
      rw [List.length_cons] at hroom
      omega
    have hfirst : backtrace[i]?.getD 0 = a := by
      have h := hrun 0 (Nat.succ_pos _)
      rw [Nat.add_zero] at h
      rw [h]
      rfl
    have hrest : ∀ k < run.length, backtrace[i + 1 + k]? = run[k]? := by
      intro k hk
      have h := hrun (k + 1) (Nat.succ_lt_succ hk)
      rwa [List.getElem?_cons_succ, Nat.add_comm k 1, ← Nat.add_assoc] at h
    rw [List.length_cons, printFrom, hfirst, hprintf, List.map_cons, overlay]
    exact ih hrest _ hlength' hroom'

theorem print_eq (m : NtModule t.sizeTBits) (frames : Frames t.sizeTBits) (pool : WideMemory) :
    printNtStackTrace (new m frames) (some pool) = some (overlay pool 0 ((firstRun m frames).dropLast.map (record t))) := by
  have hd := new_delimits m frames
  have hle := above_add_length_le m frames
  have h50 := frames.property
  have hpasses : ((new m frames).ntEndIdx - (new m frames).ntStartIdx).toNat = (firstRun m frames).dropLast.length := by
    rw [hd.length, Int.toNat_natCast, List.length_dropLast]
  have hframes : ∀ k < (firstRun m frames).dropLast.length,
      (new m frames).backtrace[(new m frames).ntStartIdx.toNat + k]? = (firstRun m frames).dropLast[k]? := by
    intro k hk
    rw [List.length_dropLast] at hk
    rw [List.getElem?_dropLast, if_pos hk]
    exact hd.frames k (by omega)
  have hroom : 28 * (firstRun m frames).dropLast.length + 16 ≤ (1500 : BitVec 16).toNat := by
    rw [List.length_dropLast]
    show _ ≤ 1500
    omega
  have hzero : rtlZeroMemory pool 0 = pool := writeText_nil pool 0
  have hlength : (⟨1500, 1500, 0⟩ : UnicodeString).length ≤ (⟨1500, 1500, 0⟩ : UnicodeString).maximumLength := BitVec.le_refl _
  unfold printNtStackTrace
  rw [Option.map_some, hzero, hpasses, printFrom_eq hframes pool hlength hroom]

/-- Two records of a 64-bit pointer overwrite each other. -/
theorem overlapping_record (pool : WideMemory) (a b : BitVec Target.x64.sizeTBits) (run text : List (BitVec Target.x64.sizeTBits)) :
    ¬ ReadsAs (overlay pool 0 ((a :: b :: run).map (record .x64))) ((a :: text).flatMap (record .x64)) := by
  intro h
  have hlength : (record .x64 a).length = 22 := length_record a
  have hlt : 14 < ((a :: text).flatMap (record .x64)).length := by
    rw [List.flatMap_cons, List.length_append]
    omega
  have hat := h.at hlt
  have hwritten : overlay pool 0 ((a :: b :: run).map (record .x64)) 14 = 0x6e := by
    rw [List.map_cons, List.map_cons, overlay, overlay, overlay_before _ (by decide)]
    have hb := writeText_at (writeText pool 0 (record .x64 a)) 14 (show 0 < (record .x64 b).length by rw [length_record]; decide)
    rw [hb]
    rfl
  have hexpected : ((a :: text).flatMap (record .x64)).getD 14 0 = (hexDigits 16 a.toNat).getD 9 0 := by
    rw [List.flatMap_cons, List.getD_append _ _ _ _ (by omega)]
    have hlong : (wide "nt!0x" ++ hexDigits 16 a.toNat).length = 21 := by
      rw [List.length_append, length_hexDigits]
      rfl
    show (wide "nt!0x" ++ hexDigits 16 a.toNat ++ wide ";").getD 14 0 = _
    rw [List.getD_append _ _ _ _ (by omega), List.getD_append_right _ _ _ _ (by decide)]
    rfl
  have hmem : (hexDigits 16 a.toNat).getD 9 0 ∈ hexDigits 16 a.toNat := by
    rw [List.getD_eq_getElem _ _ (by rw [length_hexDigits]; decide)]
    exact List.getElem_mem _
  obtain ⟨d, hd, hc⟩ := mem_hexDigits hmem
  rw [hwritten, hexpected, hc] at hat
  exact (hexDigit_ne d hd).2 hat.symm

/-- **The printed trace** reads as the records of the whole run if and only if
what the pool returned holds the record of the last frame, in its place and
ended by a null character, and no two records longer than 14 characters were
written. -/
theorem print_faithful_iff (m : NtModule t.sizeTBits) (frames : Frames t.sizeTBits) (pool : WideMemory) :
    (∃ memory, printNtStackTrace (new m frames) (some pool) = some memory ∧
        ReadsAs memory ((firstRun m frames).flatMap (record t))) ↔
      (t = .win32 ∨ (firstRun m frames).length ≤ 2) ∧
        ReadsAs (fun i => pool (recordLength t * ((firstRun m frames).length - 1) + i))
          (((firstRun m frames).drop ((firstRun m frames).length - 1)).flatMap (record t)) := by
  rw [print_eq]
  generalize firstRun m frames = run
  have hexists : (∃ memory, some (overlay pool 0 (run.dropLast.map (record t))) = some memory ∧
      ReadsAs memory (run.flatMap (record t))) ↔
      ReadsAs (overlay pool 0 (run.dropLast.map (record t))) (run.flatMap (record t)) := by
    simp
  rw [hexists]
  by_cases hshort : t = .win32 ∨ run.length ≤ 2
  · have hfits : (∀ text ∈ run.dropLast.map (record t), text.length = 14) ∨ (run.dropLast.map (record t)).length ≤ 1 := by
      rcases hshort with rfl | hshort
      · refine .inl fun text htext => ?_
        obtain ⟨a, -, rfl⟩ := List.mem_map.mp htext
        exact length_record a
      · refine .inr ?_
        rw [List.length_map, List.length_dropLast]
        omega
    have hsplit : run.flatMap (record t) = run.dropLast.flatMap (record t) ++ (run.drop (run.length - 1)).flatMap (record t) := by
      rw [← List.flatMap_append, List.dropLast_eq_take, List.take_append_drop]
    rw [overlay_eq pool 0 hfits, ← List.flatMap_def, hsplit, readsAs_writeText pool (zero_notMem_records _), length_records,
      List.length_dropLast]
    exact (and_iff_right hshort).symm
  · refine iff_of_false ?_ fun h => hshort h.1
    rw [not_or, Nat.not_le] at hshort
    have ht : t = .x64 := by
      cases t with
      | win32 => exact absurd rfl hshort.1
      | x64 => rfl
    subst ht
    match run, hshort.2 with
    | a :: b :: c :: run, _ =>
      rw [List.dropLast_cons_of_ne_nil (by simp), List.dropLast_cons_of_ne_nil (by simp)]
      exact overlapping_record pool a b _ (b :: c :: run)

/-- One frame, and a buffer that happens to be zeroed: nothing is printed. -/
theorem print_misses_last :
    ¬ ∃ memory, printNtStackTrace (t := .win32) (new ⟨0x1000, 0x1000⟩ ⟨[0x1010], by decide⟩) (some fun _ => 0) = some memory ∧
      ReadsAs memory ((firstRun (⟨0x1000, 0x1000⟩ : NtModule Target.win32.sizeTBits) ⟨[0x1010], by decide⟩).flatMap (record .win32)) := by
  rintro ⟨memory, hprint, hreads⟩
  rw [print_eq] at hprint
  cases hprint
  exact absurd hreads (by decide)

end

end Dmsk.StackTrace
