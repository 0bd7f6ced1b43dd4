import Dmsk.Console
import Mathlib.Data.List.DropRight

/-!
# When the console ends, and when it protects what was asked for

Once the stream is at its end or has failed, the loop executes its last command
for ever. A pid that cannot be read is sent to the driver all the same.
-/

namespace Dmsk.Console

open Protection (Irp readUInt32 thirdIoctlCode)

/-! ## Numbers read from the stream -/

/-- Blanks, a sign and digits that `operator>>` reads as `value`. -/
inductive Number : List Char → BitVec 32 → Prop
  | mk {blanks digits : List Char} (sgn : Option Char) : (∀ c ∈ blanks, isSpace c = true) → sgn ∈ [none, some '-', some '+'] →
      digits ≠ [] → (∀ c ∈ digits, c.isDigit = true) → decimal digits < 2 ^ 32 →
      Number (blanks ++ sgn.toList ++ digits)
        (if sgn = some '-' then -BitVec.ofNat 32 (decimal digits) else BitVec.ofNat 32 (decimal digits))

def NoDigit (text : List Char) : Prop := ∀ c ∈ text.head?, c.isDigit = false

theorem isSpace_of_isDigit {c : Char} (h : c.isDigit = true) : isSpace c = false := by
  simp only [Char.isDigit, Bool.and_eq_true, decide_eq_true_eq, UInt32.le_iff_toNat_le] at h
  have hc : c.val.toNat = c.toNat := rfl
  have h48 : 48 ≤ c.toNat := h.1
  unfold isSpace
  simp only [decide_eq_false_iff_not, not_or, not_and, not_le]
  constructor
  · intro he
    rw [he] at h48
    exact absurd h48 (by decide)
  · intro _
    omega

theorem readUInt32_uint32Bytes (value : BitVec 32) : readUInt32 (uint32Bytes value) = value := by
  unfold readUInt32 uint32Bytes
  simp only [List.getD_cons_succ, List.getD_cons_zero]
  ext i hi
  simp only [BitVec.getElem_append, BitVec.getElem_extractLsb']
  split <;> split <;> simp [← BitVec.getLsbD_eq_getElem] <;> congr 1 <;> omega

theorem takeWhile_digits {digits text : List Char} (hd : ∀ c ∈ digits, c.isDigit = true) (ht : NoDigit text) :
    (digits ++ text).takeWhile Char.isDigit = digits ∧ (digits ++ text).dropWhile Char.isDigit = text := by
  rw [List.takeWhile_append_of_pos hd, List.dropWhile_append_of_pos hd]
  cases text with
  | nil => simp
  | cons c text =>
    have hc : ¬ c.isDigit = true := by simpa using ht c (by simp)
    rw [List.takeWhile_cons_of_neg hc, List.dropWhile_cons_of_neg hc, List.append_nil]
    exact ⟨rfl, rfl⟩

theorem sign_digits {sgn : Option Char} (hs : sgn ∈ [none, some '-', some '+']) {digits : List Char} (hne : digits ≠ [])
    (hd : ∀ c ∈ digits, c.isDigit = true) (text : List Char) :
    sign (sgn.toList ++ digits ++ text) = (decide (sgn = some '-'), digits ++ text) := by
  cases digits with
  | nil => exact absurd rfl hne
  | cons d digits =>
    have hdigit := hd d List.mem_cons_self
    simp only [List.mem_cons, List.not_mem_nil, or_false] at hs
    rcases hs with rfl | rfl | rfl
    · simp only [Option.toList_none, List.nil_append, List.cons_append]
      unfold sign
      split
      · rename_i heq
        rw [(List.cons.inj heq).1] at hdigit
        exact absurd hdigit (by decide)
      · rename_i heq
        rw [(List.cons.inj heq).1] at hdigit
        exact absurd hdigit (by decide)
      · rfl
    · rfl
    · rfl

theorem dropWhile_blanks {blanks text : List Char} (hb : ∀ c ∈ blanks, isSpace c = true)
    (ht : ∀ c ∈ text.head?, isSpace c = false) : (blanks ++ text).dropWhile isSpace = text := by
  rw [List.dropWhile_append_of_pos hb]
  cases text with
  | nil => rfl
  | cons c text => rw [List.dropWhile_cons_of_neg (by simpa using ht c (by simp))]

theorem extract_number {number : List Char} {value : BitVec 32} (h : Number number value) {text : List Char} (ht : NoDigit text)
    (old : BitVec 32) : IStream.extract ⟨number ++ text, false, false⟩ old = (⟨text, text.isEmpty, false⟩, value) := by
  obtain ⟨sgn, hb, hs, hne, hd, hlt⟩ := h
  rename_i blanks digits
  obtain ⟨htake, hdrop⟩ := takeWhile_digits hd ht
  have hblanks : (blanks ++ sgn.toList ++ digits ++ text).dropWhile isSpace = sgn.toList ++ digits ++ text := by
    rw [List.append_assoc, List.append_assoc, ← List.append_assoc sgn.toList]
    apply dropWhile_blanks hb
    intro c hc
    simp only [List.mem_cons, List.not_mem_nil, or_false] at hs
    rcases hs with rfl | rfl | rfl
    · cases digits with
      | nil => exact absurd rfl hne
      | cons d digits =>
        simp only [Option.toList_none, List.nil_append, List.cons_append, List.head?_cons, Option.mem_some_iff] at hc
        exact isSpace_of_isDigit (hc ▸ hd d List.mem_cons_self)
    · simp only [Option.toList_some, List.cons_append, List.head?_cons, Option.mem_some_iff] at hc
      rw [← hc]
      decide
    · simp only [Option.toList_some, List.cons_append, List.head?_cons, Option.mem_some_iff] at hc
      rw [← hc]
      decide
  have hcons : sgn.toList ++ digits ++ text ≠ [] := by simp [hne]
  unfold IStream.extract
  simp only [IStream.good, Bool.not_false, Bool.and_self, Bool.not_true, Bool.false_eq_true, if_false]
  rw [hblanks]
  split
  · rename_i hnil
    exact absurd hnil hcons
  · rw [sign_digits hs hne hd, htake, hdrop]
    have hempty : digits.isEmpty = false := by simpa using hne
    simp only [hempty, Bool.false_eq_true, if_false, Nat.not_le.mpr hlt, decide_eq_true_eq]

theorem noDigit_dropWhile (text : List Char) : NoDigit (text.dropWhile Char.isDigit) := by
  intro c hc
  have hne : text.dropWhile Char.isDigit ≠ [] := by
    intro hnil
    rw [hnil] at hc
    cases hc
  rw [List.head?_eq_some_head hne] at hc
  rw [← Option.mem_some_iff.mp hc]
  simpa using List.head_dropWhile_not Char.isDigit hne

theorem sign_spec (text : List Char) : ∃ sgn ∈ [none, some '-', some '+'], text = sgn.toList ++ (sign text).2 := by
  unfold sign
  split
  · exact ⟨some '-', by simp, rfl⟩
  · exact ⟨some '+', by simp, rfl⟩
  · exact ⟨none, by simp, rfl⟩

theorem number_of_extract_good {text : List Char} {old : BitVec 32}
    (h : (IStream.extract ⟨text, false, false⟩ old).1.good = true) :
    ∃ number value rest, Number number value ∧ NoDigit rest ∧ rest ≠ [] ∧ text = number ++ rest := by
  have hsplit := List.takeWhile_append_dropWhile (p := isSpace) (l := text)
  unfold IStream.extract at h
  simp only [IStream.good, Bool.not_false, Bool.and_self, Bool.not_true, Bool.false_eq_true, if_false] at h
  split at h
  · cases h
  · obtain ⟨sgn, hs, htext⟩ := sign_spec (text.dropWhile isSpace)
    have hdigits := List.takeWhile_append_dropWhile (p := Char.isDigit) (l := (sign (text.dropWhile isSpace)).2)
    split at h
    · simp at h
    · rename_i hne
      split at h
      · simp at h
      · rename_i hlt
        have hblanks : ∀ c ∈ text.takeWhile isSpace, isSpace c = true := fun c hc => List.mem_takeWhile_imp hc
        have hnumber := Number.mk sgn hblanks hs (mt List.isEmpty_iff.mpr hne)
          (fun c hc => List.mem_takeWhile_imp hc) (Nat.not_le.mp hlt)
        refine ⟨_, _, (sign (text.dropWhile isSpace)).2.dropWhile Char.isDigit, hnumber, noDigit_dropWhile _, ?_, ?_⟩
        · intro hnil
          simp [hnil] at h
        · rw [List.append_assoc, hdigits, List.append_assoc, ← htext, hsplit]

/-! ## Commands -/

section
variable {c : State} {device : Device}

theorem ioctlSendIoctl_frame (ioctl : BitVec 32) (buffer : List (BitVec 8)) :
    (ioctlSendIoctl device ioctl buffer c).1.cin = c.cin ∧ (ioctlSendIoctl device ioctl buffer c).1.command = c.command ∧
      (ioctlSendIoctl device ioctl buffer c).1.isApplicationRunning = c.isApplicationRunning := by
  unfold ioctlSendIoctl
  split
  · exact ⟨rfl, rfl, rfl⟩
  · dsimp only
    split <;> exact ⟨rfl, rfl, rfl⟩

/-- Only `ProtectProcess` reads, and only `Exit` ends the loop. -/
theorem execute_frame (device : Device) (command : String) :
    (execute device command c).cin = (if command = "ProtectProcess" then (c.cin.extract 0).1 else c.cin) ∧
      (execute device command c).command = c.command ∧
      (execute device command c).isApplicationRunning = (if command = "Exit" then false else c.isApplicationRunning) := by
  unfold execute
  cases h : availableCommands.lookup command with
  | none =>
    have hp : command ≠ "ProtectProcess" := fun heq => absurd (heq ▸ h) (by decide)
    have he : command ≠ "Exit" := fun heq => absurd (heq ▸ h) (by decide)
    rw [if_neg hp, if_neg he]
    exact ⟨rfl, rfl, rfl⟩
  | some handler =>
    obtain ⟨before, after, hsplit, -⟩ := List.lookup_eq_some_iff.mp h
    have hmem : (command, handler) ∈ availableCommands := by rw [hsplit]; simp
    simp only [availableCommands, List.mem_cons, Prod.mk.injEq, List.not_mem_nil, or_false] at hmem
    rcases hmem with ⟨rfl, rfl⟩ | ⟨rfl, rfl⟩ | ⟨rfl, rfl⟩ | ⟨rfl, rfl⟩ | ⟨rfl, rfl⟩ | ⟨rfl, rfl⟩ | hmem
    iterate 6 exact ⟨rfl, rfl, rfl⟩
    rcases hmem with ⟨rfl, rfl⟩ | ⟨rfl, rfl⟩ | ⟨rfl, rfl⟩ | ⟨rfl, rfl⟩ | ⟨rfl, rfl⟩
    · exact ioctlSendIoctl_frame ..
    · exact ioctlSendIoctl_frame ..
    · exact ioctlSendIoctl_frame ..
    · exact ⟨rfl, rfl, rfl⟩
    · exact ⟨rfl, rfl, rfl⟩

/-! ## Lines -/

theorem getline_bad {stream : IStream} (h : stream.good = false) (line : String) :
    stream.getline line = ({ stream with failbit := true }, line) := by
  unfold IStream.getline
  rw [h]
  rfl

theorem extract_bad {stream : IStream} (h : stream.good = false) (value : BitVec 32) :
    stream.extract value = ({ stream with failbit := true }, value) := by
  unfold IStream.extract
  rw [h]
  rfl

theorem ne_newline {line : List Char} (h : '\n' ∉ line) : ∀ c ∈ line, decide (c ≠ '\n') = true := by
  intro c hc
  rw [decide_eq_true_eq]
  rintro rfl
  exact h hc

theorem getline_line {line : List Char} (h : '\n' ∉ line) (text : List Char) (old : String) :
    IStream.getline ⟨line ++ '\n' :: text, false, false⟩ old = (⟨text, false, false⟩, String.ofList line) := by
  unfold IStream.getline
  rw [List.takeWhile_append_of_pos (ne_newline h), List.dropWhile_append_of_pos (ne_newline h)]
  simp [IStream.good]

theorem getline_last {line : List Char} (h : '\n' ∉ line) (old : String) :
    IStream.getline ⟨line, false, false⟩ old = (⟨[], true, line.isEmpty⟩, String.ofList line) := by
  have htake := List.takeWhile_eq_self_iff.mpr (ne_newline h)
  have hdrop := List.dropWhile_eq_nil_iff.mpr (ne_newline h)
  unfold IStream.getline
  rw [htake, hdrop]
  rfl

theorem line_cases (text : List Char) :
    '\n' ∉ text ∨ ∃ line rest, '\n' ∉ line ∧ text = line ++ '\n' :: rest := by
  by_cases h : '\n' ∈ text
  · obtain ⟨line, rest, htext, hline⟩ := List.eq_append_cons_of_mem h
    exact .inr ⟨line, rest, hline, htext⟩
  · exact .inl h

/-! ## When the loop ends -/

/-- Read line by line, the text has a line `Exit`. A line `ProtectProcess` takes
a number out of the text after it. -/
inductive ExitsOn : List Char → Prop
  | last : ExitsOn "Exit".toList
  | exit (text : List Char) : ExitsOn ("Exit".toList ++ '\n' :: text)
  | line {line text : List Char} : '\n' ∉ line → line ≠ "ProtectProcess".toList → ExitsOn text → ExitsOn (line ++ '\n' :: text)
  | protect {number text : List Char} {value : BitVec 32} : Number number value → NoDigit text → ExitsOn text →
      ExitsOn ("ProtectProcess".toList ++ '\n' :: (number ++ text))

theorem ExitsOn.ne_nil {text : List Char} (h : ExitsOn text) : text ≠ [] := by
  cases h <;> simp

/-- The stream gives no further line, and the last command is not `Exit`. -/
structure Stuck (c : State) : Prop where
  bad : c.cin.good = false
  command : c.command ≠ "Exit"
  running : c.isApplicationRunning = true

theorem turn_frame (device : Device) {cin : IStream} {command : String} (h : c.cin.getline c.command = (cin, command)) :
    (turn device c).cin = (if command = "ProtectProcess" then (cin.extract 0).1 else cin) ∧
      (turn device c).command = command ∧
      (turn device c).isApplicationRunning = (if command = "Exit" then false else c.isApplicationRunning) := by
  unfold turn
  rw [h]
  exact execute_frame device command

theorem stuck_of_turn (device : Device) {cin : IStream} {command : String} (h : c.cin.getline c.command = (cin, command))
    (hrunning : c.isApplicationRunning = true) (hcommand : command ≠ "Exit")
    (hbad : (if command = "ProtectProcess" then (cin.extract 0).1 else cin).good = false) : Stuck (turn device c) := by
  obtain ⟨hcin, hkept, hended⟩ := turn_frame device h
  rw [← hcin] at hbad
  rw [if_neg hcommand] at hended
  exact ⟨hbad, by rwa [hkept], hended.trans hrunning⟩

theorem bad_of_bad {cin : IStream} (h : cin.good = false) (command : String) :
    (if command = "ProtectProcess" then (cin.extract 0).1 else cin).good = false := by
  split
  · rw [extract_bad h]
    simp [IStream.good]
  · exact h

theorem stuck_turn (h : Stuck c) (device : Device) : Stuck (turn device c) :=
  stuck_of_turn device (getline_bad h.bad c.command) h.running h.command (bad_of_bad (by simp [IStream.good]) c.command)

theorem loop_stuck (h : Stuck c) (devices : ℕ → Device) (fuel : ℕ) : loop devices fuel c = none := by
  induction fuel generalizing c devices with
  | zero => rfl
  | succ fuel ih =>
    unfold loop
    rw [if_pos h.running]
    exact ih (stuck_turn h _) _

structure Reading (text : List Char) (c : State) : Prop where
  cin : c.cin = ⟨text, false, false⟩
  running : c.isApplicationRunning = true

theorem loop_turn (h : c.isApplicationRunning = true) (devices : ℕ → Device) (fuel : ℕ) :
    loop devices (fuel + 1) c = loop (fun n => devices (n + 1)) fuel (turn (devices 0) c) :=
  if_pos h

theorem loop_ended (h : c.isApplicationRunning = false) (devices : ℕ → Device) (fuel : ℕ) :
    loop devices (fuel + 1) c = some c :=
  if_neg (by rw [h]; exact Bool.false_ne_true)

theorem exit_ends (h : c.isApplicationRunning = true) {cin : IStream} (hg : c.cin.getline c.command = (cin, "Exit"))
    (devices : ℕ → Device) : ∃ fuel c', loop devices fuel c = some c' := by
  refine ⟨2, turn (devices 0) c, ?_⟩
  rw [loop_turn h]
  exact loop_ended (turn_frame _ hg).2.2 _ 0

theorem Reading.getline_line {line text : List Char} (h : Reading (line ++ '\n' :: text) c) (hline : '\n' ∉ line) :
    c.cin.getline c.command = (⟨text, false, false⟩, String.ofList line) := by
  rw [h.cin]
  exact Console.getline_line hline text _

theorem Reading.getline_last {line : List Char} (h : Reading line c) (hline : '\n' ∉ line) :
    c.cin.getline c.command = (⟨[], true, line.isEmpty⟩, String.ofList line) := by
  rw [h.cin]
  exact Console.getline_last hline _

theorem ofList_eq {line : List Char} {s : String} : String.ofList line = s ↔ line = s.toList := by
  rw [← String.toList_inj, String.toList_ofList]

theorem Reading.other (device : Device) {line text : List Char} (h : Reading (line ++ '\n' :: text) c) (hline : '\n' ∉ line)
    (hprotect : line ≠ "ProtectProcess".toList) (hexit : line ≠ "Exit".toList) : Reading text (turn device c) := by
  obtain ⟨hcin, -, hrunning⟩ := turn_frame device (h.getline_line hline)
  rw [if_neg (mt ofList_eq.mp hprotect)] at hcin
  rw [if_neg (mt ofList_eq.mp hexit)] at hrunning
  exact ⟨hcin, hrunning.trans h.running⟩

theorem Reading.protect (device : Device) {number text : List Char} {value : BitVec 32}
    (h : Reading ("ProtectProcess".toList ++ '\n' :: (number ++ text)) c) (hnumber : Number number value) (hdigit : NoDigit text)
    (hne : text ≠ []) : Reading text (turn device c) := by
  obtain ⟨hcin, -, hrunning⟩ := turn_frame device (h.getline_line (by decide))
  change (turn device c).cin = (IStream.extract ⟨number ++ text, false, false⟩ 0).1 at hcin
  rw [extract_number hnumber hdigit, List.isEmpty_eq_false_iff.mpr hne] at hcin
  exact ⟨hcin, hrunning.trans h.running⟩

theorem ends_of_exitsOn {text : List Char} (h : ExitsOn text) (hc : Reading text c) (devices : ℕ → Device) :
    ∃ fuel c', loop devices fuel c = some c' := by
  induction h generalizing c devices with
  | last => exact exit_ends hc.running (hc.getline_last (by decide)) devices
  | exit text => exact exit_ends hc.running (hc.getline_line (by decide)) devices
  | @line line text hline hprotect _ ih =>
    by_cases hexit : line = "Exit".toList
    · subst hexit
      exact exit_ends hc.running (hc.getline_line hline) devices
    · obtain ⟨fuel, c', hloop⟩ := ih (hc.other (devices 0) hline hprotect hexit) fun n => devices (n + 1)
      exact ⟨fuel + 1, c', (loop_turn hc.running _ _).trans hloop⟩
  | @protect number text value hnumber hdigit htext ih =>
    obtain ⟨fuel, c', hloop⟩ := ih (hc.protect (devices 0) hnumber hdigit htext.ne_nil) fun n => devices (n + 1)
    exact ⟨fuel + 1, c', (loop_turn hc.running _ _).trans hloop⟩

theorem exitsOn_of_ends {fuel : ℕ} {devices : ℕ → Device} {text : List Char} {c' : State} (hc : Reading text c)
    (h : loop devices fuel c = some c') : ExitsOn text := by
  induction fuel generalizing c devices text with
  | zero => cases h
  | succ fuel ih =>
    rw [loop_turn hc.running] at h
    rcases line_cases text with hlast | ⟨line, rest, hline, rfl⟩
    · by_cases hexit : text = "Exit".toList
      · rw [hexit]
        exact .last
      · -- the stream is at its end after this line
        have hstuck := stuck_of_turn (devices 0) (hc.getline_last hlast) hc.running (mt ofList_eq.mp hexit) (bad_of_bad rfl _)
        rw [loop_stuck hstuck] at h
        cases h
    · by_cases hexit : line = "Exit".toList
      · rw [hexit]
        exact .exit rest
      · by_cases hprotect : line = "ProtectProcess".toList
        · subst hprotect
          by_cases hgood : (IStream.extract ⟨rest, false, false⟩ 0).1.good = true
          · obtain ⟨number, value, rest', hnumber, hdigit, hne, rfl⟩ := number_of_extract_good hgood
            exact .protect hnumber hdigit (ih (hc.protect (devices 0) hnumber hdigit hne) h)
          · -- no number, or none after which the text goes on
            have hstuck := stuck_of_turn (devices 0) (hc.getline_line hline) hc.running (by decide) (by simpa using hgood)
            rw [loop_stuck hstuck] at h
            cases h
        · exact .line hline hprotect (ih (hc.other (devices 0) hline hprotect hexit) h)

theorem reading_main (text : List Char) (driver : Protection.GlobalData) (device : Device) :
    Reading text (execute device "Help" { cin := ⟨text, false, false⟩, driver := driver }) := by
  obtain ⟨hcin, -, hrunning⟩ := execute_frame (c := { cin := ⟨text, false, false⟩, driver := driver }) device "Help"
  exact ⟨hcin, hrunning⟩

/-- **The loop of `main`** ends if the text has a line `Exit` before its end and
before a pid that cannot be read, and on no other text. -/
theorem main_ends_iff (text : List Char) (driver : Protection.GlobalData) (devices : ℕ → Device) :
    (∃ fuel c, main text driver devices fuel = some c) ↔ ExitsOn text := by
  constructor
  · intro hex
    obtain ⟨fuel, c, h⟩ := hex
    exact exitsOn_of_ends (reading_main text driver (devices 0)) h
  · intro h
    exact ends_of_exitsOn h (reading_main text driver (devices 0)) devices

end

theorem stuck_main {text : List Char} {driver : Protection.GlobalData} {devices : ℕ → Device}
    (h : Stuck (turn (devices 0) (execute (devices 0) "Help" { cin := ⟨text, false, false⟩, driver := driver }))) :
    ¬ ∃ fuel c, main text driver devices fuel = some c := by
  intro hex
  obtain ⟨fuel, c, hloop⟩ := hex
  cases fuel with
  | zero => cases hloop
  | succ fuel =>
    unfold main at hloop
    rw [loop_turn (reading_main text driver (devices 0)).running, loop_stuck h] at hloop
    cases hloop

/-- No input at all, and an `Exit` after a pid that cannot be read. -/
theorem main_runs_forever :
    (¬ ∃ fuel c, main [] ⟨0⟩ (fun _ => ⟨true, true⟩) fuel = some c) ∧
      ¬ ∃ fuel c, main "ProtectProcess\nabc\nExit\n".toList ⟨0⟩ (fun _ => ⟨true, true⟩) fuel = some c :=
  ⟨stuck_main ⟨by decide, by decide, by decide⟩, stuck_main ⟨by decide, by decide, by decide⟩⟩

/-! ## What is protected -/

/-- What is typed after a command: the next line with more than blanks, without
the blanks around it. -/
def typed (stream : IStream) : List Char :=
  if stream.good then ((stream.text.dropWhile isSpace).takeWhile (· ≠ '\n')).rdropWhile isSpace else []

def pidOf (line : List Char) : Option (BitVec 32) :=
  if line ≠ [] ∧ line.all Char.isDigit = true ∧ decimal line < 2 ^ 32 then some (BitVec.ofNat 32 (decimal line)) else none

/-- `ProtectProcess` protects what is typed if it is a pid, and else does nothing. -/
def ProtectsTyped (device : Device) (c : State) : Prop :=
  match pidOf (typed c.cin) with
  | some pid => device.opens = true → device.delivers = true →
      (execute device "ProtectProcess" c).driver.protectedProcessPid = pid
  | none => (execute device "ProtectProcess" c).driver.protectedProcessPid = c.driver.protectedProcessPid ∧
      (execute device "ProtectProcess" c).requests = c.requests

section
variable {c : State} {device : Device}

theorem isSpace_newline : isSpace '\n' = true := by decide

theorem noDigit_of_isSpace {text : List Char} (h : ∀ c ∈ text.head?, isSpace c = true) : NoDigit text := by
  intro c hc
  by_contra hd
  have hs := isSpace_of_isDigit (by simpa using hd)
  rw [h c hc] at hs
  cases hs

theorem noDigit_after (text : List Char) :
    NoDigit ((text.takeWhile (· ≠ '\n')).rtakeWhile isSpace ++ text.dropWhile (· ≠ '\n')) := by
  apply noDigit_of_isSpace
  intro c hc
  cases hblanks : (text.takeWhile (· ≠ '\n')).rtakeWhile isSpace with
  | cons b blanks =>
    rw [hblanks] at hc
    simp only [List.cons_append, List.head?_cons, Option.mem_some_iff] at hc
    rw [← hc]
    exact List.mem_rtakeWhile_imp (hblanks ▸ List.mem_cons_self)
  | nil =>
    rw [hblanks, List.nil_append] at hc
    have hne : text.dropWhile (· ≠ '\n') ≠ [] := by
      intro hnil
      rw [hnil] at hc
      cases hc
    have hnot := List.head_dropWhile_not (· ≠ '\n') hne
    rw [List.head?_eq_some_head hne] at hc
    rw [Option.mem_some_iff.mp hc] at hnot
    rw [not_not.mp (of_decide_eq_false hnot)]
    exact isSpace_newline

theorem split_typed (text : List Char) : ∃ blanks rest, (∀ c ∈ blanks, isSpace c = true) ∧ NoDigit rest ∧
    text = blanks ++ ((text.dropWhile isSpace).takeWhile (· ≠ '\n')).rdropWhile isSpace ++ rest := by
  refine ⟨text.takeWhile isSpace, _, fun c hc => List.mem_takeWhile_imp hc, noDigit_after (text.dropWhile isSpace), ?_⟩
  rw [List.append_assoc, ← List.append_assoc (List.rdropWhile _ _), List.rdropWhile_append_rtakeWhile,
    List.takeWhile_append_dropWhile, List.takeWhile_append_dropWhile]

theorem extract_typed {stream : IStream} {pid : BitVec 32} (h : pidOf (typed stream) = some pid) (old : BitVec 32) :
    (stream.extract old).2 = pid := by
  unfold pidOf at h
  split at h
  · rename_i hpid
    obtain ⟨hne, hdigits, hlt⟩ := hpid
    unfold typed at h hne hdigits hlt
    by_cases hgood : stream.good = true
    · rw [if_pos hgood] at h hne hdigits hlt
      obtain ⟨text, eofbit, failbit⟩ := stream
      obtain ⟨heof, hfail⟩ : eofbit = false ∧ failbit = false := by simpa [IStream.good] using hgood
      subst heof hfail
      obtain ⟨blanks, rest, hblanks, hrest, htext⟩ := split_typed text
      have hnumber := Number.mk none hblanks (by simp) hne (List.all_eq_true.mp hdigits) hlt
      rw [Option.toList_none, List.append_nil] at hnumber
      have hextract := extract_number hnumber hrest old
      rw [← htext] at hextract
      rw [hextract, ← Option.some.inj h]
      rfl
    · rw [if_neg hgood] at hne
      exact absurd rfl hne
  · cases h

theorem protect_closed (h : device.opens = false) :
    execute device "ProtectProcess" c = { c with cin := (c.cin.extract 0).1 } := by
  change (ioctlSendIoctl ..).1 = _
  unfold ioctlSendIoctl
  rw [h]
  rfl

theorem protect_requests (h : device.opens = true) :
    (execute device "ProtectProcess" c).requests =
      c.requests ++ [⟨thirdIoctlCode, uint32Bytes (c.cin.extract 0).2⟩] := by
  change (ioctlSendIoctl ..).1.requests = _
  unfold ioctlSendIoctl
  rw [h]
  cases device.delivers <;> rfl

theorem payload_third (value : BitVec 32) : Irp.payload ⟨thirdIoctlCode, uint32Bytes value⟩ = some value := by
  unfold Protection.Irp.payload
  rw [if_pos ⟨rfl, rfl⟩, readUInt32_uint32Bytes]

theorem protect_driver (ho : device.opens = true) (hd : device.delivers = true) :
    (execute device "ProtectProcess" c).driver.protectedProcessPid = (c.cin.extract 0).2 := by
  have hdriver : (execute device "ProtectProcess" c).driver =
      (Protection.ioctlHandleIrpMjDeviceControl c.driver ⟨thirdIoctlCode, uint32Bytes (c.cin.extract 0).2⟩).1 := by
    change (ioctlSendIoctl ..).1.driver = _
    unfold ioctlSendIoctl
    rw [ho, hd]
    rfl
  rw [hdriver, Protection.deviceControl_eq, payload_third]
  rfl

/-- **`ProtectProcess`** protects the pid that is typed, and sends a pid also
if none is typed, unless the device cannot be opened. -/
theorem protects_typed_iff (device : Device) (c : State) :
    ProtectsTyped device c ↔ (pidOf (typed c.cin)).isSome = true ∨ device.opens = false := by
  unfold ProtectsTyped
  cases hpid : pidOf (typed c.cin) with
  | some pid =>
    refine iff_of_true ?_ (.inl rfl)
    intro ho hd
    rw [protect_driver ho hd]
    exact extract_typed hpid 0
  | none =>
    cases ho : device.opens with
    | false =>
      refine iff_of_true ?_ (.inr rfl)
      rw [protect_closed ho]
      exact ⟨rfl, rfl⟩
    | true =>
      refine iff_of_false ?_ (by simp)
      rw [protect_requests ho]
      simp

theorem protect_abc :
    ¬ ProtectsTyped ⟨true, true⟩ { cin := ⟨"abc\n".toList, false, false⟩, driver := ⟨77⟩ } := by
  have hnone : pidOf (typed ⟨"abc\n".toList, false, false⟩) = none := by decide
  unfold ProtectsTyped
  rw [hnone]
  decide

end

end Dmsk.Console
