import Dmsk.ConsoleSound

/-!
# Which commands the console executes

`operator>>` leaves the end of the line that holds the pid in the stream, and
the next `getline` reads it as a line of its own.
-/

namespace Dmsk.Console

/-- The strings that the loop of `main` passes to `Execute`. -/
def commands (devices : ℕ → Device) : ℕ → State → Option (List String)
  | 0, _ => none
  | fuel + 1, c =>
    if c.isApplicationRunning then
      let c := turn (devices 0) c
      (commands (fun n => devices (n + 1)) fuel c).map (c.command :: ·)
    else some []

/-- Those that follow the initial `Help`. -/
def mainCommands (text : List Char) (driver : Protection.GlobalData) (devices : ℕ → Device) (fuel : ℕ) :
    Option (List String) :=
  commands devices fuel (execute (devices 0) "Help" { cin := ⟨text, false, false⟩, driver := driver })

section
variable {c : State} {devices : ℕ → Device}

theorem commands_isSome (devices : ℕ → Device) (fuel : ℕ) (c : State) :
    (commands devices fuel c).isSome = (loop devices fuel c).isSome := by
  induction fuel generalizing c devices with
  | zero => rfl
  | succ fuel ih =>
    unfold commands loop
    split
    · dsimp only
      rw [Option.isSome_map, ih]
    · rfl

theorem commands_turn (h : c.isApplicationRunning = true) (devices : ℕ → Device) (fuel : ℕ) :
    commands devices (fuel + 1) c =
      (commands (fun n => devices (n + 1)) fuel (turn (devices 0) c)).map ((turn (devices 0) c).command :: ·) :=
  if_pos h

theorem commands_ended (h : c.isApplicationRunning = false) (devices : ℕ → Device) (fuel : ℕ) :
    commands devices (fuel + 1) c = some [] :=
  if_neg (by rw [h]; exact Bool.false_ne_true)

theorem commands_succ {fuel : ℕ} {cs : List String} (h : commands devices fuel c = some cs) :
    commands devices (fuel + 1) c = some cs := by
  induction fuel generalizing c devices cs with
  | zero => cases h
  | succ fuel ih =>
    cases hrunning : c.isApplicationRunning with
    | true =>
      rw [commands_turn hrunning] at h ⊢
      obtain ⟨ds, hds, rfl⟩ := Option.map_eq_some_iff.mp h
      rw [ih hds]
      rfl
    | false =>
      rw [commands_ended hrunning] at h ⊢
      exact h

theorem commands_le {fuel fuel' : ℕ} (hle : fuel ≤ fuel') {cs : List String} (h : commands devices fuel c = some cs) :
    commands devices fuel' c = some cs := by
  induction hle with
  | refl => exact h
  | step _ ih => exact commands_succ ih

theorem commands_unique {fuel fuel' : ℕ} {cs cs' : List String} (h : commands devices fuel c = some cs)
    (h' : commands devices fuel' c = some cs') : cs = cs' := by
  have hmax := commands_le (Nat.le_max_left fuel fuel') h
  rw [commands_le (Nat.le_max_right fuel fuel') h'] at hmax
  exact (Option.some.inj hmax).symm

end

/-! ## What is typed -/

/-- A line, or a line `ProtectProcess` and a line with a pid, perhaps with
blanks around it. -/
inductive Entry
  | command (line : List Char)
  | protect (lead digits trail : List Char)
deriving DecidableEq, Repr

namespace Entry

def Blank (line : List Char) : Prop := '\n' ∉ line ∧ ∀ c ∈ line, isSpace c = true

def WellFormed : Entry → Prop
  | .command line => '\n' ∉ line ∧ line ≠ "ProtectProcess".toList ∧ line ≠ "Exit".toList
  | .protect lead digits trail =>
    Blank lead ∧ digits ≠ [] ∧ (∀ c ∈ digits, c.isDigit = true) ∧ decimal digits < 2 ^ 32 ∧ Blank trail

def text : Entry → List Char
  | .command line => line ++ ['\n']
  | .protect lead digits trail => "ProtectProcess".toList ++ '\n' :: (lead ++ digits ++ (trail ++ ['\n']))

def line : Entry → List Char
  | .command line => line
  | .protect _ _ _ => "ProtectProcess".toList

def executed : Entry → List String
  | .command line => [String.ofList line]
  | .protect _ _ trail => ["ProtectProcess", String.ofList trail]

end Entry

theorem Entry.text_command (line text : List Char) : (Entry.command line).text ++ text = line ++ '\n' :: text :=
  List.append_assoc line ['\n'] text

theorem Entry.text_protect (lead digits trail text : List Char) : (Entry.protect lead digits trail).text ++ text =
    "ProtectProcess".toList ++ '\n' :: (lead ++ digits ++ (trail ++ '\n' :: text)) := by
  unfold Entry.text
  generalize "ProtectProcess".toList = name
  simp

theorem Entry.Blank.not_command {line : List Char} (h : Entry.Blank line) :
    line ≠ "ProtectProcess".toList ∧ line ≠ "Exit".toList := by
  constructor
  · rintro rfl
    exact absurd (h.2 'P' (by decide)) (by decide)
  · rintro rfl
    exact absurd (h.2 'E' (by decide)) (by decide)

section
variable {c : State} {devices : ℕ → Device}

theorem Reading.command_eq (device : Device) {line text : List Char} (h : Reading (line ++ '\n' :: text) c)
    (hline : '\n' ∉ line) : (turn device c).command = String.ofList line :=
  (turn_frame device (h.getline_line hline)).2.1

theorem commands_exit {rest : List Char} (h : Reading ("Exit".toList ++ rest) c) (hrest : rest = [] ∨ rest.head? = some '\n')
    (devices : ℕ → Device) : commands devices 2 c = some ["Exit"] := by
  have hget : ∃ cin, c.cin.getline c.command = (cin, "Exit") := by
    cases rest with
    | nil => exact ⟨_, h.getline_last (by decide)⟩
    | cons d rest =>
      have hd : d = '\n' := by simpa using hrest
      subst hd
      exact ⟨_, h.getline_line (by decide)⟩
  obtain ⟨cin, hget⟩ := hget
  obtain ⟨-, hcommand, hended⟩ := turn_frame (devices 0) hget
  rw [commands_turn h.running, commands_ended hended, hcommand]
  rfl

theorem commands_next (devices : ℕ → Device) (h : c.isApplicationRunning = true) {command : String} (hc : (turn (devices 0) c).command = command)
    {fuel : ℕ} {cs : List String} (hcs : commands (fun n => devices (n + 1)) fuel (turn (devices 0) c) = some cs) :
    commands devices (fuel + 1) c = some (command :: cs) := by
  rw [commands_turn h, hcs, hc]
  rfl

theorem Reading.pid (device : Device) {lead digits trail text : List Char}
    (h : Reading ((Entry.protect lead digits trail).text ++ text) c) (hwf : (Entry.protect lead digits trail).WellFormed) :
    Reading (trail ++ '\n' :: text) (turn device c) ∧ (turn device c).command = "ProtectProcess" := by
  obtain ⟨hlead, hne, hdigits, hlt, htrail⟩ := hwf
  have hnumber := Number.mk none hlead.2 (by simp) hne hdigits hlt
  rw [Option.toList_none, List.append_nil] at hnumber
  have hspace : ∀ b ∈ (trail ++ '\n' :: text).head?, isSpace b = true := by
    intro b hb
    cases trail with
    | nil =>
      rw [← Option.mem_some_iff.mp hb]
      exact isSpace_newline
    | cons d trail =>
      rw [← Option.mem_some_iff.mp hb]
      exact htrail.2 d List.mem_cons_self
  rw [Entry.text_protect] at h
  refine ⟨h.protect device hnumber (noDigit_of_isSpace hspace) (by simp), ?_⟩
  rw [h.command_eq device (by decide), String.ofList_toList]

/-- The commands of a text, entry by entry, up to the first `Exit`. -/
theorem commands_eq {entries : List Entry} (hwf : ∀ e ∈ entries, e.WellFormed) {rest : List Char}
    (hrest : rest = [] ∨ rest.head? = some '\n') (h : Reading (entries.flatMap Entry.text ++ ("Exit".toList ++ rest)) c)
    (devices : ℕ → Device) : ∃ fuel, commands devices fuel c = some (entries.flatMap Entry.executed ++ ["Exit"]) := by
  induction entries generalizing c devices with
  | nil => exact ⟨2, commands_exit h hrest devices⟩
  | cons e entries ih =>
    have hentries := fun e' he' => hwf e' (List.mem_cons_of_mem e he')
    rw [List.flatMap_cons, List.append_assoc] at h
    cases e with
    | command line =>
      obtain ⟨hline, hprotect, hexit⟩ := hwf (.command line) List.mem_cons_self
      rw [Entry.text_command] at h
      obtain ⟨fuel, hcs⟩ := ih hentries (h.other (devices 0) hline hprotect hexit) fun n => devices (n + 1)
      exact ⟨fuel + 1, commands_next _ h.running (h.command_eq (devices 0) hline) hcs⟩
    | protect lead digits trail =>
      obtain ⟨hpid, hcommand⟩ := h.pid (devices 0) (hwf _ List.mem_cons_self)
      have htrail : Entry.Blank trail := (hwf (.protect lead digits trail) List.mem_cons_self).2.2.2.2
      -- the rest of the line of the pid is the next command
      have hblank := hpid.command_eq (devices 1) htrail.1
      have hother := hpid.other (devices 1) htrail.1 htrail.not_command.1 htrail.not_command.2
      obtain ⟨fuel, hcs⟩ := ih hentries hother fun n => devices (n + 2)
      have hrest := commands_next (fun n => devices (n + 1)) hpid.running hblank hcs
      have hall := commands_next _ h.running hcommand hrest
      exact ⟨fuel + 2, hall⟩

/-- A pid adds a command to those that are typed. -/
theorem executed_eq_iff {entries : List Entry} :
    entries.flatMap Entry.executed = entries.map (fun e => String.ofList e.line) ↔ ∀ e ∈ entries, ∃ line, e = .command line := by
  have hlength : ∀ entries : List Entry, (entries.map fun e => String.ofList e.line).length ≤ (entries.flatMap Entry.executed).length := by
    intro entries
    induction entries with
    | nil => exact Nat.le_refl _
    | cons e entries ih =>
      rw [List.length_map] at ih ⊢
      cases e <;> simp only [List.flatMap_cons, Entry.executed, List.length_append, List.length_cons, List.length_nil] <;> omega
  induction entries with
  | nil => simp
  | cons e entries ih =>
    rw [List.flatMap_cons, List.map_cons, List.forall_mem_cons]
    cases e with
    | command line =>
      exact ((List.cons_inj_right (String.ofList line)).trans ih).trans (and_iff_right ⟨line, rfl⟩).symm
    | protect lead digits trail =>
      refine iff_of_false ?_ ?_
      · intro h
        have hle := hlength entries
        have := congrArg List.length h
        simp only [Entry.executed, List.length_append, List.length_cons, List.length_nil] at this
        omega
      · rintro ⟨⟨line, hline⟩, -⟩
        cases hline

/-- **One command a line.** Of well-formed lines up to an `Exit`, exactly the
lines that are no pid are executed, none of them empty, if and only if none of
them is `ProtectProcess` and none is empty. -/
theorem commands_one_to_one_iff {entries : List Entry} (hwf : ∀ e ∈ entries, e.WellFormed) {rest : List Char}
    (hrest : rest = [] ∨ rest.head? = some '\n') (driver : Protection.GlobalData) (devices : ℕ → Device) :
    (∃ fuel cs, mainCommands (entries.flatMap Entry.text ++ ("Exit".toList ++ rest)) driver devices fuel = some cs ∧
        cs = entries.map (fun e => String.ofList e.line) ++ ["Exit"] ∧ "" ∉ cs) ↔
      ∀ e ∈ entries, ∃ line, e = .command line ∧ line ≠ [] := by
  obtain ⟨fuel, hcs⟩ := commands_eq hwf hrest (reading_main _ driver (devices 0)) devices
  constructor
  · rintro ⟨fuel', cs, hcs', rfl, hempty⟩
    have heq := List.append_cancel_right (commands_unique hcs hcs')
    intro e he
    obtain ⟨line, rfl⟩ := executed_eq_iff.mp heq e he
    refine ⟨line, rfl, ?_⟩
    rintro rfl
    exact hempty (List.mem_append_left _ (List.mem_map.mpr ⟨_, he, rfl⟩))
  · intro h
    have heq := executed_eq_iff.mpr fun e he => (h e he).imp fun _ hline => hline.1
    refine ⟨fuel, _, hcs, by rw [heq], ?_⟩
    intro hempty
    rw [heq, List.mem_append, List.mem_map] at hempty
    rcases hempty with ⟨e, he, hline⟩ | hempty
    · obtain ⟨line, rfl, hne⟩ := h e he
      exact hne (ofList_eq.mp hline)
    · exact absurd hempty (by decide)

end

def severalEntries : List Entry :=
  [.command "Help".toList, .protect [' '] "12".toList ['\t'], .command "Start".toList, .command "Stop".toList]

theorem commands_one_to_one_several :
    (∃ fuel cs, mainCommands (severalEntries.flatMap Entry.text ++ ("Exit".toList ++ [])) ⟨0⟩ (fun _ => ⟨true, true⟩) fuel = some cs ∧
        cs = severalEntries.map (fun e => String.ofList e.line) ++ ["Exit"] ∧ "" ∉ cs) ↔
      ∀ e ∈ severalEntries, ∃ line, e = .command line ∧ line ≠ [] := by
  refine commands_one_to_one_iff ?_ (.inl rfl) ⟨0⟩ fun _ => ⟨true, true⟩
  intro e he
  simp only [severalEntries, List.mem_cons, List.not_mem_nil, or_false] at he
  rcases he with rfl | rfl | rfl | rfl
  · exact ⟨by decide, by decide, by decide⟩
  · exact ⟨⟨by decide, List.all_eq_true.mp rfl⟩, by decide, List.all_eq_true.mp rfl, by decide,
      by decide, List.all_eq_true.mp rfl⟩
  · exact ⟨by decide, by decide, by decide⟩
  · exact ⟨by decide, by decide, by decide⟩

theorem pid_line_executed :
    ¬ ∃ fuel cs, mainCommands "ProtectProcess\n12\nExit\n".toList ⟨0⟩ (fun _ => ⟨true, true⟩) fuel = some cs ∧
      cs = ["ProtectProcess", "Exit"] ∧ "" ∉ cs := by
  rintro ⟨fuel, cs, hcs, rfl, -⟩
  have hthree : mainCommands "ProtectProcess\n12\nExit\n".toList ⟨0⟩ (fun _ => ⟨true, true⟩) 4 =
      some ["ProtectProcess", "", "Exit"] := by decide
  exact absurd (commands_unique hcs hthree) (by decide)

end Dmsk.Console
