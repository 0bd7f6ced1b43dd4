import Dmsk.ConsoleSound

/-!
# From what is typed to what a handle may do

A session of the console, line by line up to `Exit`, with the requests it sends,
the process that the driver then protects, and what becomes of the handles that
other processes open to it.
-/

namespace Dmsk.Console

open Protection (Irp firstIoctlCode secondIoctlCode thirdIoctlCode PreOperationInformation Due Stripped
  fltPreProcessCreateRoutine)

/-- A round of the loop before the one of `Exit`. -/
inductive Item
  | line (text : List Char)
  /-- `ProtectProcess`, and the number that it reads. -/
  | protect (value : BitVec 32)
deriving DecidableEq, Repr

inductive Session : List Char → List Item → Prop
  | last : Session "Exit".toList []
  | exit (text : List Char) : Session ("Exit".toList ++ '\n' :: text) []
  | line {line text : List Char} {items : List Item} : '\n' ∉ line → line ≠ "ProtectProcess".toList → line ≠ "Exit".toList →
      Session text items → Session (line ++ '\n' :: text) (.line line :: items)
  | protect {number text : List Char} {value : BitVec 32} {items : List Item} : Number number value → NoDigit text →
      Session text items → Session ("ProtectProcess".toList ++ '\n' :: (number ++ text)) (.protect value :: items)

def Handler.request : Handler → Option Irp
  | .sendFirstIoctl => some ⟨firstIoctlCode, []⟩
  | .sendSecondIoctl => some ⟨secondIoctlCode, []⟩
  | _ => none

def Item.request : Item → Option Irp
  | .line text => (availableCommands.lookup (String.ofList text)).bind Handler.request
  | .protect value => some ⟨thirdIoctlCode, uint32Bytes value⟩

/-- The requests of the rounds whose device is as `p` says. -/
def requested (p : Device → Bool) (devices : ℕ → Device) : List Item → List Irp
  | [] => []
  | item :: items =>
    (if p (devices 0) then item.request.toList else []) ++ requested p (fun n => devices (n + 1)) items

def Device.reached (device : Device) : Bool := device.opens && device.delivers

/-- The numbers that reach the driver. -/
def protects (devices : ℕ → Device) : List Item → List (BitVec 32)
  | [] => []
  | .line _ :: items => protects (fun n => devices (n + 1)) items
  | .protect value :: items =>
    (if (devices 0).reached then [value] else []) ++ protects (fun n => devices (n + 1)) items

def handled (driver : Protection.GlobalData) (irps : List Irp) : Protection.GlobalData :=
  irps.foldl (fun d irp => (Protection.ioctlHandleIrpMjDeviceControl d irp).1) driver

/-- What a round does to the driver and to the requests. -/
structure Effect (device : Device) (request : Option Irp) (c c' : State) : Prop where
  requests : c'.requests = c.requests ++ (if device.opens then request.toList else [])
  driver : c'.driver = handled c.driver (if device.reached then request.toList else [])

section
variable {c : State} {device : Device}

theorem effect_none : Effect device none c c := by
  constructor
  · split <;> exact (List.append_nil _).symm
  · split <;> rfl

theorem ioctlSendIoctl_effect (ioctlCode : BitVec 32) (inputBuffer : List (BitVec 8)) :
    Effect device (some ⟨ioctlCode, inputBuffer⟩) c (ioctlSendIoctl device ioctlCode inputBuffer c).1 := by
  obtain ⟨opens, delivers⟩ := device
  cases opens
  · exact ⟨(List.append_nil _).symm, rfl⟩
  cases delivers <;> exact ⟨rfl, rfl⟩

theorem Effect.congr {request : Option Irp} {c₀ c' : State} (h : Effect device request c c') (hr : c.requests = c₀.requests)
    (hd : c.driver = c₀.driver) : Effect device request c₀ c' :=
  ⟨h.requests.trans (by rw [hr]), h.driver.trans (by rw [hd])⟩

theorem execute_line_effect {line : List Char} (hprotect : line ≠ "ProtectProcess".toList) :
    Effect device (Item.line line).request c (execute device (String.ofList line) c) := by
  show Effect device ((availableCommands.lookup (String.ofList line)).bind Handler.request) c _
  unfold execute
  cases h : availableCommands.lookup (String.ofList line) with
  | none => exact effect_none
  | some handler =>
    cases handler with
    | sendFirstIoctl => exact ioctlSendIoctl_effect _ _
    | sendSecondIoctl => exact ioctlSendIoctl_effect _ _
    | protectProcessCommand =>
      obtain ⟨before, after, hsplit, -⟩ := List.lookup_eq_some_iff.mp h
      have hmem : (String.ofList line, Handler.protectProcessCommand) ∈ availableCommands := by rw [hsplit]; simp
      simp only [availableCommands, List.mem_cons, Prod.mk.injEq, reduceCtorEq, and_false, or_false, false_or, and_true,
        List.not_mem_nil] at hmem
      exact absurd (ofList_eq.mp hmem) hprotect
    | exitCommand => exact ⟨effect_none.requests, effect_none.driver⟩
    | printHelpCommand | startThreadPoolCommand | stopThreadPoolCommand | puDumpActiveProcessesToolHelp32Snapshot
    | puDumpActiveProcessesPsapi | puDumpActiveProcessesZwQuerySystemInformation | rmtCreateRemoteThread => exact effect_none

theorem turn_line {line text : List Char} (h : Reading (line ++ '\n' :: text) c) (hline : '\n' ∉ line)
    (hprotect : line ≠ "ProtectProcess".toList) : Effect device (Item.line line).request c (turn device c) := by
  unfold turn
  rw [h.getline_line hline]
  exact (execute_line_effect hprotect).congr rfl rfl

theorem turn_last {line : List Char} (h : Reading line c) (hline : '\n' ∉ line) (hprotect : line ≠ "ProtectProcess".toList) :
    Effect device (Item.line line).request c (turn device c) := by
  unfold turn
  rw [h.getline_last hline]
  exact (execute_line_effect hprotect).congr rfl rfl

theorem turn_protect {number text : List Char} {value : BitVec 32}
    (h : Reading ("ProtectProcess".toList ++ '\n' :: (number ++ text)) c) (hnumber : Number number value) (hdigit : NoDigit text) :
    Effect device (Item.protect value).request c (turn device c) := by
  unfold turn
  rw [h.getline_line (by decide)]
  show Effect device _ c (protectProcessCommand device _).1
  unfold protectProcessCommand
  dsimp only
  rw [extract_number hnumber hdigit]
  exact (ioctlSendIoctl_effect _ _).congr rfl rfl

/-! ## Sessions -/

theorem handled_append (driver : Protection.GlobalData) (irps irps' : List Irp) :
    handled driver (irps ++ irps') = handled (handled driver irps) irps' :=
  List.foldl_append ..

/-- The requests of a run, and what the driver makes of them. -/
structure Follows (devices : ℕ → Device) (items : List Item) (c c' : State) : Prop where
  requests : c'.requests = c.requests ++ requested Device.opens devices items
  driver : c'.driver = handled c.driver (requested Device.reached devices items)

variable {devices : ℕ → Device} {items : List Item} {c' c'' : State}

theorem Effect.follows {item : Item} (h : Effect (devices 0) item.request c c')
    (h' : Follows (fun n => devices (n + 1)) items c' c'') : Follows devices (item :: items) c c'' := by
  constructor
  · rw [h'.requests, h.requests, List.append_assoc]
    rfl
  · rw [h'.driver, h.driver, ← handled_append]
    rfl

theorem follows_exit (h : Effect (devices 0) (Item.line "Exit".toList).request c c') : Follows devices [] c c' := by
  have hnone : (Item.line "Exit".toList).request = none := rfl
  rw [hnone] at h
  exact ⟨by simpa [requested] using h.requests, by simpa [requested, handled] using h.driver⟩

theorem loop_exit {fuel : ℕ} (hended : (turn (devices 0) c).isApplicationRunning = false)
    (h : loop (fun n => devices (n + 1)) fuel (turn (devices 0) c) = some c') : c' = turn (devices 0) c := by
  cases fuel with
  | zero => cases h
  | succ fuel =>
    rw [loop_ended hended] at h
    exact (Option.some.inj h).symm

/-- A loop that ends has read a session. -/
theorem session_of_loop {fuel : ℕ} {devices : ℕ → Device} {text : List Char} {c c' : State} (hc : Reading text c)
    (h : loop devices fuel c = some c') : ∃ items, Session text items ∧ Follows devices items c c' := by
  induction fuel generalizing c devices text with
  | zero => cases h
  | succ fuel ih =>
    rw [loop_turn hc.running] at h
    rcases line_cases text with hlast | ⟨line, rest, hline, rfl⟩
    · by_cases hexit : text = "Exit".toList
      · subst hexit
        have hended := (turn_frame (devices 0) (hc.getline_last hlast)).2.2
        rw [loop_exit hended h]
        exact ⟨[], .last, follows_exit (turn_last hc hlast (by decide))⟩
      · have hstuck := stuck_of_turn (devices 0) (hc.getline_last hlast) hc.running (mt ofList_eq.mp hexit) (bad_of_bad rfl _)
        rw [loop_stuck hstuck] at h
        cases h
    · by_cases hexit : line = "Exit".toList
      · subst hexit
        have hended := (turn_frame (devices 0) (hc.getline_line hline)).2.2
        rw [loop_exit hended h]
        exact ⟨[], .exit rest, follows_exit (turn_line hc hline (by decide))⟩
      · by_cases hprotect : line = "ProtectProcess".toList
        · subst hprotect
          by_cases hgood : (IStream.extract ⟨rest, false, false⟩ 0).1.good = true
          · obtain ⟨number, value, rest', hnumber, hdigit, hne, rfl⟩ := number_of_extract_good hgood
            obtain ⟨items, hsession, hfollows⟩ := ih (hc.protect (devices 0) hnumber hdigit hne) h
            exact ⟨_, .protect hnumber hdigit hsession, (turn_protect hc hnumber hdigit).follows hfollows⟩
          · have hstuck := stuck_of_turn (devices 0) (hc.getline_line hline) hc.running (by decide) (by simpa using hgood)
            rw [loop_stuck hstuck] at h
            cases h
        · obtain ⟨items, hsession, hfollows⟩ := ih (hc.other (devices 0) hline hprotect hexit) h
          exact ⟨_, .line hline hprotect hexit hsession, (turn_line hc hline hprotect).follows hfollows⟩

/-! ## The driver -/

theorem payload_request (item : Item) : item.request.bind Irp.payload = match item with
    | .line _ => none
    | .protect value => some value := by
  cases item with
  | line text =>
    show ((availableCommands.lookup (String.ofList text)).bind Handler.request).bind Irp.payload = none
    cases availableCommands.lookup (String.ofList text) with
    | none => rfl
    | some handler => cases handler <;> rfl
  | protect value => exact payload_third value

theorem payloads_requested (devices : ℕ → Device) (items : List Item) :
    (requested Device.reached devices items).filterMap Irp.payload = protects devices items := by
  induction items generalizing devices with
  | nil => rfl
  | cons item items ih =>
    have hitem := payload_request item
    unfold requested
    rw [List.filterMap_append, ih]
    cases item with
    | line text =>
      show _ = protects (fun n => devices (n + 1)) items
      split
      · cases hr : (Item.line text).request with
        | none => rfl
        | some irp =>
          rw [hr] at hitem
          simp only [Option.bind_some] at hitem
          simp [hitem]
      · rfl
    | protect value =>
      show _ = (if (devices 0).reached then [value] else []) ++ _
      split
      · simp [Item.request, payload_third]
      · rfl

theorem handled_pid (driver : Protection.GlobalData) (irps : List Irp) :
    (handled driver irps).protectedProcessPid = (irps.filterMap Irp.payload).getLast?.getD driver.protectedProcessPid := by
  have hfold := Protection.foldl_run (w := 64) (irps.map .deviceControl) driver
  rw [List.foldl_map, List.filterMap_map] at hfold
  exact hfold

/-- **From the console to a handle.** When `main` ends, what was typed is a session; its requests were sent in their order, and
the last number that reached the driver is protected: of the operations on handles, exactly those that are due lose the right
to terminate, and nothing else. -/
theorem session_protects {text : List Char} {driver : Protection.GlobalData} {devices : ℕ → Device} {fuel : ℕ} {c : State}
    (h : main text driver devices fuel = some c) : ∃ items, Session text items ∧
      c.requests = requested Device.opens devices items ∧
      c.driver.protectedProcessPid = (protects devices items).getLast?.getD driver.protectedProcessPid ∧
      ∀ (w : ℕ) (current : Handle w) (info : PreOperationInformation w),
        let pid := (protects devices items).getLast?.getD driver.protectedProcessPid
        (Due pid current info → Stripped info (fltPreProcessCreateRoutine c.driver current info).2) ∧
          (¬ Due pid current info → (fltPreProcessCreateRoutine c.driver current info).2 = info) := by
  obtain ⟨items, hsession, hfollows⟩ := session_of_loop (reading_main text driver (devices 0)) h
  have hpid : c.driver.protectedProcessPid = (protects devices items).getLast?.getD driver.protectedProcessPid := by
    rw [hfollows.driver, handled_pid, payloads_requested]
    rfl
  refine ⟨items, hsession, hfollows.requests, hpid, fun w current info => ?_⟩
  rw [← hpid, Protection.preOperation_eq]
  refine ⟨fun hdue => ?_, fun hdue => ?_⟩
  · rw [if_pos hdue]
    exact Protection.stripped_removeTerminateAccess info
  · rw [if_neg hdue]

end

def protectSession : List Char := "SendFirstIoctl\nProtectProcess\n 77\nHelp\nExit\n".toList

theorem session_protects_77 : ∃ c, main protectSession ⟨0⟩ (fun _ => ⟨true, true⟩) 10 = some c ∧
    ∃ items, Session protectSession items ∧ c.requests = requested Device.opens (fun _ => ⟨true, true⟩) items := by
  have h : ∃ c, main protectSession ⟨0⟩ (fun _ => ⟨true, true⟩) 10 = some c := Option.isSome_iff_exists.mp (by decide)
  obtain ⟨c, hc⟩ := h
  obtain ⟨items, hsession, hrequests, -⟩ := session_protects hc
  exact ⟨c, hc, items, hsession, hrequests⟩

end Dmsk.Console
