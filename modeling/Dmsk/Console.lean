import Dmsk.ProcessProtection

/-!
# The console application

`main` reads a command a line from the standard input until `Exit` is executed,
and `ProtectProcess` reads a pid from the same stream. No command looks at the
state of the stream.
-/

namespace Dmsk.Console

open Protection (Irp firstIoctlCode secondIoctlCode thirdIoctlCode)

/-! ## Input -/

/-- The text not yet read, up to the end of the file, and the state bits. -/
structure IStream where
  text : List Char
  eofbit : Bool := false
  failbit : Bool := false
deriving DecidableEq, Repr

def IStream.good (stream : IStream) : Bool := !stream.eofbit && !stream.failbit

def IStream.getline (stream : IStream) (line : String) : IStream × String :=
  if !stream.good then ({ stream with failbit := true }, line)
  else
    let line := stream.text.takeWhile (· ≠ '\n')
    match stream.text.dropWhile (· ≠ '\n') with
    | _ :: text => ({ stream with text := text }, String.ofList line)
    | [] => (⟨[], true, line.isEmpty⟩, String.ofList line)

def isSpace (c : Char) : Bool := c = ' ' ∨ 9 ≤ c.toNat ∧ c.toNat ≤ 13

def sign : List Char → Bool × List Char
  | '-' :: text => (true, text)
  | '+' :: text => (false, text)
  | text => (false, text)

/-- The number that decimal digits stand for. -/
def decimal (digits : List Char) : ℕ := digits.foldl (fun n c => 10 * n + (c.toNat - '0'.toNat)) 0

/-- `operator>>` for an `unsigned int` that holds `value`. -/
def IStream.extract (stream : IStream) (value : BitVec 32) : IStream × BitVec 32 :=
  if !stream.good then ({ stream with failbit := true }, value)
  else
    match stream.text.dropWhile isSpace with
    | [] => (⟨[], true, true⟩, value)
    | text =>
      let (negative, text) := sign text
      let digits := text.takeWhile Char.isDigit
      let text := text.dropWhile Char.isDigit
      if digits.isEmpty then (⟨text, text.isEmpty, true⟩, 0)
      else if 2 ^ 32 ≤ decimal digits then (⟨text, text.isEmpty, true⟩, BitVec.allOnes 32)
      else
        let number := BitVec.ofNat 32 (decimal digits)
        -- a negative number wraps around, which is no failure
        (⟨text, text.isEmpty, false⟩, if negative then -number else number)

/-! ## Commands -/

/-- Whether `CreateFile` returns a handle for a command, and whether the request
of `DeviceIoControl` reaches the driver. -/
structure Device where
  opens : Bool
  delivers : Bool
deriving DecidableEq, Repr

/-- `requests` are those that `DeviceIoControl` was called with. -/
structure State where
  cin : IStream
  command : String := ""
  isApplicationRunning : Bool := true
  driver : Protection.GlobalData
  requests : List Irp := []
deriving DecidableEq, Repr

abbrev Exception := String

/-- What a handler leaves, also when it throws. -/
abbrev Outcome := State × Except Exception Unit

def ioctlSendIoctl (device : Device) (ioctlCode : BitVec 32) (inputBuffer : List (BitVec 8)) (c : State) : Outcome :=
  if !device.opens then (c, .error "CreateFile failed")
  else
    let request : Irp := ⟨ioctlCode, inputBuffer⟩
    let c := { c with requests := c.requests ++ [request] }
    if !device.delivers then (c, .ok ())
    else ({ c with driver := (Protection.ioctlHandleIrpMjDeviceControl c.driver request).1 }, .ok ())

/-- The bytes of an `unsigned __int32`, the lowest first. -/
def uint32Bytes (value : BitVec 32) : List (BitVec 8) :=
  [value.extractLsb' 0 8, value.extractLsb' 8 8, value.extractLsb' 16 8, value.extractLsb' 24 8]

def protectProcessCommand (device : Device) (c : State) : Outcome :=
  let (cin, pid) := c.cin.extract 0
  ioctlSendIoctl device thirdIoctlCode (uint32Bytes pid) { c with cin := cin }

def exitCommand (c : State) : Outcome := ({ c with isApplicationRunning := false }, .ok ())

inductive Handler
  | printHelpCommand
  | startThreadPoolCommand
  | stopThreadPoolCommand
  | puDumpActiveProcessesToolHelp32Snapshot
  | puDumpActiveProcessesPsapi
  | puDumpActiveProcessesZwQuerySystemInformation
  | sendFirstIoctl
  | sendSecondIoctl
  | protectProcessCommand
  | rmtCreateRemoteThread
  | exitCommand
deriving DecidableEq, Repr

def availableCommands : List (String × Handler) :=
  [("Help", .printHelpCommand), ("Start", .startThreadPoolCommand), ("Stop", .stopThreadPoolCommand),
    ("DumpProcessesToolHelp32", .puDumpActiveProcessesToolHelp32Snapshot),
    ("DumpProcessesPsApi", .puDumpActiveProcessesPsapi),
    ("DumpProcessesZwQuerySystemInformation", .puDumpActiveProcessesZwQuerySystemInformation),
    ("SendFirstIoctl", .sendFirstIoctl), ("SendSecondIoctl", .sendSecondIoctl),
    ("ProtectProcess", .protectProcessCommand), ("CreateRemoteThread", .rmtCreateRemoteThread), ("Exit", .exitCommand)]

/-- What the handlers print, and the threads and processes that they create,
list or stop, are left out. -/
def Handler.execute (device : Device) (c : State) : Handler → Outcome
  | .sendFirstIoctl => ioctlSendIoctl device firstIoctlCode [] c
  | .sendSecondIoctl => ioctlSendIoctl device secondIoctlCode [] c
  | .protectProcessCommand => Console.protectProcessCommand device c
  | .exitCommand => Console.exitCommand c
  | .printHelpCommand | .startThreadPoolCommand | .stopThreadPoolCommand | .puDumpActiveProcessesToolHelp32Snapshot
  | .puDumpActiveProcessesPsapi | .puDumpActiveProcessesZwQuerySystemInformation | .rmtCreateRemoteThread => (c, .ok ())

/-- `CommandInterpreter::Execute`. An exception is caught and printed. -/
def execute (device : Device) (command : String) (c : State) : State :=
  match availableCommands.lookup command with
  | some handler => (handler.execute device c).1
  | none => c

/-! ## `main` -/

def turn (device : Device) (c : State) : State :=
  let (cin, command) := c.cin.getline c.command
  execute device command { c with cin := cin, command := command }

/-- The loop of `main`, unless it takes `fuel` rounds or more. Round `n` finds
the device as `devices n` says. -/
def loop (devices : ℕ → Device) : ℕ → State → Option State
  | 0, _ => none
  | fuel + 1, c => if c.isApplicationRunning then loop (fun n => devices (n + 1)) fuel (turn (devices 0) c) else some c

def main (text : List Char) (driver : Protection.GlobalData) (devices : ℕ → Device) (fuel : ℕ) : Option State :=
  loop devices fuel (execute (devices 0) "Help" { cin := ⟨text, false, false⟩, driver := driver })

end Dmsk.Console
