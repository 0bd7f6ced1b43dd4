import Dmsk.Nt
import Mathlib.Data.List.Basic

/-!
# Start of the minifilter

`DriverEntry` registers the filter, opens the communication port and starts the
filtering; what fails on the way is undone in three places. The calls to the
filter manager are recorded in their order. Clients connect and disconnect
while the server port is open; their callbacks and the destructor of `FltPort`
exclude each other by the lock of the port.
-/

namespace Dmsk.Minifilter

inductive Port
  | server
  | client (port : ℕ)
deriving DecidableEq, Repr

inductive Call
  | registerFilter (status : NtStatus)
  | buildDefaultSecurityDescriptor (status : NtStatus)
  | freeSecurityDescriptor
  | createCommunicationPort (status : NtStatus)
  /-- `ConnectNotifyCallback` has accepted a client. -/
  | connect (port : ℕ)
  | closeClientPort (port : ℕ)
  | closeCommunicationPort
  | startFiltering (status : NtStatus)
  | unregisterFilter
deriving DecidableEq, Repr

/-- What the calls that can fail return, and whether the port is allocated. -/
structure Outcomes where
  registerFilter : NtStatus
  allocation : Bool
  buildDefaultSecurityDescriptor : NtStatus
  createCommunicationPort : NtStatus
  startFiltering : NtStatus
deriving DecidableEq, Repr

inductive ClientEvent
  | connect (port : ℕ)
  | disconnect
deriving DecidableEq, Repr

/-- What the clients do after `FltCreateCommunicationPort`, `FltFreeSecurityDescriptor`,
`FltStartFiltering` and `FltUnregisterFilter`. -/
structure Clients where
  created : List ClientEvent
  constructed : List ClientEvent
  started : List ClientEvent
  unregistered : List ClientEvent
deriving DecidableEq, Repr

/-! ## `FltPort` -/

structure FltPort where
  clientPort : Option ℕ := none
  serverPort : Bool := false
  isValid : Bool := false
deriving DecidableEq, Repr

def FltPort.closeClientPort (port : FltPort) : FltPort × List Call :=
  match port.clientPort with
  | some client => ({ port with clientPort := none }, [.closeClientPort client])
  | none => (port, [])

def FltPort.closeServerPort (port : FltPort) : FltPort × List Call :=
  if port.serverPort then ({ port with serverPort := false }, [.closeCommunicationPort])
  else (port, [])

def FltPort.connectNotifyCallback (port : FltPort) (client : ℕ) : FltPort × NtStatus :=
  if port.clientPort.isSome then (port, statusAlreadyRegistered)
  else ({ port with clientPort := some client }, statusSuccess)

def FltPort.disconnectNotifyCallback (port : FltPort) : FltPort × List Call := port.closeClientPort

def FltPort.clientEvent (port : FltPort) : ClientEvent → FltPort × List Call
  | .connect client =>
    let (port, status) := port.connectNotifyCallback client
    (port, if ntSuccess status then [.connect client] else [])
  | .disconnect => port.disconnectNotifyCallback

/-- The events that an open server port lets through. -/
def FltPort.meanwhile (port : FltPort) : List ClientEvent → FltPort × List Call
  | [] => (port, [])
  | event :: events =>
    if port.serverPort then
      let (port, calls) := port.clientEvent event
      let (port, later) := port.meanwhile events
      (port, calls ++ later)
    else (port, [])

/-- `FltPort::FltPort`. -/
def FltPort.construct (outcomes : Outcomes) (clients : Clients) : FltPort × List Call :=
  let port : FltPort := {}
  let status := outcomes.buildDefaultSecurityDescriptor
  if !ntSuccess status then (port, [.buildDefaultSecurityDescriptor status])
  else
    let calls : List Call := [.buildDefaultSecurityDescriptor status, .createCommunicationPort outcomes.createCommunicationPort]
    if !ntSuccess outcomes.createCommunicationPort then (port, calls ++ [.freeSecurityDescriptor])
    else
      let (port, created) := { port with serverPort := true }.meanwhile clients.created
      let (port, constructed) := port.meanwhile clients.constructed
      ({ port with isValid := true }, calls ++ created ++ [.freeSecurityDescriptor] ++ constructed)

/-- `FltPort::~FltPort`. -/
def FltPort.destroy (port : FltPort) : List Call :=
  if !port.isValid then []
  else
    let (port, client) := port.closeClientPort
    let (_, server) := port.closeServerPort
    client ++ server

/-! ## `UniquePointer<FltPort>` -/

abbrev UniquePointer := Option FltPort

/-- `~UniquePointer`. -/
def UniquePointer.destroy : UniquePointer → UniquePointer × List Call
  | some port => (none, port.destroy)
  | none => (none, [])

/-- The old pointer goes to a temporary, which is destroyed. -/
def UniquePointer.update (pointer new : UniquePointer) : UniquePointer × List Call := (new, pointer.destroy.2)

def UniquePointer.reset (pointer : UniquePointer) : UniquePointer × List Call := pointer.update none

def UniquePointer.meanwhile (pointer : UniquePointer) (events : List ClientEvent) : UniquePointer × List Call :=
  match pointer with
  | some port =>
    let (port, calls) := port.meanwhile events
    (some port, calls)
  | none => (none, [])

/-! ## `DriverEntry` -/

structure Entry where
  status : NtStatus
  communicationPort : UniquePointer
  trace : List Call
deriving DecidableEq, Repr

def gdrvUninitGlobalData (pointer : UniquePointer) : UniquePointer × List Call := pointer.reset

/-- The static destructors include the one of `gDrvData`. -/
def cppUninitializeLib (pointer : UniquePointer) : UniquePointer × List Call := pointer.destroy

def exit (status : NtStatus) (pointer : UniquePointer) (trace : List Call) : Entry :=
  if !ntSuccess status then
    let (pointer, uninit) := gdrvUninitGlobalData pointer
    let (pointer, destructors) := cppUninitializeLib pointer
    ⟨status, pointer, trace ++ uninit ++ destructors⟩
  else ⟨status, pointer, trace⟩

def driverEntry (outcomes : Outcomes) (clients : Clients) : Entry :=
  let status := outcomes.registerFilter
  let trace : List Call := [.registerFilter status]
  if !ntSuccess status then exit status none trace
  else
    let (new, constructed) : UniquePointer × List Call :=
      if outcomes.allocation then
        let (port, calls) := FltPort.construct outcomes clients
        (some port, calls)
      else (none, [])
    let (pointer, replaced) := UniquePointer.update none new
    let trace := trace ++ constructed ++ replaced
    if !pointer.any (·.isValid) then
      -- the status is still the one of `FltRegisterFilter`
      exit status pointer (trace ++ [.unregisterFilter])
    else
      let status := outcomes.startFiltering
      let (pointer, started) := pointer.meanwhile clients.started
      let trace := trace ++ [.startFiltering status] ++ started
      if !ntSuccess status then
        let (pointer, unregistered) := pointer.meanwhile clients.unregistered
        exit status pointer (trace ++ [.unregisterFilter] ++ unregistered)
      else exit status pointer trace

end Dmsk.Minifilter
