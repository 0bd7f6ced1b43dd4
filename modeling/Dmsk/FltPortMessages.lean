import Dmsk.Minifilter
import Dmsk.Transition

/-!
# Messages to the minifilter

A message of a connected client goes to the callback that the constructor of
`FltPort` was given and that nothing replaces. The constructor's only caller,
`DriverEntry`, gives it a null pointer, and the message path does not look.
-/

namespace Dmsk.Minifilter

structure Message where
  inputBuffer : Option (List (BitVec 8))
  inputBufferLength : BitVec 32
  outputBuffer : Option (List (BitVec 8))
  outputBufferLength : BitVec 32
deriving DecidableEq, Repr

/-- `PFUNC_OnMessageCallback`: the status and the length of the answer. -/
abbrev OnMessageCallback := Message → NtStatus × BitVec 32

inductive Reply
  | returned (status : NtStatus) (returnOutputBufferLength : BitVec 32)
  /-- The driver has called through a null pointer. -/
  | nullCall
deriving DecidableEq, Repr

/-- `FltPort` with the field that the messages need. -/
structure MessagePort extends FltPort where
  onMessageCallback : Option OnMessageCallback

def MessagePort.messageNotifyCallback (port : MessagePort) (message : Message) : Reply :=
  match port.onMessageCallback with
  | some callback =>
    let (status, length) := callback message
    .returned status length
  | none => .nullCall

/-- The filter after `DriverEntry`; `connections` are the clients accepted and
not disconnected. -/
structure Filtering where
  communicationPort : Option MessagePort
  connections : List ℕ
  replies : List Reply

inductive FilteringAct
  | connect (client : ℕ)
  | disconnect (client : ℕ)
  | message (client : ℕ) (message : Message)
deriving DecidableEq, Repr

def FilteringAct.isMessage : FilteringAct → Bool
  | .message _ _ => true
  | _ => false

/-- The port that `DriverEntry` leaves. Its constructor sets the callback to the
argument, `nullptr`, and no other code writes to it. -/
def entryPort (outcomes : Outcomes) (clients : Clients) : Option MessagePort :=
  (driverEntry outcomes clients).communicationPort.map fun port => { port with onMessageCallback := none }

/-- A client that came while the driver was starting may be connected already. -/
def entered (outcomes : Outcomes) (clients : Clients) : Filtering where
  communicationPort := entryPort outcomes clients
  connections := ((entryPort outcomes clients).bind fun port => port.clientPort).toList
  replies := []

/-- Nothing runs any more after a call through a null pointer. -/
def filteringStep (s : Filtering) (a : FilteringAct) : Option Filtering :=
  if .nullCall ∈ s.replies then none
  else
    s.communicationPort.bind fun port =>
      match a with
      | .connect client =>
        if port.serverPort ∧ client ∉ s.connections then
          let (port', status) := port.connectNotifyCallback client
          some { s with
            communicationPort := some { port with toFltPort := port' }
            connections := if ntSuccess status then client :: s.connections else s.connections }
        else none
      | .disconnect client =>
        if client ∈ s.connections then
          let (port', _) := port.disconnectNotifyCallback
          some { s with
            communicationPort := some { port with toFltPort := port' }
            connections := s.connections.erase client }
        else none
      | .message client message =>
        if client ∈ s.connections then some { s with replies := s.replies ++ [port.messageNotifyCallback message] }
        else none

def filtering : System Filtering FilteringAct where
  init s := ∃ outcomes clients, ntSuccess (driverEntry outcomes clients).status = true ∧ s = entered outcomes clients
  step := filteringStep

/-- Every message was answered by a callback. -/
def Delivered (s : Filtering) : Prop := ∀ r ∈ s.replies, r ≠ .nullCall

/-! ## The callback stays null -/

variable {s t : Filtering}

def NullCallback (s : Filtering) : Prop := ∀ port, s.communicationPort = some port → port.onMessageCallback = none

theorem nullCallback_entered (outcomes : Outcomes) (clients : Clients) : NullCallback (entered outcomes clients) := by
  intro port hport
  obtain ⟨_, -, rfl⟩ := Option.map_eq_some_iff.mp hport
  rfl

theorem step_replies {a : FilteringAct} (hs : NullCallback s) (h : filteringStep s a = some t) :
    NullCallback t ∧ t.replies = s.replies ++ if a.isMessage then [.nullCall] else [] := by
  unfold filteringStep at h
  split at h
  · cases h
  obtain ⟨port, hport, h⟩ := Option.bind_eq_some_iff.mp h
  have hnull := hs port hport
  cases a with
  | connect client =>
    dsimp only at h
    split at h <;> cases h
    refine ⟨?_, (List.append_nil _).symm⟩
    intro port' hport'
    cases hport'
    exact hnull
  | disconnect client =>
    dsimp only at h
    split at h <;> cases h
    refine ⟨?_, (List.append_nil _).symm⟩
    intro port' hport'
    cases hport'
    exact hnull
  | message client message =>
    dsimp only at h
    split at h <;> cases h
    refine ⟨hs, ?_⟩
    unfold MessagePort.messageNotifyCallback
    rw [hnull]
    rfl

/-- Along a run every message is a call through the null pointer. -/
theorem exec_replies : ∀ (as : List FilteringAct) {s t : Filtering}, NullCallback s →
    filtering.exec (fun _ _ => True) s as = some t →
      t.replies = s.replies ++ List.replicate (as.countP FilteringAct.isMessage) .nullCall
  | [], s, t, _, h => by
    cases h
    exact (List.append_nil _).symm
  | a :: as, s, t, hs, h => by
    simp only [System.exec, if_true] at h
    obtain ⟨u, hu, h⟩ := Option.bind_eq_some_iff.mp h
    obtain ⟨hnull, hreplies⟩ := step_replies hs hu
    rw [exec_replies as hnull h, hreplies, List.append_assoc, List.countP_cons]
    cases a.isMessage with
    | true => rw [if_pos rfl, if_pos rfl, Nat.add_comm, List.replicate_add]; rfl
    | false => rw [if_neg (by simp), if_neg (by simp)]; rfl

/-- **Messages** are delivered along a run of the started driver if and only if
the run has none: the first message that a client sends is a call through a null
pointer. -/
theorem delivered_iff (s₀ : Filtering) (h0 : filtering.init s₀) (as : List FilteringAct) (s : Filtering)
    (h : filtering.exec (fun _ _ => True) s₀ as = some s) : Delivered s ↔ ∀ a ∈ as, a.isMessage = false := by
  obtain ⟨outcomes, clients, -, rfl⟩ := h0
  have hreplies : s.replies = List.replicate (as.countP FilteringAct.isMessage) .nullCall :=
    exec_replies as (nullCallback_entered outcomes clients) h
  have hcount : (∀ a ∈ as, a.isMessage = false) ↔ as.countP FilteringAct.isMessage = 0 := by
    rw [List.countP_eq_zero]
    simp
  have hlength : s.replies.length = as.countP FilteringAct.isMessage := by rw [hreplies, List.length_replicate]
  rw [hcount, ← hlength, List.length_eq_zero_iff]
  constructor
  · intro hd
    refine List.eq_nil_iff_forall_not_mem.mpr fun r hr => hd r hr ?_
    rw [hreplies] at hr
    exact List.eq_of_mem_replicate hr
  · intro hnil r hr
    rw [hnil] at hr
    cases hr

def allSucceed : Outcomes := ⟨statusSuccess, true, statusSuccess, statusSuccess, statusSuccess⟩

def noClients : Clients := ⟨[], [], [], []⟩

def emptyMessage : Message := ⟨none, 0, none, 0⟩

theorem allSucceed_init : filtering.init (entered allSucceed noClients) := ⟨allSucceed, noClients, by decide, rfl⟩

theorem delivered_without_message : ∃ s, filtering.exec (fun _ _ => True) (entered allSucceed noClients)
    [.connect 7, .connect 8, .disconnect 7] = some s ∧ Delivered s :=
  ⟨_, rfl, (delivered_iff _ allSucceed_init [.connect 7, .connect 8, .disconnect 7] _ rfl).mpr (by decide)⟩

theorem first_message_calls_null : ¬ ∀ s, filtering.Reachable s → Delivered s := by
  intro h
  have hrun : filtering.exec (fun _ _ => True) (entered allSucceed noClients) [.connect 7, .message 7 emptyMessage] =
      some { communicationPort := some { clientPort := some 7, serverPort := true, isValid := true, onMessageCallback := none }
             connections := [7]
             replies := [.nullCall] } := rfl
  exact h _ (System.reach_of_exec allSucceed_init _ hrun) .nullCall (List.mem_singleton_self _) rfl

end Dmsk.Minifilter
