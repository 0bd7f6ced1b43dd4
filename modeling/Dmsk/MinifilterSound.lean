import Dmsk.Minifilter
import Mathlib.Algebra.Order.Group.Nat

/-!
# When `DriverEntry` is all or nothing

A `DriverEntry` that fails closes every port it has opened, but after the filter
is unregistered when it is the filtering that does not start. When it is the
port that cannot be opened, the filter is unregistered and the status is still
that of its registration.
-/

namespace Dmsk.Minifilter

def Call.opens : Call → Option Port
  | .createCommunicationPort status => if ntSuccess status then some .server else none
  | .connect port => some (.client port)
  | _ => none

def Call.closes : Call → Option Port
  | .closeClientPort port => some (.client port)
  | .closeCommunicationPort => some .server
  | _ => none

def Call.usesFilter : Call → Bool
  | .createCommunicationPort _ | .closeClientPort _ | .startFiltering _ | .unregisterFilter => true
  | _ => false

def RegisterSucceeded (trace : List Call) : Prop := ∃ status, .registerFilter status ∈ trace ∧ ntSuccess status = true

/-- The filter is registered, its port is open and filtering has started. -/
structure Up (trace : List Call) : Prop where
  registered : RegisterSucceeded trace ∧ .unregisterFilter ∉ trace
  portOpen : (∃ status, .createCommunicationPort status ∈ trace ∧ ntSuccess status = true) ∧ .closeCommunicationPort ∉ trace
  filtering : ∃ status, .startFiltering status ∈ trace ∧ ntSuccess status = true

def opened (port : Port) (trace : List Call) : ℕ := trace.countP (·.opens = some port)

def closed (port : Port) (trace : List Call) : ℕ := trace.countP (·.closes = some port)

/-- Every port is closed as often as it was opened, the filter is unregistered
once if it was registered, and then neither it nor a port is used. -/
structure Undone (trace : List Call) : Prop where
  ports : ∀ port, closed port trace = opened port trace
  unregistered : RegisterSucceeded trace → trace.count .unregisterFilter = 1
  last : ∀ before after, trace = before ++ .unregisterFilter :: after →
    ∀ call ∈ after, call.usesFilter = false ∧ call.closes = none

structure AllOrNothing (entry : Entry) : Prop where
  success : ntSuccess entry.status = true ↔ Up entry.trace
  failure : ¬ Up entry.trace → ntSuccess entry.status = false ∧ Undone entry.trace

structure Outcomes.Succeed (o : Outcomes) : Prop where
  registerFilter : ntSuccess o.registerFilter = true
  allocation : o.allocation = true
  buildDefaultSecurityDescriptor : ntSuccess o.buildDefaultSecurityDescriptor = true
  createCommunicationPort : ntSuccess o.createCommunicationPort = true
  startFiltering : ntSuccess o.startFiltering = true

/-! ## What the clients do -/

def Call.isClient : Call → Bool
  | .connect _ | .closeClientPort _ => true
  | _ => false

theorem clientEvent_connect (port : FltPort) (client : ℕ) :
    port.clientEvent (.connect client) =
      if port.clientPort.isSome then (port, []) else ({ port with clientPort := some client }, [.connect client]) := by
  simp only [FltPort.clientEvent, FltPort.connectNotifyCallback]
  split <;> simp

theorem clientEvent_fields (port : FltPort) (event : ClientEvent) :
    (port.clientEvent event).1.serverPort = port.serverPort ∧ (port.clientEvent event).1.isValid = port.isValid ∧
      ∀ call ∈ (port.clientEvent event).2, call.isClient = true := by
  cases event with
  | connect client =>
    rw [clientEvent_connect]
    split
    · exact ⟨rfl, rfl, by simp⟩
    · exact ⟨rfl, rfl, by simp [Call.isClient]⟩
  | disconnect =>
    simp only [FltPort.clientEvent, FltPort.disconnectNotifyCallback, FltPort.closeClientPort]
    split
    · exact ⟨rfl, rfl, by simp [Call.isClient]⟩
    · exact ⟨rfl, rfl, by simp⟩

theorem meanwhile_fields (port : FltPort) (events : List ClientEvent) :
    (port.meanwhile events).1.serverPort = port.serverPort ∧ (port.meanwhile events).1.isValid = port.isValid ∧
      ∀ call ∈ (port.meanwhile events).2, call.isClient = true := by
  induction events generalizing port with
  | nil => exact ⟨rfl, rfl, by simp [FltPort.meanwhile]⟩
  | cons event events ih =>
    simp only [FltPort.meanwhile]
    split
    · obtain ⟨hs, hv, hc⟩ := clientEvent_fields port event
      obtain ⟨hs', hv', hc'⟩ := ih (port.clientEvent event).1
      refine ⟨hs'.trans hs, hv'.trans hv, ?_⟩
      intro call hm
      rcases List.mem_append.mp hm with hm | hm
      · exact hc call hm
      · exact hc' call hm
    · exact ⟨rfl, rfl, by simp⟩

/-! ## Ports opened and closed -/

@[simp] theorem opened_append (port : Port) (a b : List Call) : opened port (a ++ b) = opened port a + opened port b :=
  List.countP_append ..

@[simp] theorem closed_append (port : Port) (a b : List Call) : closed port (a ++ b) = closed port a + closed port b :=
  List.countP_append ..

def FltPort.holds (port : FltPort) : Port → ℕ
  | .server => if port.serverPort then 1 else 0
  | .client c => if port.clientPort = some c then 1 else 0

theorem closeClientPort_balance (port : FltPort) (q : Port) :
    closed q port.closeClientPort.2 + port.closeClientPort.1.holds q = opened q port.closeClientPort.2 + port.holds q := by
  unfold FltPort.closeClientPort
  cases h : port.clientPort with
  | none => simp [closed, opened]
  | some client =>
    cases q with
    | server => simp [closed, opened, Call.closes, Call.opens, FltPort.holds]
    | client c => by_cases hc : client = c <;> simp [closed, opened, Call.closes, Call.opens, FltPort.holds, h, hc]

theorem closeServerPort_balance (port : FltPort) (q : Port) :
    closed q port.closeServerPort.2 + port.closeServerPort.1.holds q = opened q port.closeServerPort.2 + port.holds q := by
  unfold FltPort.closeServerPort
  cases h : port.serverPort with
  | false => simp [closed, opened]
  | true => cases q <;> simp [closed, opened, Call.closes, Call.opens, FltPort.holds, h]

theorem clientEvent_balance (port : FltPort) (event : ClientEvent) (q : Port) :
    closed q (port.clientEvent event).2 + (port.clientEvent event).1.holds q =
      opened q (port.clientEvent event).2 + port.holds q := by
  cases event with
  | connect client =>
    rw [clientEvent_connect]
    split
    · rfl
    · rename_i hnone
      have hp : port.clientPort = none := by simpa using hnone
      cases q with
      | server => simp [closed, opened, Call.closes, Call.opens, FltPort.holds]
      | client c => by_cases hc : client = c <;> simp [closed, opened, Call.closes, Call.opens, FltPort.holds, hp, hc]
  | disconnect => exact closeClientPort_balance port q

theorem meanwhile_balance (port : FltPort) (events : List ClientEvent) (q : Port) :
    closed q (port.meanwhile events).2 + (port.meanwhile events).1.holds q =
      opened q (port.meanwhile events).2 + port.holds q := by
  induction events generalizing port with
  | nil => rfl
  | cons event events ih =>
    simp only [FltPort.meanwhile]
    split
    · have hone := clientEvent_balance port event q
      have hrest := ih (port.clientEvent event).1
      simp only [opened_append, closed_append]
      omega
    · rfl

section
variable {o : Outcomes} (clients : Clients)

theorem construct_unbuilt (hb : ntSuccess o.buildDefaultSecurityDescriptor = false) :
    FltPort.construct o clients = ({}, [.buildDefaultSecurityDescriptor o.buildDefaultSecurityDescriptor]) := by
  simp [FltPort.construct, hb]

theorem construct_uncreated (hb : ntSuccess o.buildDefaultSecurityDescriptor = true)
    (hc : ntSuccess o.createCommunicationPort = false) :
    FltPort.construct o clients = ({}, [.buildDefaultSecurityDescriptor o.buildDefaultSecurityDescriptor,
      .createCommunicationPort o.createCommunicationPort, .freeSecurityDescriptor]) := by
  simp [FltPort.construct, hb, hc]

def createdPort : FltPort :=
  (({ serverPort := true : FltPort }.meanwhile clients.created).1.meanwhile clients.constructed).1

def createdCalls : List Call :=
  ({ serverPort := true : FltPort }.meanwhile clients.created).2 ++ [.freeSecurityDescriptor] ++
    (({ serverPort := true : FltPort }.meanwhile clients.created).1.meanwhile clients.constructed).2

theorem construct_created (hb : ntSuccess o.buildDefaultSecurityDescriptor = true)
    (hc : ntSuccess o.createCommunicationPort = true) :
    FltPort.construct o clients = ({ createdPort clients with isValid := true },
      [.buildDefaultSecurityDescriptor o.buildDefaultSecurityDescriptor,
        .createCommunicationPort o.createCommunicationPort] ++ createdCalls clients) := by
  simp [FltPort.construct, createdPort, createdCalls, hb, hc]

end

theorem created_balance (clients : Clients) (q : Port) :
    closed q (createdCalls clients) + (createdPort clients).holds q =
      opened q (createdCalls clients) + FltPort.holds { serverPort := true } q := by
  have hcreated := meanwhile_balance { serverPort := true } clients.created q
  have hconstructed := meanwhile_balance ({ serverPort := true : FltPort }.meanwhile clients.created).1 clients.constructed q
  have hfree : closed q [.freeSecurityDescriptor] = 0 ∧ opened q [.freeSecurityDescriptor] = 0 := ⟨rfl, rfl⟩
  unfold createdCalls createdPort
  simp only [closed_append, opened_append]
  omega

theorem construct_balance (o : Outcomes) (clients : Clients) (q : Port) :
    closed q (FltPort.construct o clients).2 + (FltPort.construct o clients).1.holds q =
      opened q (FltPort.construct o clients).2 := by
  have hnew : ({} : FltPort).holds q = 0 := by cases q <;> rfl
  cases hb : ntSuccess o.buildDefaultSecurityDescriptor with
  | false =>
    rw [construct_unbuilt clients hb, hnew]
    rfl
  | true =>
    cases hc : ntSuccess o.createCommunicationPort with
    | false =>
      rw [construct_uncreated clients hb hc, hnew]
      simp [closed, opened, Call.closes, Call.opens, hc]
    | true =>
      rw [construct_created clients hb hc]
      have hcalls : closed q [.buildDefaultSecurityDescriptor o.buildDefaultSecurityDescriptor,
            .createCommunicationPort o.createCommunicationPort] = 0 ∧
          opened q [.buildDefaultSecurityDescriptor o.buildDefaultSecurityDescriptor,
            .createCommunicationPort o.createCommunicationPort] = FltPort.holds { serverPort := true } q := by
        refine ⟨rfl, ?_⟩
        cases q <;> simp [opened, Call.opens, FltPort.holds, hc]
      have hcreated := created_balance clients q
      simp only [closed_append, opened_append]
      change _ + (createdPort clients).holds q = _
      omega

theorem destroy_balance (port : FltPort) (hv : port.isValid = true) (q : Port) :
    closed q port.destroy = opened q port.destroy + port.holds q := by
  have hclient := closeClientPort_balance port q
  have hserver := closeServerPort_balance port.closeClientPort.1 q
  have hnone : port.closeClientPort.1.closeServerPort.1.holds q = 0 := by
    cases port with
    | mk client server valid => cases client <;> cases server <;> cases q <;> rfl
  unfold FltPort.destroy
  rw [hv]
  simp only [Bool.not_true, Bool.false_eq_true, if_false, opened_append, closed_append]
  omega

/-! ## The four ways through `DriverEntry` -/

section
variable {o : Outcomes} (clients : Clients)

theorem entry_unregistered (hr : ntSuccess o.registerFilter = false) :
    driverEntry o clients = ⟨o.registerFilter, none, [.registerFilter o.registerFilter]⟩ := by
  simp [driverEntry, exit, gdrvUninitGlobalData, cppUninitializeLib, UniquePointer.reset, UniquePointer.update,
    UniquePointer.destroy, hr]

def startedPort (o : Outcomes) : FltPort := ((FltPort.construct o clients).1.meanwhile clients.started).1

def startedCalls (o : Outcomes) : List Call :=
  [.registerFilter o.registerFilter] ++ (FltPort.construct o clients).2 ++ [.startFiltering o.startFiltering] ++
    ((FltPort.construct o clients).1.meanwhile clients.started).2

theorem entry_started (hr : ntSuccess o.registerFilter = true) (ha : o.allocation = true)
    (hv : (FltPort.construct o clients).1.isValid = true) (hs : ntSuccess o.startFiltering = true) :
    driverEntry o clients = ⟨o.startFiltering, some (startedPort clients o), startedCalls clients o⟩ := by
  simp [driverEntry, exit, UniquePointer.update, UniquePointer.destroy, UniquePointer.meanwhile, startedPort, startedCalls,
    hr, ha, hv, hs]

theorem entry_unstarted (hr : ntSuccess o.registerFilter = true) (ha : o.allocation = true)
    (hv : (FltPort.construct o clients).1.isValid = true) (hs : ntSuccess o.startFiltering = false) :
    driverEntry o clients = ⟨o.startFiltering, none, startedCalls clients o ++ [.unregisterFilter] ++
      ((startedPort clients o).meanwhile clients.unregistered).2 ++
        ((startedPort clients o).meanwhile clients.unregistered).1.destroy⟩ := by
  simp [driverEntry, exit, gdrvUninitGlobalData, cppUninitializeLib, UniquePointer.reset, UniquePointer.update,
    UniquePointer.destroy, UniquePointer.meanwhile, startedPort, startedCalls, hr, ha, hv, hs]

def portlessCalls (o : Outcomes) : List Call :=
  .registerFilter o.registerFilter :: if o.allocation then (FltPort.construct o clients).2 else []

theorem entry_portless (hr : ntSuccess o.registerFilter = true)
    (hv : o.allocation = true → (FltPort.construct o clients).1.isValid = false) :
    (driverEntry o clients).status = o.registerFilter ∧
      (driverEntry o clients).trace = portlessCalls clients o ++ [.unregisterFilter] := by
  cases ha : o.allocation with
  | false => simp [driverEntry, exit, UniquePointer.update, UniquePointer.destroy, portlessCalls, hr, ha]
  | true => simp [driverEntry, exit, UniquePointer.update, UniquePointer.destroy, portlessCalls, hr, ha, hv ha]

end

/-! ## What holds of every entry -/

theorem construct_valid (o : Outcomes) (clients : Clients) : (FltPort.construct o clients).1.isValid = true ↔
    ntSuccess o.buildDefaultSecurityDescriptor = true ∧ ntSuccess o.createCommunicationPort = true := by
  cases hb : ntSuccess o.buildDefaultSecurityDescriptor with
  | false => simp [construct_unbuilt clients hb]
  | true =>
    cases hc : ntSuccess o.createCommunicationPort with
    | false => simp [construct_uncreated clients hb hc]
    | true => simp [construct_created clients hb hc]

/-- A failing entry closes every port as often as it was opened. -/
theorem failure_closes_ports (o : Outcomes) (clients : Clients) (h : ntSuccess (driverEntry o clients).status = false)
    (q : Port) : closed q (driverEntry o clients).trace = opened q (driverEntry o clients).trace := by
  cases hr : ntSuccess o.registerFilter with
  | false =>
    rw [entry_unregistered clients hr]
    rfl
  | true =>
    by_cases hv : o.allocation = true → (FltPort.construct o clients).1.isValid = false
    · rw [(entry_portless clients hr hv).1, hr] at h
      cases h
    · simp only [Classical.not_imp, Bool.not_eq_false] at hv
      obtain ⟨ha, hv⟩ := hv
      cases hs : ntSuccess o.startFiltering with
      | true =>
        rw [entry_started clients hr ha hv hs, hs] at h
        cases h
      | false =>
        rw [entry_unstarted clients hr ha hv hs]
        have hmade := construct_balance o clients q
        have hstarted := meanwhile_balance (FltPort.construct o clients).1 clients.started q
        have hmeanwhile := meanwhile_balance (startedPort clients o) clients.unregistered q
        have hvalid : ((startedPort clients o).meanwhile clients.unregistered).1.isValid = true := by
          rw [(meanwhile_fields _ _).2.1, startedPort, (meanwhile_fields _ _).2.1, hv]
        have hdestroy := destroy_balance _ hvalid q
        have hnone : ∀ call : Call, call.opens = none → call.closes = none → closed q [call] = 0 ∧ opened q [call] = 0 := by
          intro call ho hc
          simp [closed, opened, ho, hc]
        have hregister := hnone (.registerFilter o.registerFilter) rfl rfl
        have hstart := hnone (.startFiltering o.startFiltering) rfl rfl
        have hunregister := hnone .unregisterFilter rfl rfl
        simp only [startedCalls, closed_append, opened_append]
        change _ + (startedPort clients o).holds q = _ at hstarted
        omega

theorem mem_startedCalls {o : Outcomes} {clients : Clients} (hb : ntSuccess o.buildDefaultSecurityDescriptor = true)
    (hc : ntSuccess o.createCommunicationPort = true) {call : Call} (h : call ∈ startedCalls clients o) :
    call ∈ [.registerFilter o.registerFilter, .buildDefaultSecurityDescriptor o.buildDefaultSecurityDescriptor,
      .createCommunicationPort o.createCommunicationPort, .freeSecurityDescriptor, .startFiltering o.startFiltering] ∨
      call.isClient = true := by
  unfold startedCalls at h
  rw [construct_created clients hb hc] at h
  simp only [createdCalls, List.mem_append] at h
  rcases h with ((h | h | (h | h) | h) | h) | h
  · exact .inl (by simp at h ⊢; tauto)
  · exact .inl (by simp at h ⊢; tauto)
  · exact .inr ((meanwhile_fields _ _).2.2 _ h)
  · exact .inl (by simp at h ⊢; tauto)
  · exact .inr ((meanwhile_fields _ _).2.2 _ h)
  · exact .inl (by simp at h ⊢; tauto)
  · exact .inr ((meanwhile_fields _ _).2.2 _ h)

theorem up_of_succeed {o : Outcomes} (clients : Clients) (h : o.Succeed) : Up (startedCalls clients o) := by
  have hmem := @mem_startedCalls o clients h.buildDefaultSecurityDescriptor h.createCommunicationPort
  refine ⟨⟨⟨_, ?_, h.registerFilter⟩, ?_⟩, ⟨⟨_, ?_, h.createCommunicationPort⟩, ?_⟩, _, ?_, h.startFiltering⟩
  · simp [startedCalls]
  · intro hu
    simpa [Call.isClient] using hmem hu
  · simp [startedCalls, construct_created clients h.buildDefaultSecurityDescriptor h.createCommunicationPort]
  · intro hu
    simpa [Call.isClient] using hmem hu
  · simp [startedCalls]

theorem closes_server {port : FltPort} (hv : port.isValid = true) (hs : port.serverPort = true) :
    .closeCommunicationPort ∈ port.destroy := by
  cases port with
  | mk client server valid =>
    cases hv
    cases hs
    cases client <;> simp [FltPort.destroy, FltPort.closeClientPort, FltPort.closeServerPort]

theorem not_undone_of_late_close {before after : List Call} (h : .closeCommunicationPort ∈ after) :
    ¬ Undone (before ++ [.unregisterFilter] ++ after) := by
  intro hu
  have hlast := hu.last before after (by simp) _ h
  cases hlast.2

theorem all_or_nothing_unregistered {o : Outcomes} (clients : Clients) (hr : ntSuccess o.registerFilter = false) :
    AllOrNothing (driverEntry o clients) := by
  rw [entry_unregistered clients hr]
  have hdown : ¬ RegisterSucceeded [.registerFilter o.registerFilter] := by
    intro hex
    obtain ⟨status, hmem, hs⟩ := hex
    simp only [List.mem_singleton, Call.registerFilter.injEq] at hmem
    rw [hmem, hr] at hs
    cases hs
  refine ⟨?_, fun _ => ⟨hr, fun _ => rfl, fun h => absurd h hdown, ?_⟩⟩
  · simp only [hr]
    exact iff_of_false (by simp) fun h => hdown h.registered.1
  · intro before after h
    have hmem : Call.unregisterFilter ∈ before ++ .unregisterFilter :: after := by simp
    rw [← h] at hmem
    simp at hmem

theorem all_or_nothing_succeed {o : Outcomes} (clients : Clients) (h : o.Succeed) :
    AllOrNothing (driverEntry o clients) := by
  have hv := (construct_valid o clients).mpr ⟨h.buildDefaultSecurityDescriptor, h.createCommunicationPort⟩
  rw [entry_started clients h.registerFilter h.allocation hv h.startFiltering]
  have hup := up_of_succeed clients h
  exact ⟨iff_of_true h.startFiltering hup, fun hn => absurd hup hn⟩

/-- The status tells of success and the filter is unregistered. -/
theorem not_all_or_nothing_portless {o : Outcomes} (clients : Clients) (hr : ntSuccess o.registerFilter = true)
    (hv : o.allocation = true → (FltPort.construct o clients).1.isValid = false) : ¬ AllOrNothing (driverEntry o clients) := by
  obtain ⟨hstatus, htrace⟩ := entry_portless clients hr hv
  intro h
  have hup := h.success.mp (by rw [hstatus, hr])
  rw [htrace] at hup
  exact hup.registered.2 (by simp)

/-- The server port is closed after the filter is unregistered. -/
theorem not_all_or_nothing_unstarted {o : Outcomes} (clients : Clients) (hr : ntSuccess o.registerFilter = true)
    (ha : o.allocation = true) (hv : (FltPort.construct o clients).1.isValid = true)
    (hs : ntSuccess o.startFiltering = false) : ¬ AllOrNothing (driverEntry o clients) := by
  obtain ⟨hb, hc⟩ := (construct_valid o clients).mp hv
  rw [entry_unstarted clients hr ha hv hs]
  intro h
  have hdown : ¬ Up (startedCalls clients o ++ [.unregisterFilter] ++
      ((startedPort clients o).meanwhile clients.unregistered).2 ++
        ((startedPort clients o).meanwhile clients.unregistered).1.destroy) :=
    fun hup => hup.registered.2 (by simp)
  have hundone := (h.failure hdown).2
  rw [List.append_assoc] at hundone
  refine not_undone_of_late_close (List.mem_append_right _ (closes_server ?_ ?_)) hundone
  · rw [(meanwhile_fields _ _).2.1, startedPort, (meanwhile_fields _ _).2.1, hv]
  · rw [(meanwhile_fields _ _).1, startedPort, (meanwhile_fields _ _).1, construct_created clients hb hc]
    change (createdPort clients).serverPort = true
    rw [createdPort, (meanwhile_fields _ _).1, (meanwhile_fields _ _).1]

/-- **All or nothing**, unless something fails after the registration. -/
theorem entry_all_or_nothing_iff (o : Outcomes) (clients : Clients) :
    AllOrNothing (driverEntry o clients) ↔ ntSuccess o.registerFilter = false ∨ o.Succeed := by
  constructor
  · intro h
    by_contra hn
    simp only [not_or, Bool.not_eq_false] at hn
    obtain ⟨hr, hn⟩ := hn
    by_cases hv : o.allocation = true → (FltPort.construct o clients).1.isValid = false
    · exact not_all_or_nothing_portless clients hr hv h
    · simp only [Classical.not_imp, Bool.not_eq_false] at hv
      obtain ⟨ha, hv⟩ := hv
      obtain ⟨hb, hc⟩ := (construct_valid o clients).mp hv
      cases hs : ntSuccess o.startFiltering with
      | true => exact hn ⟨hr, ha, hb, hc, hs⟩
      | false => exact not_all_or_nothing_unstarted clients hr ha hv hs h
  · intro hor
    rcases hor with h | h
    · exact all_or_nothing_unregistered clients h
    · exact all_or_nothing_succeed clients h

/-- The port is not allocated; the filtering does not start. -/
theorem entry_neither_all_nor_nothing :
    ¬ AllOrNothing (driverEntry ⟨statusSuccess, false, statusSuccess, statusSuccess, statusSuccess⟩ ⟨[], [], [], []⟩) ∧
      ¬ AllOrNothing (driverEntry ⟨statusSuccess, true, statusSuccess, statusSuccess, statusNotSupported⟩ ⟨[], [], [], []⟩) :=
  ⟨not_all_or_nothing_portless _ (by decide) (by decide), not_all_or_nothing_unstarted _ (by decide) rfl (by decide) (by decide)⟩

end Dmsk.Minifilter
