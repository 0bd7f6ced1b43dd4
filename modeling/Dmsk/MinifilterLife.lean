import Dmsk.MinifilterSound

/-!
# The minifilter from its start to its unload

What a successful `DriverEntry` has opened, and what clients open while the
filter runs, is closed by `DriverUnload`, before it unregisters the filter.
-/

namespace Dmsk.Minifilter

def driverUnload (pointer : UniquePointer) : List Call :=
  let (pointer, uninit) := gdrvUninitGlobalData pointer
  let (_, destructors) := cppUninitializeLib pointer
  uninit ++ destructors ++ [.unregisterFilter]

/-- `running` is what the clients do after `DriverEntry`. -/
def life (outcomes : Outcomes) (clients : Clients) (running : List ClientEvent) : List Call :=
  let entry := driverEntry outcomes clients
  let (pointer, calls) := entry.communicationPort.meanwhile running
  entry.trace ++ calls ++ driverUnload pointer

theorem driverUnload_some (port : FltPort) : driverUnload (some port) = port.destroy ++ [.unregisterFilter] := by
  simp [driverUnload, gdrvUninitGlobalData, cppUninitializeLib, UniquePointer.reset, UniquePointer.update,
    UniquePointer.destroy]

variable {o : Outcomes} (clients : Clients) (running : List ClientEvent)

/-- The port when `DriverUnload` begins. -/
def runningPort (o : Outcomes) : FltPort := ((startedPort clients o).meanwhile running).1

def runningCalls (o : Outcomes) : List Call := startedCalls clients o ++ ((startedPort clients o).meanwhile running).2

theorem life_succeed (h : o.Succeed) :
    life o clients running = runningCalls clients running o ++ (runningPort clients running o).destroy ++ [.unregisterFilter] := by
  have hv := (construct_valid o clients).mpr ⟨h.buildDefaultSecurityDescriptor, h.createCommunicationPort⟩
  unfold life
  rw [entry_started clients h.registerFilter h.allocation hv h.startFiltering]
  show startedCalls clients o ++ _ ++ driverUnload (some (runningPort clients running o)) = _
  rw [driverUnload_some, ← List.append_assoc]
  rfl

theorem runningPort_fields (h : o.Succeed) :
    (runningPort clients running o).isValid = true ∧ (runningPort clients running o).serverPort = true := by
  have hconstructed := construct_created clients h.buildDefaultSecurityDescriptor h.createCommunicationPort
  have hv := (construct_valid o clients).mpr ⟨h.buildDefaultSecurityDescriptor, h.createCommunicationPort⟩
  refine ⟨?_, ?_⟩
  · rw [runningPort, (meanwhile_fields _ _).2.1, startedPort, (meanwhile_fields _ _).2.1, hv]
  · rw [runningPort, (meanwhile_fields _ _).1, startedPort, (meanwhile_fields _ _).1, hconstructed]
    show (createdPort clients).serverPort = true
    rw [createdPort, (meanwhile_fields _ _).1, (meanwhile_fields _ _).1]

theorem running_balance (o : Outcomes) (q : Port) :
    closed q (runningCalls clients running o) + (runningPort clients running o).holds q = opened q (runningCalls clients running o) := by
  have hconstructed := construct_balance o clients q
  have hstarted := meanwhile_balance (FltPort.construct o clients).1 clients.started q
  have hrunning := meanwhile_balance (startedPort clients o) running q
  have hcalls : ∀ a b : NtStatus, closed q [.registerFilter a] = 0 ∧ opened q [.registerFilter a] = 0 ∧
      closed q [.startFiltering b] = 0 ∧ opened q [.startFiltering b] = 0 := fun _ _ => ⟨rfl, rfl, rfl, rfl⟩
  have hcalls := hcalls o.registerFilter o.startFiltering
  unfold runningCalls startedCalls runningPort
  simp only [closed_append, opened_append]
  change closed q _ + (startedPort clients o).holds q = _ at hstarted
  omega

/-- The client's port is closed before the server's. -/
theorem destroy_eq {port : FltPort} (hv : port.isValid = true) (hs : port.serverPort = true) :
    port.destroy = port.clientPort.toList.map Call.closeClientPort ++ [.closeCommunicationPort] := by
  obtain ⟨client, server, valid⟩ := port
  cases hv
  cases hs
  cases client <;> rfl

theorem mem_runningCalls (h : o.Succeed) {call : Call} (hm : call ∈ runningCalls clients running o) :
    call ∈ [.registerFilter o.registerFilter, .buildDefaultSecurityDescriptor o.buildDefaultSecurityDescriptor,
      .createCommunicationPort o.createCommunicationPort, .freeSecurityDescriptor, .startFiltering o.startFiltering] ∨
      call.isClient = true := by
  unfold runningCalls at hm
  rcases List.mem_append.mp hm with hm | hm
  · exact mem_startedCalls h.buildDefaultSecurityDescriptor h.createCommunicationPort hm
  · exact .inr ((meanwhile_fields _ _).2.2 _ hm)

theorem last_of_not_mem {L before after : List Call} {call : Call} (hL : call ∉ L) (h : L ++ [call] = before ++ call :: after) :
    after = [] := by
  rcases List.eq_nil_or_concat' after with rfl | ⟨after, last, rfl⟩
  · rfl
  · rw [← List.cons_append, ← List.append_assoc] at h
    obtain ⟨rfl, -⟩ := List.append_inj' h rfl
    exact absurd (by simp) hL

/-- **The minifilter's life.** After a `DriverEntry` in which nothing failed, and whatever the clients do before and after it,
`DriverUnload` closes the port of the client that is left, the server port and then the filter, and with that every port
is closed as often as it was opened. -/
theorem life_released (h : o.Succeed) : (driverEntry o clients).status = o.startFiltering ∧ Undone (life o clients running) ∧
    ∃ calls, life o clients running = calls ++ (runningPort clients running o).clientPort.toList.map Call.closeClientPort ++
        [.closeCommunicationPort, .unregisterFilter] ∧
      .closeCommunicationPort ∉ calls ∧ .unregisterFilter ∉ calls := by
  have hv := (construct_valid o clients).mpr ⟨h.buildDefaultSecurityDescriptor, h.createCommunicationPort⟩
  obtain ⟨hvalid, hserver⟩ := runningPort_fields clients running h
  have hdestroy := destroy_eq hvalid hserver
  have hnot : .unregisterFilter ∉ runningCalls clients running o ++ (runningPort clients running o).destroy := by
    rw [hdestroy, List.mem_append, not_or]
    refine ⟨fun hm => ?_, by simp⟩
    simpa [Call.isClient] using mem_runningCalls clients running h hm
  refine ⟨by rw [entry_started clients h.registerFilter h.allocation hv h.startFiltering], ⟨fun q => ?_, fun _ => ?_, ?_⟩,
    runningCalls clients running o, ?_, fun hm => ?_, fun hm => hnot (List.mem_append_left _ hm)⟩
  · have hrunning := running_balance clients running o q
    have hclosed := destroy_balance _ hvalid q
    have hunregister : closed q [.unregisterFilter] = 0 ∧ opened q [.unregisterFilter] = 0 := ⟨rfl, rfl⟩
    rw [life_succeed clients running h]
    simp only [closed_append, opened_append]
    omega
  · rw [life_succeed clients running h, List.count_append, List.count_eq_zero_of_not_mem hnot]
    rfl
  · intro before after htrace call hcall
    rw [life_succeed clients running h] at htrace
    rw [last_of_not_mem hnot htrace] at hcall
    cases hcall
  · rw [life_succeed clients running h, hdestroy, List.append_assoc, List.append_assoc, List.append_assoc]
    rfl
  · simpa [Call.isClient] using mem_runningCalls clients running h hm

/-- A client comes while the filter starts and another when it has gone. -/
theorem life_released_two_clients :
    Undone (life ⟨statusSuccess, true, statusSuccess, statusSuccess, statusSuccess⟩ ⟨[.connect 0], [], [.connect 1], []⟩
      [.disconnect, .connect 2]) :=
  (life_released ⟨[.connect 0], [], [.connect 1], []⟩ [.disconnect, .connect 2] ⟨by decide, rfl, by decide, by decide, by decide⟩).2.1

end Dmsk.Minifilter
