import Dmsk.MinifilterSound
import Dmsk.Transition

/-!
# Clients of the communication port

The filter manager calls back from the moment the server port is open, which is
before the constructor of `FltPort` validates the object, and up to the moment
the destructor holds the lock. Connects and disconnects hold the lock alone,
messages share it.
-/

namespace Dmsk.Minifilter

inductive PortPc
  | entered
  | described
  | created
  | freed
  | constructed
  | locked
  | clientClosed
  | destroyed
deriving DecidableEq, Repr

/-- A connection cookie is null or the address of an `FltPort`. -/
abbrev Cookie := Option ℕ

/-- `connections` are those without a disconnect, `clients` counts all who came. -/
structure PortState where
  pc : PortPc := .entered
  port : FltPort := {}
  connections : List (ℕ × Cookie) := []
  clients : ℕ := 0
  messages : ℕ := 0
  calls : List Call := []
deriving DecidableEq, Repr

/-- `construct` and `destruct` are steps of the constructor, with the status of
the function that it calls, and of the destructor. -/
inductive PortAct
  | construct (status : NtStatus)
  | destruct
  | connect (cookie : Cookie)
  | disconnect (client : ℕ)
  | message (client : ℕ)
  | answered
deriving DecidableEq, Repr

/-- `connectNotifyCallback` with its output cookie; `this` is the server port cookie. -/
def FltPort.connectWithCookie (this : ℕ) (port : FltPort) (client : ℕ) (cookie : Cookie) : FltPort × Cookie × NtStatus :=
  if port.clientPort.isSome then (port, cookie, statusAlreadyRegistered)
  else ({ port with clientPort := some client }, some this, statusSuccess)

theorem connectWithCookie_eq (this : ℕ) (port : FltPort) (client : ℕ) (cookie : Cookie) :
    ((port.connectWithCookie this client cookie).1, (port.connectWithCookie this client cookie).2.2) =
      port.connectNotifyCallback client := by
  unfold FltPort.connectWithCookie FltPort.connectNotifyCallback
  split <;> rfl

def PortPc.callable : PortPc → Bool
  | .locked | .clientClosed | .destroyed => false
  | _ => true

def PortState.construct (s : PortState) (status : NtStatus) : Option PortState :=
  match s.pc with
  | .entered =>
    let calls := s.calls ++ [.buildDefaultSecurityDescriptor status]
    if !ntSuccess status then some { s with pc := .constructed, calls := calls }
    else some { s with pc := .described, calls := calls }
  | .described =>
    let calls := s.calls ++ [.createCommunicationPort status]
    if !ntSuccess status then some { s with pc := .constructed, calls := calls ++ [.freeSecurityDescriptor] }
    else some { s with pc := .created, port := { s.port with serverPort := true }, calls := calls }
  | .created => some { s with pc := .freed, calls := s.calls ++ [.freeSecurityDescriptor] }
  | .freed => some { s with pc := .constructed, port := { s.port with isValid := true } }
  | _ => none

def PortState.destruct (s : PortState) : Option PortState :=
  match s.pc with
  | .constructed =>
    if !s.port.isValid then some { s with pc := .destroyed }
    else if s.messages = 0 then some { s with pc := .locked }
    else none
  | .locked =>
    let (port, calls) := s.port.closeClientPort
    some { s with pc := .clientClosed, port := port, calls := s.calls ++ calls }
  | .clientClosed =>
    let (port, calls) := s.port.closeServerPort
    some { s with pc := .destroyed, port := port, calls := s.calls ++ calls }
  | _ => none

def PortState.connect (this : ℕ) (s : PortState) (cookie : Cookie) : Option PortState :=
  if s.pc.callable ∧ s.messages = 0 ∧ s.port.serverPort then
    let (port, cookie, status) := s.port.connectWithCookie this s.clients cookie
    if ntSuccess status then
      some { s with
        port := port
        connections := (s.clients, cookie) :: s.connections
        clients := s.clients + 1
        calls := s.calls ++ [.connect s.clients] }
    else some { s with port := port, clients := s.clients + 1 }
  else none

def PortState.disconnect (this : ℕ) (s : PortState) (client : ℕ) : Option PortState :=
  if s.pc.callable ∧ s.messages = 0 ∧ s.connections.lookup client = some (some this) then
    let (port, calls) := s.port.disconnectNotifyCallback
    some { s with
      port := port
      connections := s.connections.filter (·.1 ≠ client)
      calls := s.calls ++ calls }
  else none

def PortState.message (this : ℕ) (s : PortState) (client : ℕ) : Option PortState :=
  if s.pc.callable ∧ s.connections.lookup client = some (some this) then some { s with messages := s.messages + 1 }
  else none

def portStep (this : ℕ) (s : PortState) : PortAct → Option PortState
  | .construct status => s.construct status
  | .destruct => s.destruct
  | .connect cookie => s.connect this cookie
  | .disconnect client => s.disconnect this client
  | .message client => s.message this client
  | .answered => if 0 < s.messages then some { s with messages := s.messages - 1 } else none

def portSystem (this : ℕ) : System PortState PortAct := ⟨(· = {}), portStep this⟩

/-! ## One call -/

section
variable {this : ℕ} {s t : PortState}

theorem connect_cases {p : Prop} {cookie : Cookie} (h : s.connect this cookie = some t)
    (refused : ∀ c, s.port.clientPort = some c → t = { s with clients := s.clients + 1 } → p)
    (accepted : s.port.clientPort = none →
      t = { s with port := { s.port with clientPort := some s.clients }
                   connections := (s.clients, some this) :: s.connections
                   clients := s.clients + 1
                   calls := s.calls ++ [.connect s.clients] } → p) : p := by
  unfold PortState.connect FltPort.connectWithCookie at h
  cases hc : s.port.clientPort with
  | none =>
    apply accepted hc
    simp only [hc, Option.isSome_none, Bool.false_eq_true, if_false, ntSuccess_statusSuccess, if_true] at h
    split at h
    · exact (Option.some.inj h).symm
    · cases h
  | some c =>
    apply refused c hc
    simp only [hc, Option.isSome_some, if_true, ntSuccess_statusAlreadyRegistered, Bool.false_eq_true, if_false] at h
    split at h
    · exact (Option.some.inj h).symm
    · cases h

theorem connect_enabled {cookie : Cookie} :
    (∃ t, s.connect this cookie = some t) ↔ s.pc.callable = true ∧ s.messages = 0 ∧ s.port.serverPort = true := by
  unfold PortState.connect
  by_cases h : s.pc.callable = true ∧ s.messages = 0 ∧ s.port.serverPort = true
  · refine iff_of_true ?_ h
    rw [if_pos h]
    dsimp only
    split <;> exact ⟨_, rfl⟩
  · refine iff_of_false ?_ h
    rw [if_neg h]
    exact fun he => nomatch he

theorem disconnect_eq_some {client : ℕ} :
    s.disconnect this client = some t ↔
      (s.pc.callable = true ∧ s.messages = 0 ∧ s.connections.lookup client = some (some this)) ∧
        t = { s with port := s.port.closeClientPort.1
                     connections := s.connections.filter (·.1 ≠ client)
                     calls := s.calls ++ s.port.closeClientPort.2 } := by
  unfold PortState.disconnect FltPort.disconnectNotifyCallback
  split
  · rename_i hc
    exact ⟨fun h => ⟨hc, (Option.some.inj h).symm⟩, fun h => congrArg some h.2.symm⟩
  · rename_i hc
    exact iff_of_false (fun h => nomatch h) fun h => hc h.1

theorem closeClientPort_fields (port : FltPort) :
    port.closeClientPort.1.clientPort = none ∧ port.closeClientPort.1.serverPort = port.serverPort ∧
      port.closeClientPort.1.isValid = port.isValid := by
  unfold FltPort.closeClientPort
  split
  · exact ⟨rfl, rfl, rfl⟩
  · exact ⟨‹_›, rfl, rfl⟩

theorem closeServerPort_fields (port : FltPort) :
    port.closeServerPort.1.clientPort = port.clientPort ∧ port.closeServerPort.1.serverPort = false := by
  unfold FltPort.closeServerPort
  split
  · exact ⟨rfl, rfl⟩
  · rename_i h
    exact ⟨rfl, by simpa using h⟩

theorem message_eq {client : ℕ} (h : s.message this client = some t) : t = { s with messages := s.messages + 1 } := by
  unfold PortState.message at h
  split at h
  · exact (Option.some.inj h).symm
  · cases h

end

/-! ## What is open is held by the port -/

structure Ledger (port : FltPort) (clients : ℕ) (calls : List Call) : Prop where
  balance : ∀ q, closed q calls + port.holds q = opened q calls
  fresh : ∀ c, clients ≤ c → opened (.client c) calls = 0
  once : ∀ q, opened q calls ≤ 1

section
variable {port port' : FltPort} {clients : ℕ} {calls new : List Call}

theorem opened_eq_zero (h : ∀ call ∈ new, call.opens = none) (q : Port) : opened q new = 0 := by
  unfold opened
  rw [List.countP_eq_zero]
  intro call hm
  simp [h call hm]

theorem Ledger.append_closing (h : Ledger port clients calls) (hnew : ∀ call ∈ new, call.opens = none)
    (hb : ∀ q, closed q new + port'.holds q = opened q new + port.holds q) : Ledger port' clients (calls ++ new) := by
  have hzero := opened_eq_zero hnew
  constructor
  · intro q
    have hbefore := h.balance q
    have hstep := hb q
    rw [closed_append, opened_append]
    omega
  · intro c hc
    rw [opened_append, h.fresh c hc, hzero]
  · intro q
    rw [opened_append, hzero]
    exact h.once q

theorem Ledger.append_silent (h : Ledger port clients calls) (new : List Call) (hports : ∀ q, port'.holds q = port.holds q)
    (hnew : ∀ call ∈ new, call.opens = none ∧ call.closes = none) : Ledger port' clients (calls ++ new) := by
  apply h.append_closing fun call hm => (hnew call hm).1
  intro q
  have hclosed : closed q new = 0 := by
    unfold closed
    rw [List.countP_eq_zero]
    intro call hm
    simp [(hnew call hm).2]
  rw [hclosed, opened_eq_zero (fun call hm => (hnew call hm).1), hports]

theorem Ledger.create (h : Ledger {} clients calls) (hserver : opened .server calls = 0) {status : NtStatus}
    (hs : ntSuccess status = true) : Ledger { serverPort := true } clients (calls ++ [.createCommunicationPort status]) := by
  have hnew : ∀ q, opened q [.createCommunicationPort status] = if q = .server then 1 else 0 := by
    intro q
    cases q <;> simp [opened, Call.opens, hs]
  constructor
  · intro q
    have hbefore := h.balance q
    have hclosed : closed q [.createCommunicationPort status] = 0 := by simp [closed, Call.closes]
    rw [closed_append, opened_append, hclosed, hnew]
    cases q <;> simp [FltPort.holds] at hbefore ⊢ <;> omega
  · intro c hc
    rw [opened_append, h.fresh c hc, hnew]
    rfl
  · intro q
    rw [opened_append, hnew]
    cases q with
    | server => rw [hserver]; decide
    | client c => simpa using h.once (.client c)

theorem Ledger.accept (h : Ledger port clients calls) (hnone : port.clientPort = none) :
    Ledger { port with clientPort := some clients } (clients + 1) (calls ++ [.connect clients]) := by
  have hnew : ∀ q, opened q [.connect clients] = if q = .client clients then 1 else 0 := by
    intro q
    cases q with
    | server => simp [opened, Call.opens]
    | client c =>
      by_cases hc : clients = c
      · simp [opened, Call.opens, hc]
      · simp [opened, Call.opens, hc, Ne.symm hc]
  constructor
  · intro q
    have hbefore := h.balance q
    have hstep := clientEvent_balance port (.connect clients) q
    rw [clientEvent_connect, hnone] at hstep
    simp only [Option.isSome_none, Bool.false_eq_true, if_false] at hstep
    rw [closed_append, opened_append]
    omega
  · intro c hc
    rw [opened_append, h.fresh c (by omega), hnew, if_neg]
    intro he
    injection he
    omega
  · intro q
    rw [opened_append, hnew]
    split
    · rename_i hq
      rw [hq, h.fresh clients (Nat.le_refl _)]
    · exact h.once q

theorem Ledger.refuse (h : Ledger port clients calls) : Ledger port (clients + 1) calls :=
  ⟨h.balance, fun c hc => h.fresh c (by omega), h.once⟩

theorem Ledger.close_client (h : Ledger port clients calls) :
    Ledger port.closeClientPort.1 clients (calls ++ port.closeClientPort.2) := by
  apply h.append_closing _ (closeClientPort_balance port)
  intro call hm
  unfold FltPort.closeClientPort at hm
  split at hm
  · rw [List.mem_singleton.mp hm]
    rfl
  · exact absurd hm List.not_mem_nil

theorem Ledger.close_server (h : Ledger port clients calls) :
    Ledger port.closeServerPort.1 clients (calls ++ port.closeServerPort.2) := by
  apply h.append_closing _ (closeServerPort_balance port)
  intro call hm
  unfold FltPort.closeServerPort at hm
  split at hm
  · rw [List.mem_singleton.mp hm]
    rfl
  · exact absurd hm List.not_mem_nil

end

/-! ## What holds at every moment -/

/-- What the constructor or the destructor has done so far. -/
def PortState.Phase (s : PortState) : Prop :=
  match s.pc with
  | .entered | .described => s.port = {} ∧ opened .server s.calls = 0
  | .created | .freed | .locked => s.port.serverPort = true
  | .constructed => s.port.isValid = s.port.serverPort
  | .clientClosed => s.port.clientPort = none ∧ s.port.serverPort = true
  | .destroyed => s.port.clientPort = none ∧ s.port.serverPort = false

def PortPc.beforeClose : PortPc → Bool
  | .clientClosed | .destroyed => false
  | _ => true

structure PortInv (this : ℕ) (s : PortState) : Prop where
  ledger : Ledger s.port s.clients s.calls
  served : s.port.clientPort ≠ none → s.port.serverPort = true
  connections : s.pc.beforeClose = true → s.connections = s.port.clientPort.toList.map fun c => (c, some this)
  phase : s.Phase

section
variable {this : ℕ} {s t : PortState}

theorem portInv_init : PortInv this {} where
  ledger := ⟨fun q => by cases q <;> rfl, fun _ _ => rfl, fun _ => Nat.zero_le _⟩
  served := fun h => absurd rfl h
  connections := fun _ => rfl
  phase := ⟨rfl, rfl⟩

theorem portInv_construct (h : PortInv this s) {status : NtStatus} (hs : s.construct status = some t) : PortInv this t := by
  have hphase := h.phase
  have hconnections := h.connections
  unfold PortState.construct at hs
  unfold PortState.Phase at hphase
  cases hpc : s.pc <;> rw [hpc] at hs hphase hconnections
  case entered =>
    obtain ⟨hport, hserver⟩ := hphase
    have hl := h.ledger.append_silent [.buildDefaultSecurityDescriptor status] (fun _ => rfl) (by simp [Call.opens, Call.closes])
    have hopened : opened .server (s.calls ++ [.buildDefaultSecurityDescriptor status]) = 0 := by
      rw [opened_append, hserver]
      rfl
    simp only [] at hs
    split at hs <;> obtain rfl := Option.some.inj hs
    · exact ⟨hl, h.served, fun _ => hconnections rfl, show s.port.isValid = s.port.serverPort by rw [hport]⟩
    · exact ⟨hl, h.served, fun _ => hconnections rfl, hport, hopened⟩
  case described =>
    obtain ⟨hport, hserver⟩ := hphase
    simp only [] at hs
    split at hs <;> rename_i hst <;> obtain rfl := Option.some.inj hs
    · have hl := (h.ledger.append_silent [.createCommunicationPort status] (fun _ => rfl)
        (by simpa [Call.opens, Call.closes] using hst)).append_silent [.freeSecurityDescriptor] (fun _ => rfl)
        (by simp [Call.opens, Call.closes])
      exact ⟨hl, h.served, fun _ => hconnections rfl, show s.port.isValid = s.port.serverPort by rw [hport]⟩
    · have hl := h.ledger
      rw [hport] at hl ⊢
      exact ⟨hl.create hserver (by simpa using hst), fun _ => rfl, fun _ => hport ▸ hconnections rfl, rfl⟩
  case created =>
    obtain rfl := Option.some.inj hs
    exact ⟨h.ledger.append_silent _ (fun _ => rfl) (by simp [Call.opens, Call.closes]), h.served,
      fun _ => hconnections rfl, hphase⟩
  case freed =>
    obtain rfl := Option.some.inj hs
    exact ⟨⟨h.ledger.balance, h.ledger.fresh, h.ledger.once⟩, h.served, fun _ => hconnections rfl, hphase.symm⟩
  all_goals cases hs

theorem portInv_destruct (h : PortInv this s) (hs : s.destruct = some t) : PortInv this t := by
  have hphase := h.phase
  unfold PortState.destruct at hs
  unfold PortState.Phase at hphase
  cases hpc : s.pc <;> rw [hpc] at hs hphase
  case constructed =>
    have hconnections := h.connections (by rw [hpc]; rfl)
    simp only [] at hs hphase
    split at hs
    · rename_i hv
      obtain rfl := Option.some.inj hs
      have hserver : s.port.serverPort = false := by rw [← hphase]; simpa using hv
      have hclient : s.port.clientPort = none := by
        by_contra hne
        rw [h.served hne] at hserver
        cases hserver
      exact ⟨h.ledger, h.served, (fun hb => nomatch hb), hclient, hserver⟩
    · split at hs
      · rename_i hv _
        obtain rfl := Option.some.inj hs
        have hserver : s.port.serverPort = true := by rw [← hphase]; simpa using hv
        exact ⟨h.ledger, h.served, fun _ => hconnections, hserver⟩
      · cases hs
  case locked =>
    obtain rfl := Option.some.inj hs
    obtain ⟨hclient, hserver, -⟩ := closeClientPort_fields s.port
    exact ⟨h.ledger.close_client, fun hne => absurd hclient hne, (fun hb => nomatch hb),
      hclient, hserver.trans hphase⟩
  case clientClosed =>
    obtain rfl := Option.some.inj hs
    obtain ⟨hclient, hserver⟩ := closeServerPort_fields s.port
    exact ⟨h.ledger.close_server, fun hne => absurd (hclient.trans hphase.1) hne,
      (fun hb => nomatch hb), hclient.trans hphase.1, hserver⟩
  all_goals cases hs

theorem beforeClose_of_callable {pc : PortPc} (h : pc.callable = true) : pc.beforeClose = true := by
  cases pc <;> first | rfl | cases h

theorem PortState.Phase.with_client (h : s.Phase) (hcall : s.pc.callable = true) (hserver : s.port.serverPort = true)
    (hpc : t.pc = s.pc) (hport : t.port.serverPort = s.port.serverPort ∧ t.port.isValid = s.port.isValid) : t.Phase := by
  unfold PortState.Phase at h ⊢
  rw [hpc, hport.1, hport.2]
  cases hs : s.pc <;> rw [hs] at h hcall
  case entered | described => rw [h.1] at hserver; cases hserver
  case created | freed | constructed => exact h
  all_goals cases hcall

theorem PortInv.held_of_lookup (h : PortInv this s) (hcall : s.pc.callable = true) {client : ℕ} {cookie : Cookie}
    (hlookup : s.connections.lookup client = some cookie) : s.port.clientPort = some client ∧ cookie = some this := by
  rw [h.connections (beforeClose_of_callable hcall)] at hlookup
  cases hc : s.port.clientPort with
  | none => simp [hc] at hlookup
  | some c =>
    by_cases hcc : client = c
    · simp [hc, hcc] at hlookup
      exact ⟨congrArg some hcc.symm, hlookup.symm⟩
    · simp [hc, List.lookup_cons, beq_eq_false_iff_ne.mpr hcc] at hlookup

theorem portInv_connect (h : PortInv this s) {cookie : Cookie} (hs : s.connect this cookie = some t) : PortInv this t := by
  obtain ⟨hcall, -, hserver⟩ := connect_enabled.mp ⟨t, hs⟩
  apply connect_cases hs
  · intro c hc ht
    subst ht
    exact ⟨h.ledger.refuse, h.served, h.connections, h.phase⟩
  · intro hnone ht
    have hconnections := h.connections (beforeClose_of_callable hcall)
    rw [hnone] at hconnections
    subst ht
    refine ⟨h.ledger.accept hnone, fun _ => hserver, fun _ => ?_, h.phase.with_client hcall hserver rfl ⟨rfl, rfl⟩⟩
    rw [hconnections]
    rfl

theorem portInv_disconnect (h : PortInv this s) {client : ℕ} (hs : s.disconnect this client = some t) : PortInv this t := by
  obtain ⟨⟨hcall, -, hlookup⟩, ht⟩ := disconnect_eq_some.mp hs
  have hheld := (h.held_of_lookup hcall hlookup).1
  have hserver := h.served (by rw [hheld]; exact Option.some_ne_none _)
  obtain ⟨hclient, hkept, hvalid⟩ := closeClientPort_fields s.port
  subst ht
  refine ⟨h.ledger.close_client, fun hne => absurd hclient hne, fun _ => ?_,
    h.phase.with_client hcall hserver rfl ⟨hkept, hvalid⟩⟩
  simp [h.connections (beforeClose_of_callable hcall), hheld, hclient]

theorem portInv_step (h : PortInv this s) {a : PortAct} (hs : portStep this s a = some t) : PortInv this t := by
  cases a with
  | construct status => exact portInv_construct h hs
  | destruct => exact portInv_destruct h hs
  | connect cookie => exact portInv_connect h hs
  | disconnect client => exact portInv_disconnect h hs
  | message client =>
    rw [message_eq hs]
    exact ⟨h.ledger, h.served, h.connections, h.phase⟩
  | answered =>
    simp only [portStep] at hs
    split at hs
    · obtain rfl := Option.some.inj hs
      exact ⟨h.ledger, h.served, h.connections, h.phase⟩
    · cases hs

theorem portInv_reachable (h : (portSystem this).Reachable s) : PortInv this s :=
  h.invariant (I := PortInv this) (fun s (h0 : s = {}) => h0.symm ▸ portInv_init) fun _ _ _ hi hs => portInv_step hi hs

/-! ## Clients and ports over a run -/

/-- An accepted client whose port is not closed. -/
def PortState.Held (s : PortState) (client : ℕ) : Prop := closed (.client client) s.calls < opened (.client client) s.calls

theorem PortInv.held_iff (h : PortInv this s) (client : ℕ) : s.Held client ↔ s.port.clientPort = some client := by
  have hbalance := h.ledger.balance (.client client)
  unfold PortState.Held
  simp only [FltPort.holds] at hbalance
  by_cases hc : s.port.clientPort = some client
  · rw [if_pos hc] at hbalance
    exact iff_of_true (by omega) hc
  · rw [if_neg hc] at hbalance
    exact iff_of_false (by omega) hc

theorem PortInv.none_held_iff (h : PortInv this s) : (∀ c, ¬ s.Held c) ↔ s.port.clientPort = none := by
  rw [Option.eq_none_iff_forall_ne_some]
  exact forall_congr' fun c => not_congr (h.held_iff c)

/-- What a run has done with the ports, and what one more call does: a refused
client changes nothing, a disconnect closes the port of its client, and the
destructor those of the clients without a disconnect. -/
structure PortDiscipline (this : ℕ) (s : PortState) : Prop where
  oneHeld : ∀ c d, s.Held c → s.Held d → c = d
  connect : ∀ cookie t, portStep this s (.connect cookie) = some t →
    let (port, cookie', status) := s.port.connectWithCookie this s.clients cookie
    (ntSuccess status = true ↔ ∀ c, ¬ s.Held c) ∧
    (ntSuccess status = true → t.Held s.clients ∧ cookie' = some this) ∧
    (ntSuccess status = false → port = s.port ∧ t.port = s.port ∧ t.calls = s.calls ∧ cookie' = cookie)
  cookies : s.pc.callable = true → s.messages = 0 → ∀ connection ∈ s.connections,
    ∃ t, portStep this s (.disconnect connection.1) = some t
  disconnect : ∀ client t, portStep this s (.disconnect client) = some t →
    t.calls = s.calls ++ [.closeClientPort client] ∧ (∀ c, ¬ t.Held c) ∧
      ∀ cookie, ∃ u, portStep this t (.connect cookie) = some u ∧ u.Held t.clients
  destruct : ∀ t, s.pc = .locked → portStep this s .destruct = some t →
    t.calls = s.calls ++ s.connections.map fun connection => .closeClientPort connection.1
  closedOnce : ∀ q, closed q s.calls ≤ 1
  clients : s.pc = .destroyed → ∀ c, closed (.client c) s.calls = 1 ↔ .connect c ∈ s.calls
  server : s.pc = .destroyed → (closed .server s.calls = 1 ↔
    ∃ status, .createCommunicationPort status ∈ s.calls ∧ ntSuccess status = true)

theorem PortInv.connected (h : PortInv this s) {cookie : Cookie} (hs : s.connect this cookie = some t) :
    let (port, cookie', status) := s.port.connectWithCookie this s.clients cookie
    (ntSuccess status = true ↔ ∀ c, ¬ s.Held c) ∧
    (ntSuccess status = true → t.Held s.clients ∧ cookie' = some this) ∧
    (ntSuccess status = false → port = s.port ∧ t.port = s.port ∧ t.calls = s.calls ∧ cookie' = cookie) := by
  have ht := portInv_connect h hs
  rw [h.none_held_iff]
  unfold FltPort.connectWithCookie
  apply connect_cases hs
  · intro c hc hrefused
    simp [hc, hrefused]
  · intro hnone haccepted
    have hheld : t.Held s.clients := (ht.held_iff _).mpr (by rw [haccepted])
    simp [hnone, hheld]

theorem PortInv.cookies (h : PortInv this s) (hcall : s.pc.callable = true) (hm : s.messages = 0)
    {connection : ℕ × Cookie} (hc : connection ∈ s.connections) : ∃ t, s.disconnect this connection.1 = some t := by
  refine ⟨_, disconnect_eq_some.mpr ⟨⟨hcall, hm, ?_⟩, rfl⟩⟩
  rw [h.connections (beforeClose_of_callable hcall)] at hc ⊢
  obtain ⟨c, hport, rfl⟩ := List.mem_map.mp hc
  rw [Option.mem_toList] at hport
  rw [hport]
  exact List.lookup_cons_self

theorem PortInv.disconnected (h : PortInv this s) {client : ℕ} (hs : s.disconnect this client = some t) :
    t.calls = s.calls ++ [.closeClientPort client] ∧ (∀ c, ¬ t.Held c) ∧
      ∀ cookie, ∃ u, t.connect this cookie = some u ∧ u.Held t.clients := by
  obtain ⟨⟨hcall, hm, hlookup⟩, ht⟩ := disconnect_eq_some.mp hs
  have hheld := (h.held_of_lookup hcall hlookup).1
  have hserver := h.served (by rw [hheld]; exact Option.some_ne_none _)
  obtain ⟨hclient, hkept, -⟩ := closeClientPort_fields s.port
  have hi := portInv_disconnect h hs
  have hnone : t.port.clientPort = none := by rw [ht]; exact hclient
  refine ⟨?_, hi.none_held_iff.mpr hnone, ?_⟩
  · rw [ht]
    simp [FltPort.closeClientPort, hheld]
  · intro cookie
    have hopen : t.pc.callable = true ∧ t.messages = 0 ∧ t.port.serverPort = true := by
      rw [ht]
      exact ⟨hcall, hm, hkept.trans hserver⟩
    obtain ⟨u, hu⟩ := connect_enabled.mpr hopen
    refine ⟨u, hu, ((portInv_connect hi hu).held_iff _).mpr ?_⟩
    apply connect_cases hu
    · intro c hc
      rw [hnone] at hc
      cases hc
    · intro _ haccepted
      rw [haccepted]

theorem PortInv.destructed (h : PortInv this s) (hpc : s.pc = .locked) (hs : s.destruct = some t) :
    t.calls = s.calls ++ s.connections.map fun connection => .closeClientPort connection.1 := by
  rw [h.connections (by rw [hpc]; rfl)]
  unfold PortState.destruct FltPort.closeClientPort at hs
  rw [hpc] at hs
  obtain rfl := Option.some.inj hs
  cases hc : s.port.clientPort <;> rfl

theorem PortInv.closed_le (h : PortInv this s) (q : Port) : closed q s.calls ≤ 1 := by
  have hbalance := h.ledger.balance q
  have honce := h.ledger.once q
  omega

theorem PortInv.closed_iff (h : PortInv this s) (hpc : s.pc = .destroyed) (q : Port) :
    closed q s.calls = 1 ↔ ∃ call ∈ s.calls, call.opens = some q := by
  have hphase := h.phase
  unfold PortState.Phase at hphase
  rw [hpc] at hphase
  have hnone : s.port.holds q = 0 := by cases q <;> simp [FltPort.holds, hphase.1, hphase.2]
  have hbalance := h.ledger.balance q
  have honce := h.ledger.once q
  have hpos : 0 < opened q s.calls ↔ ∃ call ∈ s.calls, call.opens = some q := by
    unfold opened
    rw [List.countP_pos_iff]
    simp
  rw [← hpos]
  omega

theorem opens_client {call : Call} {c : ℕ} : call.opens = some (.client c) ↔ call = .connect c := by
  cases call <;> simp [Call.opens]

theorem opens_server {call : Call} :
    call.opens = some .server ↔ ∃ status, call = .createCommunicationPort status ∧ ntSuccess status = true := by
  cases call <;> simp [Call.opens]

/-- **Clients of the port.** In every order of connects, disconnects and
messages that the filter manager allows, a connect is accepted exactly if no
client is held, and every port that was opened is closed once. -/
theorem port_discipline (this : ℕ) (s : PortState) (h : (portSystem this).Reachable s) : PortDiscipline this s := by
  have hi := portInv_reachable h
  constructor
  · intro c d hc hd
    exact Option.some.inj (((hi.held_iff c).mp hc).symm.trans ((hi.held_iff d).mp hd))
  · intro cookie t hs
    exact hi.connected hs
  · intro hcall hm connection hc
    exact hi.cookies hcall hm hc
  · intro client t hs
    exact hi.disconnected hs
  · intro t hpc hs
    exact hi.destructed hpc hs
  · exact hi.closed_le
  · intro hpc c
    rw [hi.closed_iff hpc]
    simp [opens_client]
  · intro hpc
    rw [hi.closed_iff hpc]
    constructor
    · intro hex
      obtain ⟨call, hm, ho⟩ := hex
      obtain ⟨status, rfl, hs⟩ := opens_server.mp ho
      exact ⟨status, hm, hs⟩
    · intro hex
      obtain ⟨status, hm, hs⟩ := hex
      exact ⟨_, hm, opens_server.mpr ⟨status, rfl, hs⟩⟩

end

/-- A client comes before the object is valid, a second one too early; a third
one is still connected when the destructor runs. -/
def threeClientsRun : List PortAct :=
  [.construct statusSuccess, .construct statusSuccess, .connect none, .construct statusSuccess, .message 0, .answered,
    .connect none, .construct statusSuccess, .disconnect 0, .connect (some 7), .destruct, .destruct, .destruct]

def threeClientsEnd : PortState := ((portSystem 4096).exec (fun _ _ => True) {} threeClientsRun).get (by decide)

theorem port_discipline_threeClients :
    (closed (.client 0) threeClientsEnd.calls = 1 ∧ closed (.client 2) threeClientsEnd.calls = 1) ∧
      closed .server threeClientsEnd.calls = 1 := by
  have h : (portSystem 4096).Reachable threeClientsEnd :=
    System.reach_of_exec (C := fun _ _ => True) rfl threeClientsRun (Option.some_get _).symm
  have hd := port_discipline 4096 threeClientsEnd h
  refine ⟨⟨(hd.clients (by decide) 0).mpr (by decide), (hd.clients (by decide) 2).mpr (by decide)⟩, ?_⟩
  exact (hd.server (by decide)).mpr ⟨statusSuccess, by decide, by decide⟩

end Dmsk.Minifilter
