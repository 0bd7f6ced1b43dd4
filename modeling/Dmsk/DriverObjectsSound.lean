import Dmsk.DriverObjects

/-!
# The device drivers release what they create

For each routine, what it leaves of what it is given, and where a pointer is
followed, that it is not null.
-/

namespace Dmsk.DriverObjects

open Resources Resources.Routine

variable {pre rest : List Object}

theorem request_spec (kind : Kind) :
    Total pre (request kind) (fun r => r.2.isSome = ntSuccess r.1) fun r => r.2.toList ++ pre := by
  refine .bind .call fun status _ => ?_
  split
  · rename_i h
    exact .bind (.create kind) fun _ _ => .pure h.symm rfl
  · rename_i h
    exact .pure (by simpa using h) rfl

theorem allocate_spec : Total pre allocate (fun _ => True) fun r => r.toList ++ pre := by
  refine .bind .call fun _ _ => ?_
  split
  · exact .pure trivial rfl
  · exact .bind (.create Kind.pool) fun _ _ => .pure trivial rfl

theorem deref_spec {o : Option Object} (ho : o.isSome) (hr : ∀ r ∈ o, r ∈ pre) :
    Total pre (deref o) (fun _ => True) fun _ => pre := by
  obtain ⟨r, rfl⟩ := Option.isSome_iff_exists.mp ho
  exact .use (hr r rfl)

theorem mem_some {device : Object} (h : device ∈ pre) : ∀ r ∈ some device, r ∈ pre := by
  rintro r ⟨⟩
  exact h

section
variable {o : Option Object} (ho : o.isSome) (hr : ∀ r ∈ o, r ∈ pre)
include ho hr

theorem acquire_spec : Total pre (ioAcquireRemoveLock o) (fun _ => True) fun reference => reference :: pre :=
  .bind (deref_spec ho hr) fun _ _ => (Total.create Kind.removeLockReference).imp fun _ _ => trivial

theorem release_spec (reference : Object) :
    Total (reference :: pre) (ioReleaseRemoveLock o reference) (fun _ => True) fun _ => pre :=
  .bind (deref_spec ho fun r h => List.mem_cons_of_mem _ (hr r h)) fun _ _ => .close (.refl _)

end

theorem closeIf_spec (o : Option Object) : Total (o.toList ++ rest) (closeIf o) (fun _ => True) fun _ => rest := by
  cases o with
  | none => exact .pure trivial rfl
  | some r => exact .close (.refl _)

theorem ioDeleteSymbolicLink_spec (o : Option Object) :
    Total (o.toList ++ rest) (ioDeleteSymbolicLink o) (fun _ => True) fun link => link.toList ++ rest := by
  cases o with
  | none => exact .bind .call fun _ _ => .pure trivial rfl
  | some r =>
    refine .bind .call fun status _ => ?_
    split
    · exact .bind (.close (.refl _)) fun _ _ => .pure trivial rfl
    · exact .pure trivial rfl

theorem requested {o : Option Object} {status : NtStatus} (hr : o.isSome = ntSuccess status) :
    (ntSuccess status = true ∧ ∃ r, o = some r) ∨ (ntSuccess status = false ∧ o = none) := by
  cases o with
  | none => exact .inr ⟨hr.symm, rfl⟩
  | some r => exact .inl ⟨hr.symm, r, rfl⟩

theorem mem_toList {o : Option Object} (rest : List Object) {r : Object} (hr : r ∈ o) : r ∈ o.toList ++ rest := by
  rw [hr]
  exact List.mem_cons_self

/-! ## `IOCTLSecondDriver` -/

namespace Second

theorem init_spec : Total [] ioctlInitDeviceObject (fun r => r.2.isSome = ntSuccess r.1) fun r => r.2.toList := by
  refine .bind (request_spec Kind.device) fun r hr => ?_
  obtain ⟨status, device⟩ := r
  obtain ⟨h, device, rfl⟩ | ⟨h, rfl⟩ := requested hr
  · simp only [h]
    exact .bind (.use List.mem_cons_self) fun _ _ => .pure h.symm rfl
  · simp only [h]
    exact .pure h.symm rfl

theorem handleAll_spec {device : Object} : ∀ n : ℕ,
    Total [device] (handleAll (some device) n) (fun _ => True) fun _ => [device]
  | 0 => .pure trivial rfl
  | n + 1 => by
    have hmem : ∀ r ∈ some device, r ∈ [device] := mem_some List.mem_cons_self
    exact .bind (.bind (acquire_spec rfl hmem) fun _ _ => release_spec rfl hmem _) fun _ _ => handleAll_spec n

theorem uninit_spec (device : Object) : Total [device] (ioctlUninitDeviceObject (some device)) (fun _ => True) fun _ => [] := by
  have hmem : ∀ r ∈ some device, r ∈ [device] := mem_some List.mem_cons_self
  exact .bind (acquire_spec rfl hmem) fun _ _ => .bind (release_spec rfl hmem _) fun _ _ => .close (.refl _)

theorem life_spec (requests : ℕ) : Total [] (life requests) (fun _ => True) fun _ => [] := by
  refine .bind init_spec fun r hr => ?_
  obtain ⟨status, device⟩ := r
  obtain ⟨h, device, rfl⟩ | ⟨h, rfl⟩ := requested hr
  · simp only [h]
    exact .bind (handleAll_spec requests) fun _ _ => .bind (uninit_spec device) fun _ _ => .pure trivial rfl
  · simp only [h]
    exact .pure trivial rfl

end Second

/-! ## `IOCTLFirstDriver` -/

namespace First

def Globals.holds (g : Globals) : List Object :=
  g.symbolicLink.toList ++ (g.gDeviceObject.toList ++ g.gFileObjectSecondDriver.toList)

def AllOrNothing (r : NtStatus × Globals) : Prop :=
  (ntSuccess r.1 = true ∧ ∃ device file link, r.2 = ⟨some device, some file, some link⟩) ∨ (ntSuccess r.1 = false ∧ r.2 = {})

theorem cleanUp_spec (g : Globals) :
    Total (g.gDeviceObject.toList ++ g.gFileObjectSecondDriver.toList) (cleanUp g) (fun _ => True) fun _ => [] := by
  refine .bind (closeIf_spec _) fun _ _ => ?_
  exact (closeIf_spec _).weaken (.of_eq (List.append_nil _).symm) fun _ _ => .refl _

theorem init_spec : Total [] ioctlInitDeviceObject AllOrNothing fun r => r.2.holds := by
  refine .bind (request_spec Kind.device) fun r hr => ?_
  obtain ⟨status, device⟩ := r
  obtain ⟨h, device, rfl⟩ | ⟨h, rfl⟩ := requested hr
  swap
  · simp only [h]
    exact .bind (cleanUp_spec {}) fun _ _ => .pure (.inr ⟨h, rfl⟩) rfl
  simp only [h]
  refine .bind (request_spec Kind.fileObject) fun r hr => ?_
  obtain ⟨status, file⟩ := r
  obtain ⟨h, file, rfl⟩ | ⟨h, rfl⟩ := requested hr
  swap
  · simp only [h]
    exact .bind (cleanUp_spec { gDeviceObject := some device }) fun _ _ => .pure (.inr ⟨h, rfl⟩) rfl
  simp only [h]
  refine .bind (.use (by simp)) fun _ _ => .bind (.use (by simp)) fun _ _ => ?_
  refine .bind (request_spec Kind.symbolicLink) fun r hr => ?_
  obtain ⟨status, link⟩ := r
  obtain ⟨h, link, rfl⟩ | ⟨h, rfl⟩ := requested hr
  swap
  · simp only [h]
    refine .bind ((cleanUp_spec ⟨some device, some file, none⟩).weaken (.swap _ _ []) fun _ _ => .refl _) fun _ _ => ?_
    exact .pure (.inr ⟨h, rfl⟩) rfl
  simp only [h]
  refine .bind (.use (by simp)) fun _ _ => ?_
  exact .pure_perm (.inl ⟨h, device, file, link, rfl⟩) ((List.Perm.swap device file []).cons link)

variable {device file link : Object}

theorem handle_spec (passed : Bool) : Total [link, device, file] (handle ⟨some device, some file, some link⟩ passed)
    (fun _ => True) fun _ => [link, device, file] := by
  have hmem : ∀ r ∈ some device, r ∈ [link, device, file] := mem_some (by simp)
  refine .bind (acquire_spec rfl hmem) fun reference _ => ?_
  cases passed
  · exact release_spec rfl hmem reference
  · exact .bind (.use (by simp)) fun _ _ => release_spec rfl hmem reference

theorem handleAll_spec : ∀ requests : List Bool, Total [link, device, file]
    (handleAll ⟨some device, some file, some link⟩ requests) (fun _ => True) fun _ => [link, device, file]
  | [] => .pure trivial rfl
  | passed :: requests => .bind (handle_spec passed) fun _ _ => handleAll_spec requests

theorem uninit_spec : Total [link, device, file] (ioctlUninitDeviceObject ⟨some device, some file, some link⟩)
    (fun _ => True) fun left => left.toList := by
  have hmem : ∀ r ∈ some device, r ∈ [link, device, file] := mem_some (by simp)
  refine .bind (acquire_spec rfl hmem) fun reference _ => .bind (release_spec rfl hmem reference) fun _ _ => ?_
  refine .bind (ioDeleteSymbolicLink_spec (some link)) fun left _ => ?_
  refine .bind (.close (R := file :: left.toList) ?_) fun _ _ => .bind (.close (.refl _)) fun _ _ => .pure trivial rfl
  exact List.perm_append_comm

theorem life_spec (requests : List Bool) :
    Total [] (life requests) (fun r => ntSuccess r.1 = false → r.2 = none) fun r => r.2.toList := by
  refine .bind init_spec fun r hr => ?_
  obtain ⟨status, g⟩ := r
  obtain ⟨h, device, file, link, hg⟩ | ⟨h, hg⟩ := hr
  · dsimp only at h hg
    simp only [h, hg]
    refine .bind (handleAll_spec requests) fun _ _ => .bind uninit_spec fun left _ => ?_
    exact .pure (fun hn => by rw [h] at hn; cases hn) rfl
  · dsimp only at h hg
    simp only [h, hg]
    exact .pure (fun _ => rfl) rfl

end First

/-! ## `NotificationDriver` -/

namespace Notification

def DeviceObject.holds (d : DeviceObject) : List Object := d.symbolicLink.toList ++ (d.deviceObject.toList ++ [d.block])

/-- What `isValid` tells of the device and its link. -/
def DeviceObject.Formed (d : DeviceObject) : Prop :=
  (d.isValid = true ∧ ∃ block device link, d = ⟨block, some device, some link, true⟩) ∨
    (d.isValid = false ∧ ∃ block, d = { block := block })

theorem cleanUp_spec (d : DeviceObject) (rest : List Object) : Total (d.symbolicLink.toList ++ (d.deviceObject.toList ++ rest))
    d.cleanUp (fun left => d.symbolicLink = none → left = none) fun left => left.toList ++ rest := by
  obtain ⟨block, device, link, valid⟩ := d
  have hdevice : ∀ left : Option Object, (left.toList ++ (device.toList ++ rest)).Perm (device.toList ++ (left.toList ++ rest)) :=
    fun _ => List.perm_append_comm_assoc _ _ _
  cases link with
  | none =>
    have hnone : Total (device.toList ++ rest) (pure none : Code (Option Object)) (· = none) fun _ => device.toList ++ rest :=
      .pure rfl rfl
    refine .bind hnone fun left hleft => ?_
    exact .bind (closeIf_spec device) fun _ _ => .pure (fun _ => hleft) (by rw [hleft]; rfl)
  | some link =>
    refine .bind (ioDeleteSymbolicLink_spec (some link)) fun left _ => ?_
    exact .bind ((closeIf_spec device).weaken (hdevice left) fun _ _ => .refl _) fun _ _ => .pure (fun h => by cases h) rfl

theorem construct_device_spec (block : Object) :
    Total [block] (DeviceObject.construct block) DeviceObject.Formed DeviceObject.holds := by
  refine .bind (request_spec Kind.device) fun r hr => ?_
  obtain ⟨status, device⟩ := r
  obtain ⟨h, device, rfl⟩ | ⟨h, rfl⟩ := requested hr
  swap
  · simp only [h]
    exact .pure (.inr ⟨rfl, block, rfl⟩) rfl
  simp only [h]
  refine .bind (request_spec Kind.symbolicLink) fun r hr => ?_
  obtain ⟨status, link⟩ := r
  obtain ⟨h, link, rfl⟩ | ⟨h, rfl⟩ := requested hr
  swap
  · simp only [h]
    refine .bind (cleanUp_spec { block := block, deviceObject := some device } [block]) fun left hleft => ?_
    exact .pure (.inr ⟨rfl, block, rfl⟩) (by rw [hleft rfl]; rfl)
  simp only [h]
  exact .bind (.use (by simp)) fun _ _ => .pure (.inl ⟨rfl, block, device, link, rfl⟩) rfl

theorem delete_spec {d : DeviceObject} (hd : d.deviceObject.isSome) (rest : List Object) :
    Total (d.holds ++ rest) d.delete (fun _ => True) fun left => left.toList ++ rest := by
  have hmem : ∀ r ∈ d.deviceObject, r ∈ d.holds ++ rest := by
    intro r hr
    simp [DeviceObject.holds, Option.mem_def.mp hr]
  refine .bind (acquire_spec hd hmem) fun reference _ => .bind (release_spec hd hmem reference) fun _ _ => ?_
  refine .bind ((cleanUp_spec d (d.block :: rest)).weaken (.of_eq (by simp [DeviceObject.holds])) fun _ _ => .refl _)
    fun left _ => ?_
  exact .bind (.close List.perm_middle) fun _ _ => .pure trivial rfl

variable {w : ℕ} {g : GlobalData w}

/-- What goes with `gDrvData`. -/
def GlobalData.core (g : GlobalData w) : List Object :=
  g.processes.map Prod.fst ++ (g.collectorLock :: g.lock :: g.destructor.toList)

def GlobalData.holds (g : GlobalData w) : List Object :=
  g.processNotify.toList ++ (g.cookie.toList ++ (g.loadImageNotify.toList ++ (g.threadNotify.toList ++
    (g.registrationHandle.toList ++ (g.deviceObject.elim [] DeviceObject.holds ++
      (g.processCreateGoodStackTrace.toList ++ g.core))))))

theorem lock_mem (g : GlobalData w) : g.lock ∈ g.holds := by simp [GlobalData.holds, GlobalData.core]

theorem collectorLock_mem (g : GlobalData w) : g.collectorLock ∈ g.holds := by simp [GlobalData.holds, GlobalData.core]

theorem process_mem {r : Object × Process w} (hr : r ∈ g.processes) : r.1 ∈ g.holds := by
  simp only [GlobalData.holds, GlobalData.core, List.mem_append]
  simp only [List.mem_map_of_mem hr, true_or, or_true]

theorem guarded_spec {α : Type} {lock : Object} {x : Code α} {Q : α → Prop} {post : α → List Object} (hl : lock ∈ pre)
    (hx : Total pre x Q post) (hpost : ∀ a, Q a → lock ∈ post a) : Total pre (guarded lock x) Q post :=
  .bind (.use hl) fun _ _ => .bind hx fun a ha => .bind (.use (hpost a ha)) fun _ _ => .pure ha rfl

/-! ### `DriverEntry` -/

structure Fresh (g : GlobalData w) : Prop where
  processNotify : g.processNotify = none
  cookie : g.cookie = none
  loadImageNotify : g.loadImageNotify = none
  registrationHandle : g.registrationHandle = none
  threadNotify : g.threadNotify = none

def Formed (g : GlobalData w) : Prop := ∀ d ∈ g.deviceObject, d.Formed

theorem construct_spec :
    Total [] (construct : Code (GlobalData w)) (fun g => Fresh g ∧ g.deviceObject = none) GlobalData.holds := by
  refine .bind (.create Kind.pushLock) fun lock _ => .bind (.create Kind.pushLock) fun collectorLock _ => ?_
  refine .bind allocate_spec fun destructor _ => .pure_perm ⟨⟨rfl, rfl, rfl, rfl, rfl⟩, rfl⟩ ?_
  exact List.perm_append_comm

theorem queryModules_spec : ∀ rounds : ℕ, Total pre (queryModules rounds) (fun _ => True) fun _ => pre
  | 0 => .pure trivial rfl
  | rounds + 1 => by
    refine .bind .call fun status _ => ?_
    split
    · exact .pure trivial rfl
    refine .bind allocate_spec fun modules _ => ?_
    cases modules with
    | none => exact .pure trivial rfl
    | some modules =>
      refine .bind .call fun status _ => .bind (.close (.refl _)) fun _ _ => ?_
      split
      · exact .pure trivial rfl
      · exact queryModules_spec rounds

theorem gdrvpInitializeNtImageBase_spec (rounds : ℕ) :
    Total pre (gdrvpInitializeNtImageBase rounds) (fun _ => True) fun _ => pre := by
  refine .bind .call fun status _ => ?_
  split
  · exact queryModules_spec rounds
  · exact .pure trivial rfl

theorem gdrvInitGlobalData_spec (rounds : ℕ) (hfresh : Fresh g) (hg : g.deviceObject = none) :
    Total g.holds (gdrvInitGlobalData rounds g) (fun r => Fresh r.2 ∧ Formed r.2) fun r => r.2.holds := by
  refine .bind allocate_spec fun block _ => ?_
  cases block with
  | none =>
    refine .bind (gdrvpInitializeNtImageBase_spec rounds) fun returns _ => .pure ⟨hfresh, ?_⟩ rfl
    intro d hd
    simp [hg] at hd
  | some block =>
    refine .bind ((construct_device_spec block).frame g.holds) fun d hd => ?_
    refine .bind (gdrvpInitializeNtImageBase_spec rounds) fun returns _ => .pure_perm ⟨⟨?_, ?_, ?_, ?_, ?_⟩, ?_⟩ ?_
    · exact hfresh.processNotify
    · exact hfresh.cookie
    · exact hfresh.loadImageNotify
    · exact hfresh.registrationHandle
    · exact hfresh.threadNotify
    · intro d' hd'
      cases hd'
      exact hd
    · rw [List.perm_iff_count]
      intro a
      simp [GlobalData.holds, GlobalData.core, hg]
      omega

theorem driverEntry_spec (rounds : ℕ) :
    Total [] (driverEntry rounds : Code (Bool × GlobalData w)) (fun r => Formed r.2) fun r => r.2.holds := by
  refine .bind construct_spec fun g hg => .bind (gdrvInitGlobalData_spec rounds hg.1 hg.2) fun r hr => ?_
  obtain ⟨returns, g⟩ := r
  have hfresh : Fresh g := hr.1
  have hformed : Formed g := hr.2
  cases returns
  · exact .pure hformed rfl
  refine .bind (request_spec Kind.processNotify) fun r₁ _ => .bind (request_spec Kind.registryCallback) fun r₂ _ => ?_
  refine .bind (request_spec Kind.loadImageNotify) fun r₃ _ => .bind (request_spec Kind.obCallbacks) fun r₄ _ => ?_
  refine .bind (request_spec Kind.threadNotify) fun r₅ _ => .pure_perm hformed ?_
  rw [List.perm_iff_count]
  intro a
  simp [GlobalData.holds, GlobalData.core, hfresh.processNotify, hfresh.cookie, hfresh.loadImageNotify,
    hfresh.registrationHandle, hfresh.threadNotify]
  omega

/-! ### Notifications and requests -/

theorem insertProcess_spec (g : GlobalData w) (pid : Handle w) :
    Total g.holds (insertProcess g pid) (fun g' => g'.deviceObject = g.deviceObject ∧ g'.collectorLock = g.collectorLock)
      GlobalData.holds := by
  refine guarded_spec (collectorLock_mem g) (.bind allocate_spec fun process _ => ?_) fun g' hg' => ?_
  · cases process with
    | none => exact .pure ⟨rfl, rfl⟩ rfl
    | some process =>
      refine .pure_perm ⟨rfl, rfl⟩ ?_
      rw [List.perm_iff_count]
      intro a
      simp [GlobalData.holds, GlobalData.core, List.count_cons]
      omega
  · rw [← hg'.2]
    exact collectorLock_mem g'

theorem findProcessUnsafe_spec (pid : Handle w) : ∀ {rs : List (Object × Process w)}, (∀ r ∈ rs, r.1 ∈ pre) →
    Total pre (findProcessUnsafe pid rs) (fun o => ∀ r ∈ o, r ∈ rs) fun _ => pre
  | [], _ => .pure (fun r hr => by cases hr) rfl
  | r :: rs, hrs => by
    refine .bind (.use (hrs r List.mem_cons_self)) fun _ _ => ?_
    split
    · refine .pure (fun q hq => ?_) rfl
      cases hq
      exact List.mem_cons_self
    · refine (findProcessUnsafe_spec pid fun q hq => hrs q (List.mem_cons_of_mem _ hq)).imp fun o ho q hq => ?_
      exact List.mem_cons_of_mem _ (ho q hq)

theorem terminateProcess_spec (g : GlobalData w) (pid : Handle w) :
    Total g.holds (terminateProcess g pid) (fun g' => g'.deviceObject = g.deviceObject ∧ g'.collectorLock = g.collectorLock)
      GlobalData.holds := by
  refine guarded_spec (collectorLock_mem g) ?_ fun g' hg' => ?_
  · refine .bind (findProcessUnsafe_spec pid fun r hr => process_mem hr) fun o ho => ?_
    cases o with
    | none => exact .pure ⟨rfl, rfl⟩ rfl
    | some r =>
      have hprocesses := (List.perm_cons_erase (ho r rfl)).map Prod.fst
      refine .bind (.close (R := { g with processes := g.processes.erase r }.holds) ?_) fun _ _ => .pure ⟨rfl, rfl⟩ rfl
      rw [List.perm_iff_count] at hprocesses ⊢
      intro a
      have := hprocesses a
      simp [GlobalData.holds, GlobalData.core, List.count_cons] at this ⊢
      omega
  · rw [← hg'.2]
    exact collectorLock_mem g'

theorem getProcess_spec (g : GlobalData w) (pid : Handle w) :
    Total g.holds (getProcess g pid) (fun o => ∀ r ∈ o, r ∈ g.processes) fun _ => g.holds :=
  guarded_spec (collectorLock_mem g) (findProcessUnsafe_spec pid fun _ hr => process_mem hr) fun _ _ => collectorLock_mem g

theorem setMainThreadCreated_holds (g : GlobalData w) (process : Object) : (setMainThreadCreated g process).holds = g.holds := by
  have : (setMainThreadCreated g process).processes.map Prod.fst = g.processes.map Prod.fst := by
    simp only [setMainThreadCreated, List.map_map]
    apply List.map_congr_left
    intro r _
    by_cases h : r.1 = process <;> simp [h]
  simp only [GlobalData.holds, GlobalData.core, this]
  rfl

theorem printNtStackTrace_spec : Total pre printNtStackTrace (fun _ => True) fun _ => pre :=
  .bind allocate_spec fun buffer _ => closeIf_spec buffer

theorem fltpCheckAndSetGlobalStackTrace_spec (g : GlobalData w) :
    Total g.holds (fltpCheckAndSetGlobalStackTrace g) (fun g' => g'.deviceObject = g.deviceObject ∧ g'.lock = g.lock)
      GlobalData.holds := by
  refine guarded_spec (lock_mem g) ?_ fun g' hg' => ?_
  · cases hgood : g.processCreateGoodStackTrace with
    | some good => exact .pure ⟨rfl, rfl⟩ rfl
    | none =>
      refine .bind allocate_spec fun good _ => .pure_perm ⟨rfl, rfl⟩ ?_
      rw [List.perm_iff_count]
      intro a
      simp [GlobalData.holds, GlobalData.core, hgood]
      omega
  · rw [← hg'.2]
    exact lock_mem g'

theorem fltpHandleThreadCreate_spec (g : GlobalData w) (currentProcessPid processId : Handle w) (hollow : Bool) :
    Total g.holds (fltpHandleThreadCreate g currentProcessPid processId hollow) (fun g' => g'.deviceObject = g.deviceObject)
      GlobalData.holds := by
  unfold fltpHandleThreadCreate
  split
  · exact .pure rfl rfl
  refine .bind (getProcess_spec g processId) fun o ho => ?_
  cases o with
  | none => exact .pure rfl rfl
  | some r =>
    obtain ⟨process, p⟩ := r
    have hmem : process ∈ g.holds := process_mem (ho _ rfl)
    refine .bind (.use hmem) fun _ _ => ?_
    split
    · exact .bind printNtStackTrace_spec fun _ _ => .pure rfl rfl
    refine .bind (.use hmem) fun _ _ => ?_
    rw [← setMainThreadCreated_holds g process]
    refine .bind (fltpCheckAndSetGlobalStackTrace_spec _) fun g' hg' => ?_
    cases hgood : g'.processCreateGoodStackTrace with
    | none => exact .pure hg'.1 rfl
    | some good =>
      refine .bind (.use ?_) fun _ _ => ?_
      · simp [GlobalData.holds, hgood]
      split
      · exact .bind printNtStackTrace_spec fun _ _ => .pure hg'.1 rfl
      · exact .pure hg'.1 rfl

theorem fltRegistryNotifyRoutine_spec (rename : Bool) :
    Total pre (fltRegistryNotifyRoutine rename) (fun _ => True) fun _ => pre := by
  unfold fltRegistryNotifyRoutine
  split
  · exact .pure trivial rfl
  refine .bind (request_spec Kind.keyName) fun r _ => ?_
  obtain ⟨status, currentKeyName⟩ := r
  cases currentKeyName with
  | none => exact .pure trivial rfl
  | some currentKeyName => exact .bind (.use List.mem_cons_self) fun _ _ => .close (.refl _)

theorem lockTaken_spec {lock : Object} (h : lock ∈ pre) : Total pre (guarded lock (pure ())) (fun _ => True) fun _ => pre :=
  guarded_spec h .skip fun _ _ => h

theorem device_mem {device : Object} (h : g.deviceObject.bind (·.deviceObject) = some device) : device ∈ g.holds := by
  obtain ⟨d, hd, hdevice⟩ := Option.bind_eq_some_iff.mp h
  simp [GlobalData.holds, DeviceObject.holds, hd, hdevice]

theorem handle_spec (g : GlobalData w) (event : Event w) :
    Total g.holds (handle g event) (fun g' => g'.deviceObject = g.deviceObject) GlobalData.holds := by
  cases event with
  | processNotify pid create =>
    simp only [handle]
    split
    · exact .pure rfl rfl
    split
    · exact (insertProcess_spec g pid).imp fun _ h => h.1
    · exact (terminateProcess_spec g pid).imp fun _ h => h.1
  | registryNotify rename =>
    simp only [handle]
    split
    · exact .bind (fltRegistryNotifyRoutine_spec rename) fun _ _ => .pure rfl rfl
    · exact .pure rfl rfl
  | threadNotify currentProcessPid processId create hollow =>
    simp only [handle]
    split
    · exact fltpHandleThreadCreate_spec g currentProcessPid processId hollow
    · exact .pure rfl rfl
  | preOperation other =>
    simp only [handle]
    split
    · exact .bind (lockTaken_spec (lock_mem g)) fun _ _ => .pure rfl rfl
    · exact .pure rfl rfl
  | deviceRequest protect =>
    simp only [handle]
    split
    · rename_i device hdevice
      have hmem := mem_some (device_mem hdevice)
      refine .bind (acquire_spec rfl hmem) fun reference _ => ?_
      split
      · refine .bind (lockTaken_spec (List.mem_cons_of_mem _ (lock_mem g))) fun _ _ => ?_
        exact .bind (release_spec rfl hmem reference) fun _ _ => .pure rfl rfl
      · exact .bind (release_spec rfl hmem reference) fun _ _ => .pure rfl rfl
    · exact .pure rfl rfl

theorem handleAll_spec : ∀ (events : List (Event w)) (g : GlobalData w),
    Total g.holds (handleAll g events) (fun g' => g'.deviceObject = g.deviceObject) GlobalData.holds
  | [], _ => .pure rfl rfl
  | event :: events, g => .bind (handle_spec g event) fun g' hg' => (handleAll_spec events g').imp fun _ h => h.trans hg'

theorem run_spec (rounds : ℕ) (events : List (Event w)) :
    Total [] (run rounds events) (fun r => Formed r.2) fun r => r.2.holds := by
  refine .bind (driverEntry_spec rounds) fun r hr => ?_
  obtain ⟨returns, g⟩ := r
  cases returns
  · exact .pure hr rfl
  · refine .bind (handleAll_spec events g) fun g' hg' => .pure ?_ rfl
    unfold Formed
    rw [hg']
    exact hr

/-! ### `DriverUnload` -/

theorem flush_spec : ∀ processes : List Object, Total (processes ++ rest) (flush processes) (fun _ => True) fun _ => rest
  | [] => .pure trivial rfl
  | _ :: processes => .bind (.close (.refl _)) fun _ _ => flush_spec processes

theorem destructLock_spec (lock : Object) : Total (lock :: rest) (destructLock lock) (fun _ => True) fun _ => rest :=
  .bind (guarded_spec List.mem_cons_self .skip fun _ _ => List.mem_cons_self) fun _ _ => .close (.refl _)

theorem destructCollector_spec (g : GlobalData w) :
    Total g.core (destructCollector g) (fun _ => True) fun _ => g.lock :: g.destructor.toList :=
  .bind (guarded_spec (by simp [GlobalData.core]) (flush_spec _) fun _ _ => List.mem_cons_self) fun _ _ => destructLock_spec _

theorem destruct_spec (g : GlobalData w) : Total g.core (destruct g) (fun _ => True) fun _ => g.destructor.toList :=
  .bind (destructCollector_spec g) fun _ _ => destructLock_spec _

/-- What is left with `gDrvData` when its destructor could not be registered. -/
def GlobalData.kept (g : GlobalData w) : List Object := if g.destructor.isSome then [] else g.core

theorem cppCallStaticDestructors_spec (g : GlobalData w) :
    Total g.core (cppCallStaticDestructors g) (fun _ => True) fun _ => g.kept := by
  unfold cppCallStaticDestructors GlobalData.kept
  cases h : g.destructor with
  | none => exact .pure trivial rfl
  | some entry =>
    have hdestruct := destruct_spec g
    rw [h] at hdestruct
    exact .bind hdestruct fun _ _ => .close (.refl _)

theorem gdrvUninitGlobalData_spec (hd : ∀ d ∈ g.deviceObject, d.deviceObject.isSome) :
    Total (g.deviceObject.elim [] DeviceObject.holds ++ (g.processCreateGoodStackTrace.toList ++ g.core))
      (gdrvUninitGlobalData g) (fun _ => True) fun link => g.core ++ link.toList := by
  have hlock : g.lock ∈ g.core := by simp [GlobalData.core]
  refine guarded_spec (by simp [hlock]) ?_ fun link _ => List.mem_append_left _ hlock
  cases hg : g.deviceObject with
  | none => exact .bind (closeIf_spec _) fun _ _ => .pure trivial (List.append_nil _).symm
  | some d =>
    refine .bind (delete_spec (hd d hg) _) fun link _ => ?_
    refine .bind ((closeIf_spec _).weaken (List.perm_append_comm_assoc _ _ _) fun _ _ => .refl _) fun _ _ => ?_
    exact .pure_perm trivial List.perm_append_comm

theorem driverUnload_spec (hd : ∀ d ∈ g.deviceObject, d.deviceObject.isSome) (hr : g.registrationHandle.isSome) :
    Total g.holds (driverUnload g) (fun _ => True) fun link => g.kept ++ link.toList := by
  refine .bind (closeIf_spec _) fun _ _ => .bind (closeIf_spec _) fun _ _ => .bind (closeIf_spec _) fun _ _ => ?_
  refine .bind (closeIf_spec _) fun _ _ => .bind (deref_spec hr fun r hr => mem_toList _ hr) fun _ _ => ?_
  refine .bind (closeIf_spec _) fun _ _ => .bind (gdrvUninitGlobalData_spec hd) fun link _ => ?_
  exact .bind ((cppCallStaticDestructors_spec g).frame link.toList) fun _ _ => .pure trivial rfl

theorem closeIf_returns (o : Option Object) (s : Ledger Kind NtStatus) : ∃ t, closeIf o s = (.ok (), t) := by
  cases o with
  | none => exact ⟨s, rfl⟩
  | some r => exact ⟨_, rfl⟩

theorem gdrvUninitGlobalData_faults {d : DeviceObject} (hg : g.deviceObject = some d) (hd : d.deviceObject = none)
    (s : Ledger Kind NtStatus) : ∃ t, gdrvUninitGlobalData g s = (.error .accessViolation, t) := by
  obtain ⟨t, ht⟩ : ∃ t, use (ε := Fault) g.lock s = (.ok (), t) := ⟨_, rfl⟩
  have hdelete : d.delete t = (.error .accessViolation, t) := by
    unfold DeviceObject.delete
    rw [hd]
    exact bind_error rfl
  refine ⟨t, (bind_ok ht).trans (bind_error ?_)⟩
  rw [hg]
  exact bind_error hdelete

/-- Without a device, or without a registration of the object callbacks, `DriverUnload` follows a null pointer. -/
theorem driverUnload_faults (h : g.registrationHandle = none ∨ ∃ d ∈ g.deviceObject, d.deviceObject = none)
    (s : Ledger Kind NtStatus) : (driverUnload g s).1 = .error .accessViolation := by
  obtain ⟨s₁, h₁⟩ := closeIf_returns g.processNotify s
  obtain ⟨s₂, h₂⟩ := closeIf_returns g.cookie s₁
  obtain ⟨s₃, h₃⟩ := closeIf_returns g.loadImageNotify s₂
  obtain ⟨s₄, h₄⟩ := closeIf_returns g.threadNotify s₃
  unfold driverUnload
  rw [bind_ok h₁, bind_ok h₂, bind_ok h₃, bind_ok h₄]
  cases hr : g.registrationHandle with
  | none => exact congrArg Prod.fst (bind_error rfl)
  | some handle =>
    obtain hn | ⟨d, hg, hd⟩ := h
    · rw [hr] at hn
      cases hn
    obtain ⟨s₅, h₅⟩ : ∃ t, deref (some handle) s₄ = (.ok (), t) := ⟨_, rfl⟩
    obtain ⟨s₆, h₆⟩ := closeIf_returns (some handle) s₅
    obtain ⟨t, ht⟩ := gdrvUninitGlobalData_faults hg hd s₆
    rw [bind_ok h₅, bind_ok h₆, bind_error ht]

/-- **The life of the driver.** However the system answers, and whatever notifications and requests come until it is unloaded,
the driver uses and releases what it has and nothing else. `DriverUnload` follows a null pointer when the device or its link
could not be created, or the object callbacks not registered, and only then; otherwise it releases everything once, but for
a link that cannot be deleted, and for what is left with `gDrvData` when its destructor could not be registered. -/
theorem notification_life (answers : ℕ → NtStatus) (rounds : ℕ) (events : List (Event w)) :
    ∃ returns g s, run rounds events ⟨answers, 0, [], [], [], []⟩ = (.ok (returns, g), s) ∧
      s.misused = [] ∧ s.held.Perm g.holds ∧
      ((driverUnload g s).1 = .error .accessViolation ↔
        g.registrationHandle = none ∨ ∃ d ∈ g.deviceObject, d.isValid = false) ∧
      ∀ link t, driverUnload g s = (.ok link, t) →
        t.misused = [] ∧ t.held.Perm (g.kept ++ link.toList) ∧ (t.closed ++ t.held).Perm t.opened ∧ t.closed.Nodup := by
  obtain ⟨⟨returns, g⟩, s, hrun, hformed, hs, hheld⟩ :=
    run_spec (w := w) rounds events ⟨answers, 0, [], [], [], []⟩ [] (Ledger.sound_initial answers) (.refl _)
  rw [List.append_nil] at hheld
  have hvalid : ∀ d ∈ g.deviceObject, (d.isValid = false ↔ d.deviceObject = none) := by
    intro d hd
    obtain ⟨-, block, device, link, rfl⟩ | ⟨-, block, rfl⟩ := hformed d hd
    · simp
    · simp
  refine ⟨returns, g, s, hrun, hs.sound.misused, hheld, ?_⟩
  by_cases hnull : g.registrationHandle = none ∨ ∃ d ∈ g.deviceObject, d.isValid = false
  · have hfault : (driverUnload g s).1 = .error .accessViolation :=
      driverUnload_faults (hnull.imp id fun ⟨d, hd, hv⟩ => ⟨d, hd, (hvalid d hd).mp hv⟩) s
    refine ⟨⟨fun _ => hnull, fun _ => hfault⟩, fun link t ht => ?_⟩
    rw [ht] at hfault
    cases hfault
  · have hreg : g.registrationHandle.isSome := by
      rw [← Option.ne_none_iff_isSome]
      exact fun h => hnull (.inl h)
    have hdevice : ∀ d ∈ g.deviceObject, d.deviceObject.isSome := by
      intro d hd
      rw [← Option.ne_none_iff_isSome]
      exact fun h => hnull (.inr ⟨d, hd, (hvalid d hd).mpr h⟩)
    obtain ⟨link, t, ht, -, hsound, hleft⟩ := driverUnload_spec hdevice hreg s [] hs.sound (by rwa [List.append_nil])
    refine ⟨⟨fun h => ?_, fun h => absurd h hnull⟩, fun link' t' ht' => ?_⟩
    · rw [ht] at h
      cases h
    · rw [ht] at ht'
      cases ht'
      rw [List.append_nil] at hleft
      exact ⟨hsound.sound.misused, hleft, hsound.sound.once, hsound.sound.closed_nodup⟩

end Notification

/-- **The IOCTL drivers.** However the system answers, and whatever is requested between the load and the unload, each driver
uses only what it has and releases everything once, but for a link that cannot be deleted. A load that fails leaves
nothing. -/
theorem ioctl_drivers_life (answers : ℕ → NtStatus) (requests : ℕ) (forwards : List Bool) :
    (∃ status s, Second.life requests ⟨answers, 0, [], [], [], []⟩ = (.ok status, s) ∧
      s.misused = [] ∧ s.held = [] ∧ s.closed.Perm s.opened ∧ s.closed.Nodup) ∧
    ∃ status link s, First.life forwards ⟨answers, 0, [], [], [], []⟩ = (.ok (status, link), s) ∧
      s.misused = [] ∧ s.held = link.toList ∧ (ntSuccess status = false → link = none) ∧
      (s.closed ++ link.toList).Perm s.opened ∧ s.closed.Nodup := by
  constructor
  · obtain ⟨status, s, hlife, -, hs, hheld⟩ :=
      Second.life_spec requests ⟨answers, 0, [], [], [], []⟩ [] (Ledger.sound_initial answers) (.refl _)
    have hheld := hheld.eq_nil
    exact ⟨status, s, hlife, hs.sound.misused, hheld, hs.sound.all_closed hheld, hs.sound.closed_nodup⟩
  · obtain ⟨⟨status, link⟩, s, hlife, hlink, hs, hheld⟩ :=
      First.life_spec forwards ⟨answers, 0, [], [], [], []⟩ [] (Ledger.sound_initial answers) (.refl _)
    have hheld : s.held = link.toList := by
      rw [List.append_nil] at hheld
      cases link with
      | none => exact hheld.eq_nil
      | some link => exact List.perm_singleton.mp hheld
    refine ⟨status, link, s, hlife, hs.sound.misused, hheld, hlink, ?_, hs.sound.closed_nodup⟩
    rw [← hheld]
    exact hs.sound.once

end Dmsk.DriverObjects
