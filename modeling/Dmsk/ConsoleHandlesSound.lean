import Dmsk.ConsoleHandles

/-!
# The console application closes what it opens

One triple for each routine: a dump, a request and a remote thread leave
nothing when they return; a pool holds its handles from its constructor to its
destructor. Between two commands the application holds the module and the
handles of the pool, if there is one. A dump in which an allocation fails throws
past `CloseHandle`: the handles of its process and its snapshot are left over.
-/

namespace Dmsk.Console.Handles

open Resources Resources.Routine

variable {pre : List HANDLE} {thrown : Exception → List HANDLE} {lost : Reply → Kind → Prop}

/-- What an allocation that fails may leave over. -/
def unclosed (reply : Reply) (kind : Kind) : Prop := reply.memory = false ∧ (kind = .process ∨ kind = .snapshot)

/-- Where an allocation fails, all of `pre` but what may be left over is `kept`. -/
def Drops (pre kept : List HANDLE) : Prop := ∃ L, pre.Perm (kept ++ L) ∧ ∀ r ∈ L, r.kind = .process ∨ r.kind = .snapshot

theorem Drops.refl : Drops pre pre := ⟨[], by rw [List.append_nil], fun r hr => by cases hr⟩

theorem Drops.cons {kept : List HANDLE} (h : Drops pre kept) {handle : HANDLE}
    (hkind : handle.kind = .process ∨ handle.kind = .snapshot) : Drops (handle :: pre) kept := by
  obtain ⟨L, hL, hkinds⟩ := h
  refine ⟨handle :: L, (hL.cons handle).trans List.perm_middle.symm, fun r hr => ?_⟩
  rcases List.mem_cons.mp hr with rfl | hr
  · exact hkind
  · exact hkinds r hr

theorem allocate_spec {kept : List HANDLE} (h : Drops pre kept) : Triple unclosed pre allocate (fun _ => pre) fun _ => kept := by
  obtain ⟨L, hL, hkinds⟩ := h
  exact .require (fun _ hmemory r hr => ⟨hmemory, hkinds r hr⟩) hL

/-! ## `ThreadPool` -/

theorem waitThreads_spec (thrown : Exception → List HANDLE) (rest : List HANDLE) : ∀ threads : List HANDLE,
    Triple lost (threads ++ rest) (waitThreads threads) (fun _ => rest) thrown
  | [] => .pure rfl
  | _ :: threads =>
    .bind (.use List.mem_cons_self) fun _ => .bind (.close (.refl _)) fun _ => waitThreads_spec thrown rest threads

theorem disposeEvents_spec (thrown : Exception → List HANDLE) (rest : List HANDLE) : ∀ events : List HANDLE,
    Triple lost (events ++ rest) (disposeEvents events) (fun _ => rest) thrown
  | [] => .pure rfl
  | _ :: events => .bind (.close (.refl _)) fun _ => disposeEvents_spec thrown rest events

def ThreadPool.handles (pool : ThreadPool) : List HANDLE := pool.threads ++ pool.events

theorem cleanupThreadPool_spec (thrown : Exception → List HANDLE) (pool : ThreadPool) :
    Triple lost pool.handles pool.cleanupThreadPool (fun _ => []) thrown := by
  refine .bind (waitThreads_spec thrown pool.events pool.threads) fun _ => ?_
  have h : Triple lost (pool.events ++ []) (disposeEvents pool.events) (fun _ => []) thrown :=
    disposeEvents_spec thrown [] pool.events
  rwa [List.append_nil] at h

theorem shutdown_spec (thrown : Exception → List HANDLE) (pool : ThreadPool) :
    Triple lost pool.handles pool.shutdown (fun p => p.handles) thrown := by
  have hrest : Triple lost pool.handles (waitThreads pool.threads >>= fun _ => pure { pool with threads := [] })
      (fun p : ThreadPool => p.handles) thrown := by
    refine .bind (waitThreads_spec thrown pool.events pool.threads) fun _ => ?_
    exact .pure rfl
  unfold ThreadPool.shutdown
  split
  · rename_i event events he
    refine .bind (.use ?_) fun _ => hrest
    exact List.mem_append_right _ (he ▸ List.mem_cons_self)
  · exact hrest

theorem shutdown_cleanup_spec (thrown : Exception → List HANDLE) (pool : ThreadPool) :
    Triple lost pool.handles (pool.shutdown >>= fun p => p.cleanupThreadPool) (fun _ => []) thrown :=
  .bind (shutdown_spec thrown pool) fun p => cleanupThreadPool_spec thrown p

theorem createEvents_spec : ∀ (n : ℕ) (pool : ThreadPool),
    Triple lost pool.handles (createEvents n pool) (fun p => p.handles) (fun _ => [])
  | 0, pool => .pure rfl
  | n + 1, pool => by
    refine .bind .call fun reply => ?_
    split
    · exact .bind (cleanupThreadPool_spec _ pool) fun _ => .throw rfl
    · refine .bind (.create Kind.event) fun event => (createEvents_spec n _).pre_perm ?_
      show (event :: (pool.threads ++ pool.events)).Perm (pool.threads ++ (pool.events ++ [event]))
      rw [← List.append_assoc]
      exact (List.perm_append_singleton _ _).symm

theorem createThreads_spec : ∀ (n : ℕ) (pool : ThreadPool),
    Triple lost pool.handles (createThreads n pool) (fun p => p.handles) (fun _ => [])
  | 0, pool => .pure rfl
  | n + 1, pool => by
    refine .bind .call fun reply => ?_
    split
    · refine .bind (shutdown_spec _ pool) fun p => ?_
      exact .bind (cleanupThreadPool_spec _ p) fun _ => .throw rfl
    · refine .bind (.create Kind.poolThread) fun thread => (createThreads_spec n _).pre_perm ?_
      show (thread :: (pool.threads ++ pool.events)).Perm (pool.threads ++ [thread] ++ pool.events)
      rw [List.append_assoc, List.singleton_append]
      exact List.perm_middle.symm

theorem construct_spec (n : ℕ) : Triple unclosed [] (ThreadPool.construct n) (fun p => p.handles) (fun _ => []) :=
  .bind (allocate_spec .refl) fun _ => .bind (createEvents_spec 2 ⟨[], []⟩) fun pool => createThreads_spec n pool

/-! ## The dumps -/

theorem query_spec {handle : HANDLE} (hr : handle ∈ pre) : Triple lost pre (query handle) (fun _ => pre) thrown :=
  .bind (.use hr) fun _ => .bind .call fun _ => .pure rfl

section
variable {kept : List HANDLE}

theorem readCommandLine_spec {handle : HANDLE} (hr : handle ∈ pre) (h : Drops pre kept) :
    Triple unclosed pre (readCommandLine handle) (fun _ => pre) fun _ => kept := by
  unfold readCommandLine
  refine .bind (query_spec hr) fun _ => ?_
  split
  · exact .pure rfl
  refine .bind (query_spec hr) fun _ => ?_
  split
  · exact .pure rfl
  refine .bind (query_spec hr) fun _ => ?_
  split
  · exact .pure rfl
  exact .bind (allocate_spec h) fun _ => .bind (query_spec hr) fun _ => .pure rfl

theorem pupDumpProcess_spec (h : Drops pre kept) (processId : BitVec 32) :
    Triple unclosed pre (pupDumpProcess processId) (fun _ => pre) fun _ => kept := by
  refine .bind .call fun reply => ?_
  split
  · exact .pure rfl
  · refine .bind_total (.create Kind.process) fun handle hkind => ?_
    exact .bind (readCommandLine_spec List.mem_cons_self (h.cons (.inl hkind))) fun _ => .close (.refl _)

theorem dumpProcesses_spec (h : Drops pre kept) : ∀ processIds : List (BitVec 32),
    Triple unclosed pre (dumpProcesses processIds) (fun _ => pre) fun _ => kept
  | [] => .pure rfl
  | processId :: processIds => .bind (pupDumpProcess_spec h processId) fun _ => dumpProcesses_spec h processIds

theorem dumpEntries_spec {snapshotHandle : HANDLE} (hr : snapshotHandle ∈ pre) (h : Drops pre kept) :
    ∀ processIds : List (BitVec 32), Triple unclosed pre (dumpEntries snapshotHandle processIds) (fun _ => pre) fun _ => kept
  | [] => .pure rfl
  | processId :: processIds =>
    .bind (allocate_spec h) fun _ => .bind (pupDumpProcess_spec h processId) fun _ => .bind (.use hr) fun _ =>
      dumpEntries_spec hr h processIds

end

theorem toolHelp32_spec : Triple unclosed [] puDumpActiveProcessesToolHelp32Snapshot (fun _ => []) fun _ => [] := by
  refine .bind .call fun reply => ?_
  split
  · exact .throw rfl
  · refine .bind_total (.create Kind.snapshot) fun snapshotHandle hkind => ?_
    refine .bind (.use List.mem_cons_self) fun _ => .bind .call fun first => ?_
    dsimp only
    split
    · exact .bind (dumpEntries_spec List.mem_cons_self (Drops.refl.cons (.inr hkind)) _) fun _ => .close (.refl _)
    · exact .bind .skip fun _ => .close (.refl _)

theorem psapi_spec : Triple unclosed [] puDumpActiveProcessesPsapi (fun _ => []) fun _ => [] := by
  refine .bind (allocate_spec .refl) fun _ => .bind .call fun reply => ?_
  split
  · exact .throw rfl
  · exact dumpProcesses_spec .refl _

theorem zwQuerySystemInformation_spec :
    Triple unclosed [] puDumpActiveProcessesZwQuerySystemInformation (fun _ => []) fun _ => [] := by
  refine .bind (allocate_spec .refl) fun _ => .bind .call fun reply => ?_
  split
  · exact .throw rfl
  · exact dumpProcesses_spec .refl _

/-! ## The other commands -/

theorem ioctlSendIoctl_spec : Triple lost [] ioctlSendIoctl (fun _ => []) fun _ => [] := by
  refine .bind .call fun reply => ?_
  split
  · exact .throw rfl
  · refine .bind (.create Kind.device) fun deviceHandle => ?_
    exact .bind (.use List.mem_cons_self) fun _ => .bind .call fun _ => .close (.refl _)

def ProcessInformation.handles (procInfo : ProcessInformation) : List HANDLE := [procInfo.hThread, procInfo.hProcess]

theorem rmtpOpenCmd_spec : Triple lost [] rmtpOpenCmd (fun p => p.handles) fun _ => [] := by
  refine .bind .call fun reply => ?_
  split
  · exact .throw rfl
  · refine .bind (.create Kind.process) fun hProcess => .bind (.create Kind.thread) fun hThread => ?_
    exact .pure rfl

theorem rmtpCreateRemoteThread_spec (procInfo : ProcessInformation) :
    Triple lost procInfo.handles (rmtpCreateRemoteThread procInfo) (fun t => t.toList ++ procInfo.handles) fun _ => [] := by
  refine .bind (.use (by simp [ProcessInformation.handles])) fun _ => .bind .call fun reply => ?_
  split
  · exact .pure rfl
  · refine .bind (.create Kind.remoteThread) fun threadHandle => ?_
    exact .pure rfl

theorem rmtpCleanupRemoteThread_spec (threadHandle : Option HANDLE) :
    Triple lost (threadHandle.toList ++ pre) (rmtpCleanupRemoteThread threadHandle) (fun _ => pre) thrown := by
  cases threadHandle with
  | none => exact .pure rfl
  | some threadHandle => exact .bind (.use List.mem_cons_self) fun _ => .close (.refl _)

theorem rmtpCleanupProcess_spec (procInfo : ProcessInformation) (threadHandle : Option HANDLE) :
    Triple lost (threadHandle.toList ++ procInfo.handles) (rmtpCleanupProcess procInfo threadHandle)
      (fun _ => []) fun _ => [] := by
  have hmem : procInfo.hProcess ∈ procInfo.handles := by simp [ProcessInformation.handles]
  refine .bind (.use (List.mem_append_right _ hmem)) fun _ => ?_
  refine .bind (rmtpCleanupRemoteThread_spec threadHandle) fun _ => .bind (.use hmem) fun _ => ?_
  exact .bind (.close (.swap _ _ [])) fun _ => .close (.refl _)

theorem rmtCreateRemoteThread_spec : Triple lost [] rmtCreateRemoteThread (fun _ => []) fun _ => [] :=
  .bind rmtpOpenCmd_spec fun procInfo =>
    .bind (rmtpCreateRemoteThread_spec procInfo) fun threadHandle => rmtpCleanupProcess_spec procInfo threadHandle

/-! ## The application -/

/-- What the application holds between two commands. -/
def GlobalData.handles (g : GlobalData) : List HANDLE := g.ntDllModuleHandle :: (g.threadPool.elim [] ThreadPool.handles)

theorem getProcAddresses_spec (ntDllModuleHandle : HANDLE) : ∀ names : List String,
    Triple lost [ntDllModuleHandle] (getProcAddresses ntDllModuleHandle names) (fun _ => [ntDllModuleHandle]) fun _ => []
  | [] => .pure rfl
  | name :: names => by
    refine .bind (.use List.mem_cons_self) fun _ => .bind .call fun reply => ?_
    split
    · exact .bind (.close (.refl _)) fun _ => .throw rfl
    · exact getProcAddresses_spec ntDllModuleHandle names

theorem solveImports_spec : Triple lost [] solveImports (fun g => g.handles) fun _ => [] := by
  refine .bind .call fun reply => ?_
  split
  · exact .throw rfl
  · refine .bind (.create Kind.module) fun ntDllModuleHandle => ?_
    refine .bind (getProcAddresses_spec ntDllModuleHandle _) fun _ => ?_
    exact .pure rfl

/-- A command that leaves nothing, whatever the application holds. -/
theorem keeps_handles {x : Code Unit} (h : Triple unclosed [] x (fun _ => []) fun _ => []) (g : GlobalData) :
    Triple unclosed g.handles (x >>= fun _ => pure g) (fun g => g.handles) fun _ => g.handles :=
  .bind (h.frame g.handles) fun _ => .pure rfl

theorem startThreadPoolCommand_spec (n : ℕ) (g : GlobalData) :
    Triple unclosed g.handles (startThreadPoolCommand n g) (fun g => g.handles) fun _ => g.handles := by
  unfold startThreadPoolCommand
  split
  · exact .pure rfl
  · rename_i hnone
    have hg : g.handles = [g.ntDllModuleHandle] := by simp [GlobalData.handles, hnone]
    rw [hg]
    refine .bind ((construct_spec n).frame [g.ntDllModuleHandle]) fun pool => ?_
    refine (Triple.pure rfl).pre_perm ?_
    exact List.perm_append_singleton _ _

theorem stopThreadPoolCommand_spec (g : GlobalData) :
    Triple unclosed g.handles (stopThreadPoolCommand g) (fun g => g.handles) fun _ => g.handles := by
  unfold stopThreadPoolCommand
  split
  · rename_i pool hsome
    have hg : g.handles.Perm (pool.handles ++ [g.ntDllModuleHandle]) := by
      simp only [GlobalData.handles, hsome, Option.elim_some]
      exact (List.perm_append_singleton _ _).symm
    have hshutdown : Triple unclosed g.handles pool.shutdown (fun p => p.handles ++ [g.ntDllModuleHandle]) fun _ => g.handles :=
      ((shutdown_spec (fun _ => pool.handles) pool).frame [g.ntDllModuleHandle]).weaken hg (fun _ => .refl _) fun _ => hg.symm
    have hdestruct : ∀ p : ThreadPool, Triple unclosed (p.handles ++ [g.ntDllModuleHandle]) p.destruct
        (fun _ => [g.ntDllModuleHandle]) fun _ => g.handles := fun p =>
      ((shutdown_cleanup_spec (fun _ => pool.handles) p).frame [g.ntDllModuleHandle]).weaken (.refl _) (fun _ => .refl _)
        fun _ => hg.symm
    exact .bind hshutdown fun p => .bind (hdestruct p) fun _ => .pure rfl
  · exact .pure rfl

theorem run_spec (n : ℕ) (g : GlobalData) (handler : Handler) :
    Triple unclosed g.handles (run n g handler) (fun g => g.handles) fun _ => g.handles := by
  cases handler with
  | printHelpCommand | exitCommand => exact .pure rfl
  | startThreadPoolCommand => exact startThreadPoolCommand_spec n g
  | stopThreadPoolCommand => exact stopThreadPoolCommand_spec g
  | puDumpActiveProcessesToolHelp32Snapshot => exact keeps_handles toolHelp32_spec g
  | puDumpActiveProcessesPsapi => exact keeps_handles psapi_spec g
  | puDumpActiveProcessesZwQuerySystemInformation => exact keeps_handles zwQuerySystemInformation_spec g
  | sendFirstIoctl | sendSecondIoctl | protectProcessCommand => exact keeps_handles ioctlSendIoctl_spec g
  | rmtCreateRemoteThread => exact keeps_handles rmtCreateRemoteThread_spec g

theorem execute_spec (n : ℕ) (g : GlobalData) (command : String) :
    Triple unclosed g.handles (execute n g command) (fun g => g.handles) thrown := by
  unfold execute
  split
  · exact .tryCatch (run_spec n g _) fun _ => .pure rfl
  · exact .pure rfl

theorem executeAll_spec (n : ℕ) : ∀ (commands : List String) (g : GlobalData),
    Triple unclosed g.handles (executeAll n g commands) (fun g => g.handles) thrown
  | [], _ => .pure rfl
  | command :: commands, g => by
    unfold executeAll
    split
    · exact .bind (execute_spec n g command) fun g' => executeAll_spec n commands g'
    · exact .pure rfl

theorem session_spec (n : ℕ) (commands : List String) :
    Triple unclosed [] (session n commands) (fun g => g.handles) fun _ => [] :=
  .bind solveImports_spec fun g => .bind (execute_spec n g "Help") fun g' => executeAll_spec n commands g'

theorem destruct_spec (g : GlobalData) : Triple unclosed g.handles g.destruct (fun _ => []) fun _ => [] := by
  refine .bind (.close (.refl _)) fun _ => ?_
  cases g.threadPool with
  | none => exact .pure rfl
  | some pool => exact shutdown_cleanup_spec _ pool

theorem main_spec (n : ℕ) (commands : List String) : Triple unclosed [] (main n commands) (fun _ => []) fun _ => [] :=
  .bind (session_spec n commands) destruct_spec

section
variable {s : Ledger Kind Reply}

/-- A handler is caught. -/
theorem execute_returns (n : ℕ) (g : GlobalData) (command : String) : ∃ g', (execute n g command s).1 = .ok g' := by
  unfold execute
  cases availableCommands.lookup command with
  | none => exact ⟨g, rfl⟩
  | some handler =>
    dsimp only [Routine.tryCatch]
    split
    · exact ⟨_, rfl⟩
    · exact ⟨g, rfl⟩

theorem executeAll_returns (n : ℕ) : ∀ (commands : List String) (g : GlobalData) (s : Ledger Kind Reply),
    ∃ g', (executeAll n g commands s).1 = .ok g'
  | [], g, _ => ⟨g, rfl⟩
  | command :: commands, g, s => by
    unfold executeAll
    split
    · obtain ⟨g', hg⟩ := execute_returns (s := s) n g command
      rw [bind_ok (Prod.ext hg rfl)]
      exact executeAll_returns n commands g' _
    · exact ⟨g, rfl⟩

/-- Only the constructor of `gGlobalData` can fail. -/
theorem session_error {n : ℕ} {commands : List String} {e : Exception} (he : (session n commands s).1 = .error e) :
    (session n commands s).2 = (solveImports s).2 ∧ (solveImports s).1 = .error e := by
  unfold session at he ⊢
  cases hs : solveImports s with
  | mk result t =>
    cases result with
    | error e' =>
      rw [bind_error hs] at he ⊢
      exact ⟨rfl, he⟩
    | ok g =>
      rw [bind_ok hs] at he
      obtain ⟨g', hg⟩ := execute_returns (s := t) n g "Help"
      rw [bind_ok (Prod.ext hg rfl)] at he
      obtain ⟨g'', hg'⟩ := executeAll_returns n commands g' (execute n g "Help" t).2
      rw [hg'] at he
      cases he

end

/-- **Handles.** However the system answers, whatever is typed and wherever memory runs out in a command, after every
command the application holds the module and the handles of its pool, and of others at most some of processes and
snapshots, and only if memory has run out. At its end each other handle that it opened has been closed, once, and none
was used after that. -/
theorem main_closes_once (answers : ℕ → Reply) (n : ℕ) (commands : List String) :
    let start : Ledger Kind Reply := ⟨answers, 0, [], [], [], []⟩
    (∀ g, (session n commands start).1 = .ok g →
      ∃ L, Lost unclosed answers L ∧ (session n commands start).2.held.Perm (g.handles ++ L)) ∧
      (∀ e, (session n commands start).1 = .error e → (session n commands start).2.held = []) ∧
      (main n commands start).2.misused = [] ∧ (main n commands start).2.closed.Nodup ∧
      ((main n commands start).2.closed ++ (main n commands start).2.held).Perm (main n commands start).2.opened ∧
      Lost unclosed answers (main n commands start).2.held ∧
      ((∀ i, (answers i).memory = true) → (main n commands start).2.held = [] ∧
        (main n commands start).2.closed.Perm (main n commands start).2.opened) := by
  intro start
  have hstart : start.Sound := Ledger.sound_initial answers
  obtain ⟨-, L, hL, hsession⟩ := session_spec n commands start [] hstart (.refl _)
  obtain ⟨hsound, M, hM, hheld⟩ := main_spec n commands start [] hstart (.refl _)
  have hlost : Lost unclosed answers (main n commands start).2.held := by
    have hkept : (main n commands start).2.held.Perm M := by
      cases hr : (main n commands start).1 <;> rw [hr] at hheld <;> simpa [left] using hheld
    exact fun r hr => hM r (hkept.mem_iff.mp hr)
  refine ⟨fun g hg => ⟨L, hL, ?_⟩, fun e he => ?_, hsound.sound.misused, hsound.sound.closed_nodup, hsound.sound.once, hlost,
    fun hmemory => ?_⟩
  · rw [hg] at hsession
    simpa [left] using hsession
  · obtain ⟨hsame, herror⟩ := session_error he
    have hspec : Triple (fun _ _ => False) [] solveImports (fun g => g.handles) fun _ => [] := solveImports_spec
    obtain ⟨-, N, hN, hnone⟩ := hspec start [] hstart (.refl _)
    have hempty : N = [] := List.eq_nil_iff_forall_not_mem.mpr fun r hr => (hN r hr).elim fun _ h => h
    rw [herror, hempty] at hnone
    rw [hsame]
    exact hnone.eq_nil
  · have hnone : (main n commands start).2.held = [] := by
      refine List.eq_nil_iff_forall_not_mem.mpr fun r hr => ?_
      obtain ⟨i, hi, -⟩ := hlost r hr
      rw [hmemory i] at hi
      cases hi
    exact ⟨hnone, hsound.sound.all_closed hnone⟩

end Dmsk.Console.Handles
