import Dmsk.ProcessListSound
import Dmsk.Transition

/-!
# Querying the process list

`PuDumpActiveProcessesZwQuerySystemInformation` on x64: the loop that queries,
allocates and queries again until the buffer is large enough, and the walk over
the buffer. The kernel answers each query as it likes. A buffer is named by its
place in the order of the allocations, and counts how often it is deleted.
-/

namespace Dmsk.ProcessQuery

open ProcessList (Memory pass walk)

def statusInfoLengthMismatch : NtStatus := 0xC0000004#32
def statusBufferTooSmall : NtStatus := 0xC0000023#32

/-- The statuses on which an exception is thrown. -/
def throws (status : NtStatus) : Bool :=
  !ntSuccess status && status ≠ statusInfoLengthMismatch && status ≠ statusBufferTooSmall

abbrev entrySize : ℕ := Target.x64.sizeofSystemProcessInformation

/-- The answer to a query, with what is then in memory from the buffer on. -/
structure Reply where
  status : NtStatus
  requiredSize : BitVec 32
  memory : Memory := fun _ => 0

/-- `reported` is the size from the query before the allocation. -/
structure Buffer where
  bytes : ℕ
  reported : BitVec 32
  deletions : ℕ := 0
deriving DecidableEq, Repr

/-- A call of `ZwQuerySystemInformation`, without a buffer for the null pointer. -/
structure Call where
  buffer : Option ℕ
  length : BitVec 32
  status : NtStatus
deriving DecidableEq, Repr

/-- `walking idx` is at the guard of the walk. -/
inductive Pc
  | sizing
  | filling
  | walking (idx : BitVec 32)
  | returned
  | threw
deriving DecidableEq, Repr

structure State where
  pc : Pc := .sizing
  requiredSize : BitVec 32 := 0
  noProcesses : BitVec 32 := 0
  processes : Option ℕ := none
  memory : Memory := fun _ => 0
  heap : ℕ → Option Buffer := fun _ => none
  fresh : ℕ := 0
  lastCall : Option Call := none

/-- `reply` is a query, `pass` a pass of the walk. -/
inductive Act
  | reply (r : Reply)
  | pass

namespace State

/-- `new SYSTEM_PROCESS_INFORMATION[noProcesses]`. -/
def allocate (s : State) : State :=
  { s with
    processes := some s.fresh
    heap := Function.update s.heap s.fresh (some ⟨s.noProcesses.toNat * entrySize, s.requiredSize, 0⟩)
    fresh := s.fresh + 1 }

/-- `delete[] processes`, which leaves the pointer as it is. -/
def deleteProcesses (s : State) : State :=
  match s.processes with
  | some i =>
    { s with
      heap := Function.update s.heap i ((s.heap i).map fun b => { b with deletions := b.deletions + 1 }) }
  | none => s

def goto (s : State) (pc : Pc) : State := { s with pc := pc }

/-- `ZwQuerySystemInformation`, with the status and the size of the reply. -/
def zwQuerySystemInformation (s : State) (buffer : Option ℕ) (length : BitVec 32) (r : Reply) : State :=
  { s with requiredSize := r.requiredSize, lastCall := some ⟨buffer, length, r.status⟩ }

def setNoProcesses (s : State) (noProcesses : BitVec 32) : State := { s with noProcesses := noProcesses }

def setMemory (s : State) (memory : Memory) : State := { s with memory := memory }

/-- The query for the size, and the allocation. The number of entries is a
`size_t`, narrowed to a `DWORD`. -/
def querySize (s : State) (r : Reply) : State :=
  let s := s.zwQuerySystemInformation none 0 r
  if throws r.status then s.goto .threw
  else (s.setNoProcesses (BitVec.ofNat 32 (r.requiredSize.toNat / entrySize + 10))).allocate.goto .filling

/-- The query for the entries. The length is a `size_t`, narrowed to a `ULONG`. -/
def queryProcesses (s : State) (r : Reply) : State :=
  let length := BitVec.ofNat 32 (s.noProcesses.toNat * entrySize)
  let s := (s.zwQuerySystemInformation s.processes length r).setMemory r.memory
  if throws r.status then s.deleteProcesses.goto .threw
  else if ntSuccess r.status then s.goto (.walking 0)
  else s.deleteProcesses.goto .sizing

def walkPass (s : State) (idx : BitVec 32) : State :=
  match pass .x64 s.memory s.requiredSize idx with
  | some idx' => s.goto (.walking idx')
  | none => s.deleteProcesses.goto .returned

def step (s : State) : Act → Option State
  | .reply r =>
    match s.pc with
    | .sizing => some (s.querySize r)
    | .filling => some (s.queryProcesses r)
    | _ => none
  | .pass =>
    match s.pc with
    | .walking idx => some (s.walkPass idx)
    | _ => none

/-- The buffer that the next step passes to the kernel, reads or deletes. -/
def used (s : State) : Option ℕ :=
  match s.pc with
  | .filling | .walking _ => s.processes
  | _ => none

end State

def system : System State Act where
  init s := s = {}
  step := State.step

/-! ## The buffers -/

theorem bytes_eq (r : BitVec 32) :
    (BitVec.ofNat 32 (r.toNat / entrySize + 10)).toNat * entrySize = (r.toNat / 256 + 10) * 256 := by
  have hlt := r.isLt
  rw [show entrySize = 256 by decide, BitVec.toNat_ofNat, Nat.mod_eq_of_lt (by omega)]

/-- All buffers are deleted but the one that is live. -/
structure Ledger (s : State) (live : Option ℕ) : Prop where
  allocated : ∀ i b, s.heap i = some b → i < s.fresh
  larger : ∀ i b, s.heap i = some b → b.reported.toNat < b.bytes
  deletions : ∀ i b, s.heap i = some b → b.deletions = if live = some i then 0 else 1
  live : ∀ i, live = some i → s.processes = some i ∧ (s.heap i).isSome

theorem Ledger.keep {s s' : State} {live : Option ℕ} (h : Ledger s live) (hheap : s'.heap = s.heap) (hfresh : s'.fresh = s.fresh)
    (hprocesses : s'.processes = s.processes) : Ledger s' live := by
  constructor
  · rw [hheap, hfresh]
    exact h.allocated
  · rw [hheap]
    exact h.larger
  · rw [hheap]
    exact h.deletions
  · rw [hheap, hprocesses]
    exact h.live

theorem Ledger.allocate {s : State} (h : Ledger s none) (hlarger : s.requiredSize.toNat < s.noProcesses.toNat * entrySize) :
    Ledger s.allocate (some s.fresh) := by
  have hheap : ∀ i b, s.allocate.heap i = some b →
      (i = s.fresh ∧ b = ⟨s.noProcesses.toNat * entrySize, s.requiredSize, 0⟩) ∨ (i ≠ s.fresh ∧ s.heap i = some b) := by
    intro i b hb
    simp only [State.allocate] at hb
    by_cases hi : i = s.fresh
    · subst hi
      rw [Function.update_self] at hb
      exact .inl ⟨rfl, (Option.some.inj hb).symm⟩
    · rw [Function.update_of_ne hi] at hb
      exact .inr ⟨hi, hb⟩
  constructor
  · intro i b hb
    show i < s.fresh + 1
    rcases hheap i b hb with ⟨rfl, -⟩ | ⟨-, hb⟩
    · omega
    · have := h.allocated i b hb
      omega
  · intro i b hb
    rcases hheap i b hb with ⟨-, rfl⟩ | ⟨-, hb⟩
    · exact hlarger
    · exact h.larger i b hb
  · intro i b hb
    rcases hheap i b hb with ⟨rfl, rfl⟩ | ⟨hi, hb⟩
    · rw [if_pos rfl]
    · rw [if_neg (by simpa using Ne.symm hi), h.deletions i b hb]
      rfl
  · intro i hi
    obtain rfl := Option.some.inj hi
    exact ⟨rfl, by simp [State.allocate]⟩

theorem heap_deleteProcesses {s : State} {i : ℕ} (h : s.processes = some i) : s.deleteProcesses.heap =
    Function.update s.heap i ((s.heap i).map fun b => { b with deletions := b.deletions + 1 }) := by
  unfold State.deleteProcesses
  rw [h]

theorem deleteProcesses_frame (s : State) : s.deleteProcesses.fresh = s.fresh ∧ s.deleteProcesses.lastCall = s.lastCall ∧
    ∀ i, (s.deleteProcesses.heap i).map (fun b => (b.bytes, b.reported)) = (s.heap i).map fun b => (b.bytes, b.reported) := by
  cases hp : s.processes with
  | none =>
    unfold State.deleteProcesses
    rw [hp]
    exact ⟨rfl, rfl, fun i => rfl⟩
  | some i =>
    have hheap := heap_deleteProcesses hp
    unfold State.deleteProcesses at hheap ⊢
    rw [hp] at hheap ⊢
    refine ⟨rfl, rfl, ?_⟩
    intro j
    by_cases hj : j = i
    · subst hj
      rw [hheap, Function.update_self, Option.map_map]
      rfl
    · rw [hheap, Function.update_of_ne hj]

theorem bytes_of_map_eq {x y : Option Buffer} {b : Buffer}
    (h : x.map (fun b => (b.bytes, b.reported)) = y.map fun b => (b.bytes, b.reported)) (hb : x = some b) :
    ∃ b', y = some b' ∧ b'.bytes = b.bytes ∧ b'.reported = b.reported := by
  subst hb
  obtain ⟨b', hb', he⟩ := Option.map_eq_some_iff.mp h.symm
  exact ⟨b', hb', congrArg Prod.fst he, congrArg Prod.snd he⟩

theorem Ledger.deleteProcesses {s : State} {i : ℕ} (h : Ledger s (some i)) : Ledger s.deleteProcesses none := by
  obtain ⟨hfresh, -, hold⟩ := deleteProcesses_frame s
  have hp := (h.live i rfl).1
  constructor
  · intro j b hb
    obtain ⟨b', hb', -⟩ := bytes_of_map_eq (hold j) hb
    rw [hfresh]
    exact h.allocated j b' hb'
  · intro j b hb
    obtain ⟨b', hb', hbytes, hreported⟩ := bytes_of_map_eq (hold j) hb
    rw [← hbytes, ← hreported]
    exact h.larger j b' hb'
  · intro j b hb
    rw [heap_deleteProcesses hp] at hb
    by_cases hj : j = i
    · subst hj
      rw [Function.update_self] at hb
      obtain ⟨b', hb', rfl⟩ := Option.map_eq_some_iff.mp hb
      have := h.deletions j b' hb'
      rw [if_pos rfl] at this
      simp [this]
    · rw [Function.update_of_ne hj] at hb
      rw [h.deletions j b hb, if_neg (by simpa using Ne.symm hj)]
      rfl
  · intro j hj
    cases hj

/-- The kernel is told of no more bytes than there are. -/
def Fits (s : State) : Prop := ∀ call i, s.lastCall = some call → call.buffer = some i →
  ∃ b, s.heap i = some b ∧ call.length.toNat ≤ b.bytes

theorem Fits.deleteProcesses {s : State} (h : Fits s) : Fits s.deleteProcesses := by
  obtain ⟨-, hcall, hold⟩ := deleteProcesses_frame s
  intro call i hc hi
  rw [hcall] at hc
  obtain ⟨b, hb, hle⟩ := h call i hc hi
  obtain ⟨b', hb', hbytes, -⟩ := bytes_of_map_eq (hold i).symm hb
  exact ⟨b', hb', hbytes ▸ hle⟩

/-- The buffer that is live is the one that the next step uses. -/
structure Inv (s : State) : Prop where
  ledger : Ledger s s.used
  held : s.pc = .filling ∨ (∃ idx, s.pc = .walking idx) → s.used.isSome
  filling : s.pc = .filling → ∀ i b, s.used = some i → s.heap i = some b → b.bytes = s.noProcesses.toNat * entrySize
  fits : Fits s
  walking : ∀ idx, s.pc = .walking idx → ∃ call, s.lastCall = some call ∧ call.buffer = s.used ∧
    ntSuccess call.status = true

theorem inv_free {s : State} (hl : Ledger s none) (hf : Fits s) (pc : Pc) (hpc : pc ≠ .filling)
    (hpc' : ∀ idx, pc ≠ .walking idx) : Inv (s.goto pc) := by
  have hu : (s.goto pc).used = none := by
    cases pc with
    | filling => exact absurd rfl hpc
    | walking idx => exact absurd rfl (hpc' idx)
    | sizing => rfl
    | returned => rfl
    | threw => rfl
  refine ⟨?_, ?_, fun h => absurd h hpc, hf, fun idx h => absurd h (hpc' idx)⟩
  · rw [hu]
    exact hl.keep rfl rfl rfl
  · rintro (h | ⟨idx, h⟩)
    · exact absurd h hpc
    · exact absurd h (hpc' idx)

theorem Inv.querySize {s : State} (h : Inv s) (hpc : s.pc = .sizing) (r : Reply) : Inv (s.querySize r) := by
  have hl : Ledger s none := by
    have := h.ledger
    rwa [State.used, hpc] at this
  have hl' : Ledger (s.zwQuerySystemInformation none 0 r) none := hl.keep rfl rfl rfl
  have hf : ∀ s' : State, s'.lastCall = some ⟨none, 0, r.status⟩ → Fits s' := by
    intro s' hs' call i hc hi
    rw [hs'] at hc
    cases hc
    cases hi
  unfold State.querySize
  dsimp only
  split
  · exact inv_free hl' (hf _ rfl) .threw (by simp) (by simp)
  · have hbytes := bytes_eq r.requiredSize
    generalize BitVec.ofNat 32 (r.requiredSize.toNat / entrySize + 10) = n at hbytes
    generalize hs' : (s.zwQuerySystemInformation none 0 r).setNoProcesses n = s'
    have hl'' : Ledger s' none := by
      subst hs'
      exact hl'.keep rfl rfl rfl
    have hn : s'.noProcesses = n := by rw [← hs']; rfl
    have hsize : s'.requiredSize = r.requiredSize := by rw [← hs']; rfl
    have hall := hl''.allocate (by rw [hn, hsize]; omega)
    refine ⟨hall.keep rfl rfl rfl, fun _ => rfl, ?_, hf _ (by rw [← hs']; rfl), ?_⟩
    · intro _ i b hi hb
      have hi : s'.fresh = i := Option.some.inj hi
      subst hi
      have hb : Function.update s'.heap s'.fresh (some ⟨s'.noProcesses.toNat * entrySize, s'.requiredSize, 0⟩) s'.fresh = some b := hb
      rw [Function.update_self] at hb
      rw [← Option.some.inj hb]
      rfl
    · intro idx hidx
      cases hidx

theorem Inv.queryProcesses {s : State} (h : Inv s) (hpc : s.pc = .filling) (r : Reply) : Inv (s.queryProcesses r) := by
  obtain ⟨i, hi⟩ := Option.isSome_iff_exists.mp (h.held (.inl hpc))
  have hl := h.ledger
  rw [hi] at hl
  obtain ⟨hp, hlive⟩ := hl.live i rfl
  obtain ⟨b, hb⟩ := Option.isSome_iff_exists.mp hlive
  have hbytes := h.filling hpc i b hi hb
  unfold State.queryProcesses
  dsimp only
  generalize hs' : (s.zwQuerySystemInformation s.processes (BitVec.ofNat 32 (s.noProcesses.toNat * entrySize)) r).setMemory
    r.memory = s'
  have hl' : Ledger s' (some i) := by
    subst hs'
    exact hl.keep rfl rfl rfl
  have hf' : Fits s' := by
    subst hs'
    intro call j hc hj
    cases hc
    rw [hp] at hj
    obtain rfl := Option.some.inj hj
    refine ⟨b, hb, ?_⟩
    rw [hbytes, BitVec.toNat_ofNat]
    exact Nat.mod_le _ _
  split
  · exact inv_free hl'.deleteProcesses hf'.deleteProcesses .threw (by simp) (by simp)
  · split
    · rename_i hsuccess
      have hused : (s'.goto (.walking 0)).used = some i := (hl'.live i rfl).1
      refine ⟨?_, ?_, (fun hne => nomatch hne), hf', ?_⟩
      · rw [hused]
        exact hl'.keep rfl rfl rfl
      · intro _
        rw [hused]
        rfl
      · intro idx _
        subst hs'
        exact ⟨_, rfl, rfl, hsuccess⟩
    · exact inv_free hl'.deleteProcesses hf'.deleteProcesses .sizing (by simp) (by simp)

theorem Inv.walkPass {s : State} (h : Inv s) {idx : BitVec 32} (hpc : s.pc = .walking idx) : Inv (s.walkPass idx) := by
  obtain ⟨i, hi⟩ := Option.isSome_iff_exists.mp (h.held (.inr ⟨idx, hpc⟩))
  have hl := h.ledger
  rw [hi] at hl
  have hp := (hl.live i rfl).1
  unfold State.walkPass
  split
  · rename_i idx' _
    have hused : (s.goto (.walking idx')).used = some i := hp
    refine ⟨?_, ?_, (fun hne => nomatch hne), h.fits, ?_⟩
    · rw [hused]
      exact hl.keep rfl rfl rfl
    · intro _
      rw [hused]
      rfl
    · intro idx'' _
      rw [hused, ← hi]
      exact h.walking idx hpc
  · exact inv_free hl.deleteProcesses h.fits.deleteProcesses .returned (by simp) (by simp)

theorem step_cases {s s' : State} {a : Act} (h : s.step a = some s') :
    (∃ r, a = .reply r ∧ s.pc = .sizing ∧ s' = s.querySize r) ∨ (∃ r, a = .reply r ∧ s.pc = .filling ∧ s' = s.queryProcesses r) ∨
      ∃ idx, a = .pass ∧ s.pc = .walking idx ∧ s' = s.walkPass idx := by
  cases a with
  | reply r =>
    simp only [State.step] at h
    split at h
    · rename_i hpc
      exact .inl ⟨r, rfl, hpc, (Option.some.inj h).symm⟩
    · rename_i hpc
      exact .inr (.inl ⟨r, rfl, hpc, (Option.some.inj h).symm⟩)
    · cases h
  | pass =>
    simp only [State.step] at h
    split at h
    · rename_i idx hpc
      exact .inr (.inr ⟨idx, rfl, hpc, (Option.some.inj h).symm⟩)
    · cases h

theorem inv_reachable {s : State} (h : system.Reachable s) : Inv s := by
  refine h.invariant ?_ ?_
  · rintro s rfl
    exact inv_free (s := {}) ⟨by simp, by simp, by simp, by simp⟩ (fun call i hc => nomatch hc) .sizing (by simp) (by simp)
  · intro s a s' hi hs
    rcases step_cases hs with ⟨r, -, hpc, rfl⟩ | ⟨r, -, hpc, rfl⟩ | ⟨idx, -, hpc, rfl⟩
    · exact hi.querySize hpc r
    · exact hi.queryProcesses hpc r
    · exact hi.walkPass hpc

/-! ## What holds of every run -/

structure InOrder (s : State) : Prop where
  deletedOnce : s.pc = .returned ∨ s.pc = .threw → ∀ i b, s.heap i = some b → b.deletions = 1
  atMostOnce : ∀ i b, s.heap i = some b → b.deletions ≤ 1
  alive : ∀ i, s.used = some i → ∃ b, s.heap i = some b ∧ b.deletions = 0
  larger : ∀ i b, s.heap i = some b → b.reported.toNat < b.bytes
  length : ∀ call i, s.lastCall = some call → call.buffer = some i → ∃ b, s.heap i = some b ∧ call.length.toNat ≤ b.bytes
  walked : ∀ idx, s.pc = .walking idx → ∃ i call, s.used = some i ∧ s.lastCall = some call ∧ call.buffer = some i ∧
    ntSuccess call.status = true

/-- **The buffers.** Whatever the kernel answers, and however often: the buffer
that a step uses is not deleted yet, each is large enough and deleted once by the
time the function returns or throws, and the walk is over one that was filled. -/
theorem buffers_in_order {s : State} (h : system.Reachable s) : InOrder s := by
  have hi := inv_reachable h
  constructor
  · intro hpc i b hb
    have hu : s.used = none := by
      unfold State.used
      rcases hpc with hpc | hpc <;> rw [hpc]
    rw [hi.ledger.deletions i b hb, hu]
    rfl
  · intro i b hb
    rw [hi.ledger.deletions i b hb]
    split <;> omega
  · intro i hu
    obtain ⟨b, hb⟩ := Option.isSome_iff_exists.mp (hi.ledger.live i hu).2
    exact ⟨b, hb, by rw [hi.ledger.deletions i b hb, if_pos hu]⟩
  · exact hi.ledger.larger
  · exact hi.fits
  · intro idx hpc
    obtain ⟨i, hu⟩ := Option.isSome_iff_exists.mp (hi.held (.inr ⟨idx, hpc⟩))
    obtain ⟨call, hc, hbuffer, hsuccess⟩ := hi.walking idx hpc
    exact ⟨i, call, hu, hc, hbuffer.trans hu, hsuccess⟩

/-- The first buffer turns out too small, and two processes are dumped. -/
def secondTry : List Act :=
  [.reply ⟨statusInfoLengthMismatch, 300, fun _ => 0⟩, .reply ⟨statusInfoLengthMismatch, 6000, fun _ => 0⟩,
    .reply ⟨statusInfoLengthMismatch, 6000, fun _ => 0⟩,
    .reply ⟨statusSuccess, 600, fun offset => if offset = 1 then 1 else 0⟩, .pass, .pass]

def secondTryEnd : State := (system.exec (fun _ _ => True) {} secondTry).get (by decide)

theorem buffers_in_order_secondTry : secondTryEnd.pc = .returned ∧
    ∀ i b, secondTryEnd.heap i = some b → b.deletions = 1 := by
  have h : system.Reachable secondTryEnd :=
    System.reach_of_exec (C := fun _ _ => True) rfl secondTry (Option.some_get _).symm
  exact ⟨by decide, (buffers_in_order h).deletedOnce (.inl (by decide))⟩

theorem proceeds {s : State} (h : s.pc ≠ .returned) (h' : s.pc ≠ .threw) :
    (∀ r, ∃ s', s.step (.reply r) = some s') ∨ ∃ s', s.step .pass = some s' := by
  unfold State.step
  cases hpc : s.pc with
  | sizing => exact .inl fun r => ⟨_, rfl⟩
  | filling => exact .inl fun r => ⟨_, rfl⟩
  | walking idx => exact .inr ⟨_, rfl⟩
  | returned => exact absurd hpc h
  | threw => exact absurd hpc h'

theorem step_walking {s s' : State} {a : Act} {idx : BitVec 32} (hpc : s.pc = .walking idx) (h : s.step a = some s') :
    s' = s.walkPass idx := by
  rcases step_cases h with ⟨r, -, hpc', -⟩ | ⟨r, -, hpc', -⟩ | ⟨idx', -, hpc', rfl⟩
  · rw [hpc] at hpc'
    cases hpc'
  · rw [hpc] at hpc'
    cases hpc'
  · rw [hpc] at hpc'
    cases hpc'
    rfl

theorem step_returned {s : State} (hpc : s.pc = .returned) (a : Act) {s' : State} : s.step a ≠ some s' := by
  intro h
  rcases step_cases h with ⟨r, -, hpc', -⟩ | ⟨r, -, hpc', -⟩ | ⟨idx', -, hpc', -⟩
  all_goals
    rw [hpc] at hpc'
    cases hpc'

theorem walkPass_of_pass {s : State} {idx idx' : BitVec 32} (hp : pass .x64 s.memory s.requiredSize idx = some idx') :
    s.walkPass idx = s.goto (.walking idx') := by
  unfold State.walkPass
  rw [hp]

theorem path_walkPass {s : State} {idx : BitVec 32} (hpc : s.pc = .walking idx) :
    system.Path (fun _ _ => True) s (s.walkPass idx) := by
  refine System.Path.snoc (a := .pass) .refl trivial ?_
  show s.step .pass = _
  unfold State.step
  rw [hpc]

theorem walk_ends_of_returned {s s' : State} {idx : BitVec 32} (hpc : s.pc = .walking idx)
    (hpath : system.Path (fun _ _ => True) s s') (hreturned : s'.pc = .returned) :
    ∃ k, orbit (pass .x64 s.memory s.requiredSize) idx k = none := by
  have hkeeps := hpath.keeps (I := fun t => (t.memory = s.memory ∧ t.requiredSize = s.requiredSize ∧
      ∃ k idx', orbit (pass .x64 s.memory s.requiredSize) idx k = some idx' ∧ t.pc = .walking idx') ∨
    t.pc = .returned ∧ ∃ k, orbit (pass .x64 s.memory s.requiredSize) idx k = none) ?_ (.inl ⟨rfl, rfl, 0, idx, rfl, hpc⟩)
  · rcases hkeeps with ⟨-, -, k, idx', -, hpc'⟩ | ⟨-, hends⟩
    · rw [hreturned] at hpc'
      cases hpc'
    · exact hends
  · intro t a u ht _ hstep
    rcases ht with ⟨hmemory, hsize, k, idx', hk, hpc'⟩ | ⟨hpc', -⟩
    · rw [step_walking hpc' hstep]
      unfold State.walkPass
      rw [hmemory, hsize]
      cases hp : pass .x64 s.memory s.requiredSize idx' with
      | some next => exact .inl ⟨hmemory, hsize, k + 1, next, by rw [orbit, hk, Option.bind_some, hp], rfl⟩
      | none => exact .inr ⟨rfl, k + 1, by rw [orbit, hk, Option.bind_some, hp]⟩
    · exact absurd hstep (step_returned hpc' a)

theorem returned_of_walk_ends {s : State} {idx : BitVec 32} {k : ℕ} (hpc : s.pc = .walking idx)
    (hk : orbit (pass .x64 s.memory s.requiredSize) idx k = none) :
    ∃ s', system.Path (fun _ _ => True) s s' ∧ s'.pc = .returned := by
  induction k generalizing s idx with
  | zero => cases hk
  | succ k ih =>
    cases hp : pass .x64 s.memory s.requiredSize idx with
    | some idx' =>
      rw [orbit_succ, hp] at hk
      obtain ⟨s', hpath, hreturned⟩ := ih (s := s.goto (.walking idx')) rfl hk
      have hfirst := path_walkPass hpc
      rw [walkPass_of_pass hp] at hfirst
      exact ⟨s', hfirst.trans hpath, hreturned⟩
    | none =>
      refine ⟨_, path_walkPass hpc, ?_⟩
      unfold State.walkPass
      rw [hp]
      rfl

theorem returns_iff_walk_ends {s : State} {idx : BitVec 32} (hpc : s.pc = .walking idx) :
    (∃ s', system.Path (fun _ _ => True) s s' ∧ s'.pc = .returned) ↔
      ∃ fuel read, walk .x64 s.memory s.requiredSize fuel idx = some read := by
  rw [ProcessList.walk_ends_iff]
  constructor
  · rintro ⟨s', hpath, hreturned⟩
    exact walk_ends_of_returned hpc hpath hreturned
  · rintro ⟨k, hk⟩
    exact returned_of_walk_ends hpc hk

end Dmsk.ProcessQuery
