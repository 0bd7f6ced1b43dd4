import Dmsk.ThreadPoolHandles
import Dmsk.ThreadPoolSound

/-!
# The number of workers

The constructor takes the number of threads in 8 bits and replaces 0, and a
number that is too large, by the one that the machine reports, cut to 8 bits.
A pool is left without workers when that cut leaves nothing; it accepts items
all the same, and `Shutdown` returns without having run them.
-/

namespace Dmsk.PoolHandles

/-! ## The workers of a constructed pool -/

variable {n : ℕ} {s t : State n}

@[simp] theorem touch_created (s : State n) (h : Option (Handle n)) : (s.touch h).created = s.created := by
  unfold State.touch
  split <;> rfl

@[simp] theorem touch_phase (s : State n) (h : Option (Handle n)) : (s.touch h).phase = s.phase := by
  unfold State.touch
  split <;> rfl

@[simp] theorem touch_todo (s : State n) (h : Option (Handle n)) : (s.touch h).todo = s.todo := by
  unfold State.touch
  split <;> rfl

/-- A step that ends no phase: what is still to be created was to be created before. -/
structure Advances (s t : State n) : Prop where
  phase : t.phase = s.phase
  created : ∀ h ∈ s.created, h ∈ t.created
  enters : ∀ p, .enter p ∈ t.todo → p = .thrown ∨ .enter p ∈ s.todo
  threads : .enter .alive ∈ t.todo → ∀ i, .createThread i ∈ s.todo → .thread i ∈ t.created ∨ .createThread i ∈ t.todo

/-- The next task is done; tasks that enter no phase may take its place. -/
theorem Advances.task {a : Task n} {rest : List (Task n)} (htodo : s.todo = a :: rest) (hphase : t.phase = s.phase)
    (hcreated : ∀ h ∈ s.created, h ∈ t.created) (hrest : ∀ b ∈ rest, b ∈ t.todo)
    (henters : ∀ p, .enter p ∈ t.todo → .enter p ∈ rest) (ha : ∀ i, a = .createThread i → .thread i ∈ t.created) :
    Advances s t where
  phase := hphase
  created := hcreated
  enters p hp := by
    rw [htodo]
    exact .inr (List.mem_cons_of_mem a (henters p hp))
  threads _ i hi := by
    rw [htodo] at hi
    rcases List.mem_cons.mp hi with hi | hi
    · exact .inl (ha i hi.symm)
    · exact .inr (hrest _ hi)

theorem Advances.done {a : Task n} {rest : List (Task n)} (htodo : s.todo = a :: rest) (ha : ∀ i, a ≠ .createThread i)
    (hphase : t.phase = s.phase) (hcreated : ∀ h ∈ s.created, h ∈ t.created) (ht : t.todo = rest) : Advances s t :=
  .task htodo hphase hcreated (fun _ hb => ht ▸ hb) (fun _ hp => ht ▸ hp) fun i hi => absurd hi (ha i)

theorem thrown_of_mem_cleanup {p : Phase} (h : .enter p ∈ cleanupThreadPool n ++ [.enter .thrown]) : p = .thrown := by
  simpa [cleanupThreadPool, waitThreads, disposeEvents] using h

/-- A creating call has failed: the constructor cleans up and throws. -/
theorem Advances.fail {todo : List (Task n)} (htodo : todo = cleanupThreadPool n ++ [.enter .thrown] ∨
    todo = shutdown n ++ cleanupThreadPool n ++ [.enter .thrown]) : Advances s { s with todo := todo } := by
  have henters : ∀ p, .enter p ∈ todo → p = .thrown := by
    intro p hp
    rcases htodo with rfl | rfl
    · exact thrown_of_mem_cleanup hp
    · rw [List.append_assoc] at hp
      rcases List.mem_append.mp hp with hp | hp
      · simp [shutdown, waitThreads] at hp
      · exact thrown_of_mem_cleanup hp
  refine ⟨rfl, fun _ h => h, fun p hp => .inl (henters p hp), ?_⟩
  intro halive
  cases henters _ halive

theorem owner_cases {b : Bool} (hs : owner b s = some t) :
    (∃ p rest, s.todo = .enter p :: rest ∧ t = { s with phase := p, todo := rest }) ∨ Advances s t := by
  cases htodo : s.todo with
  | nil =>
    simp only [owner, htodo] at hs
    cases hs
  | cons a rest =>
    cases a with
    | enter p =>
      simp only [owner, htodo] at hs
      cases hs
      exact .inl ⟨p, rest, rfl, rfl⟩
    | createEvent e =>
      simp only [owner, htodo] at hs
      split at hs
      · cases hs
        exact .inr (.done htodo (by simp) rfl (fun h hh => List.mem_append_left _ hh) rfl)
      · cases hs
        exact .inr (.fail (.inl rfl))
    | createThread i =>
      simp only [owner, htodo] at hs
      split at hs
      · cases hs
        refine .inr (.task htodo rfl (fun h hh => List.mem_append_left _ hh) (fun _ hb => hb) (fun _ hp => hp) ?_)
        intro j hj
        cases hj
        exact List.mem_append_right _ (List.mem_singleton_self _)
      · cases hs
        exact .inr (.fail (.inr rfl))
    | setPendingShutdown =>
      simp only [owner, htodo] at hs
      cases hs
      exact .inr (.done htodo (by simp) rfl (fun _ h => h) rfl)
    | setEvent e =>
      simp only [owner, htodo] at hs
      cases hs
      exact .inr (.done htodo (by simp) (touch_phase _ _) (fun _ h => by simpa using h) rfl)
    | closeThread i =>
      simp only [owner, htodo] at hs
      cases hs
      exact .inr (.done htodo (by simp) (touch_phase _ _) (fun _ h => by simpa using h) rfl)
    | disposeEvent e =>
      simp only [owner, htodo] at hs
      split at hs
      · cases hs
        exact .inr (.done htodo (by simp) rfl (fun _ h => h) rfl)
      · cases hs
        exact .inr (.done htodo (by simp) (touch_phase _ _) (fun _ h => by simpa using h) rfl)
    | waitThread i =>
      simp only [owner, htodo] at hs
      split at hs
      · cases hs
        exact .inr (.done htodo (by simp) rfl (fun _ h => h) rfl)
      · split at hs
        · cases hs
          -- the handle is closed next
          refine .inr (.task htodo (touch_phase _ _) (fun _ h => by simpa using h) (fun _ => List.mem_cons_of_mem _) ?_ (by simp))
          intro p hp
          exact (List.mem_cons.mp hp).resolve_left (by simp)
        · cases hs

/-- While it is constructed a pool has the threads that are not to be created
any more; constructed, it has had them all. -/
structure Built (s : State n) : Prop where
  enters : s.phase = .constructing → ∀ p, .enter p ∈ s.todo → p = .alive ∨ p = .thrown
  threads : s.phase = .constructing → .enter .alive ∈ s.todo → ∀ i, .thread i ∈ s.created ∨ .createThread i ∈ s.todo
  complete : s.phase ≠ .constructing → s.phase ≠ .thrown → ∀ i, .thread i ∈ s.created

theorem Built.advance (hB : Built s) (ha : Advances s t) : Built t where
  enters hp p h := by
    rcases ha.enters p h with h | h
    · exact .inr h
    · exact hB.enters (ha.phase ▸ hp) p h
  threads hp h i := by
    have hs := (ha.enters _ h).resolve_left nofun
    rcases hB.threads (ha.phase ▸ hp) hs i with hi | hi
    · exact .inl (ha.created _ hi)
    · exact ha.threads h i hi
  complete hp hp' i := by
    rw [ha.phase] at hp hp'
    exact ha.created _ (hB.complete hp hp' i)

theorem Built.enter {p : Phase} {rest : List (Task n)} (hI : Inv s) (hB : Built s) (htodo : s.todo = .enter p :: rest) :
    Built { s with phase := p, todo := rest } := by
  have hv := hI.plan.valid
  rw [htodo] at hv
  obtain ⟨-, -, rfl⟩ := hv
  refine ⟨(fun _ _ h => nomatch h), (fun _ h => nomatch h), ?_⟩
  intro hp hp' i
  by_cases hc : s.phase = .constructing
  · have hmem : .enter p ∈ s.todo := by rw [htodo]; exact List.mem_cons_self
    obtain rfl := (hB.enters hc p hmem).resolve_right hp'
    have hi := hB.threads hc hmem i
    rw [htodo] at hi
    exact hi.resolve_right (by simp)
  · refine hB.complete hc ?_ i
    -- a pool whose constructor has thrown does nothing
    intro hthrown
    have := (hI.plan.ended (by rw [hthrown]; rfl)).1
    rw [htodo] at this
    cases this

theorem Built.again (hB : Built s) (hs : s.phase = .alive) (hp : t.phase ≠ .constructing) (hc : t.created = s.created) :
    Built t where
  enters h := absurd h hp
  threads h := absurd h hp
  complete _ _ i := by
    rw [hc]
    exact hB.complete (by rw [hs]; nofun) (by rw [hs]; nofun) i

theorem Built.congr (hB : Built s) (hp : t.phase = s.phase) (hc : t.created = s.created) (ht : t.todo = s.todo) : Built t := by
  constructor
  · rw [hp, ht]; exact hB.enters
  · rw [hp, ht, hc]; exact hB.threads
  · rw [hp, hc]; exact hB.complete

theorem built_step {a : Act n} (hI : Inv s) (hB : Built s) (hs : step s a = some t) : Built t := by
  cases a with
  | owner b =>
    rcases owner_cases hs with ⟨p, rest, htodo, rfl⟩ | ha
    · exact hB.enter hI htodo
    · exact hB.advance ha
  | enqueueItem =>
    simp only [step] at hs
    split at hs <;> cases hs
    exact hB.congr (touch_phase _ _) (touch_created _ _) (touch_todo _ _)
  | shutdown =>
    simp only [step] at hs
    split at hs <;> cases hs
    exact hB.again ‹_› (by simp) rfl
  | destruct =>
    simp only [step] at hs
    split at hs <;> cases hs
    exact hB.again ‹_› (by simp) rfl
  | worker i u =>
    simp only [step] at hs
    split at hs <;> cases hs
    cases u <;> exact hB.congr (by simp [worker]) (by simp [worker]) (by simp [worker])

theorem built_start (n : ℕ) : Built (start n) where
  enters _ p h := by
    left
    simpa [start, construct] using h
  threads _ _ i := by
    right
    simp [start, construct]
  complete h := absurd rfl h

theorem built_reachable (h : (handles n).Reachable s) : Built s := by
  have hboth : Inv s ∧ Built s := by
    refine h.invariant (I := fun s => Inv s ∧ Built s) ?_ fun s a t hs ht => ⟨inv_step (a := a) hs.1 ht, built_step hs.1 hs.2 ht⟩
    intro s hs
    subst hs
    exact ⟨inv_start n, built_start n⟩
  exact hboth.2

end Dmsk.PoolHandles

namespace Dmsk.ThreadPool

/-! ## The constructor's argument -/

/-- What the constructor makes of `NoThreads`. It is compared as an `unsigned
int`, and the replacement is cast to `uint8_t`. -/
def noThreads (requested : BitVec 8) (hardwareConcurrency : BitVec 32) : BitVec 8 :=
  if requested = 0 ∨ hardwareConcurrency < requested.setWidth 32 then hardwareConcurrency.setWidth 8 else requested

theorem noThreads_toNat (requested : BitVec 8) (hardwareConcurrency : BitVec 32) :
    (noThreads requested hardwareConcurrency).toNat =
      if requested.toNat = 0 ∨ hardwareConcurrency.toNat < requested.toNat then hardwareConcurrency.toNat % 256
      else requested.toNat := by
  have hzero : requested = 0 ↔ requested.toNat = 0 := by
    constructor
    · intro h; rw [h]; rfl
    · intro h; exact BitVec.eq_of_toNat_eq h
  have hwidth : (requested.setWidth 32).toNat = requested.toNat := by
    have := requested.isLt
    rw [BitVec.toNat_setWidth]
    omega
  unfold noThreads
  simp only [hzero, BitVec.lt_def, hwidth]
  split
  · rw [BitVec.toNat_setWidth]
  · rfl

/-- A pool that the constructor leaves with the right number of workers, all of
them created, which run every accepted item before `Shutdown` returns. -/
structure Serves (requested : BitVec 8) (hardwareConcurrency : BitVec 32) : Prop where
  created : ∀ s, (PoolHandles.handles (noThreads requested hardwareConcurrency).toNat).Reachable s → s.phase = .alive →
    ∀ i, .thread i ∈ s.created
  pos : 1 ≤ (noThreads requested hardwareConcurrency).toNat
  le : (noThreads requested hardwareConcurrency).toNat ≤ hardwareConcurrency.toNat
  exact : 1 ≤ requested.toNat → requested.toNat ≤ hardwareConcurrency.toNat →
    (noThreads requested hardwareConcurrency).toNat = requested.toNat
  executed : ∀ (P κ σ : Type) [DecidableEq P] (exec : κ → σ → σ) (shared : σ) s,
    (pool (noThreads requested hardwareConcurrency).toNat P exec shared).Reachable s → s.shutdownPc = .returned →
      ∀ x ∈ s.accepted, x ∈ s.executed

/-- **The size of the pool.** It is right unless the default is asked for on a
machine whose number of hardware threads is a multiple of 256. -/
theorem serves_iff (requested : BitVec 8) (hardwareConcurrency : BitVec 32) (h1 : 1 ≤ hardwareConcurrency.toNat) :
    Serves requested hardwareConcurrency ↔ ¬ (requested = 0 ∧ hardwareConcurrency.toNat % 256 = 0) := by
  have hsize := noThreads_toNat requested hardwareConcurrency
  have h8 := requested.isLt
  constructor
  · rintro hserves ⟨rfl, hmod⟩
    have hpos := hserves.pos
    rw [hsize, if_pos (.inl rfl), hmod] at hpos
    omega
  · intro hne
    have hzero : requested.toNat = 0 → hardwareConcurrency.toNat % 256 ≠ 0 :=
      fun h0 hmod => hne ⟨BitVec.eq_of_toNat_eq h0, hmod⟩
    have hpos : 1 ≤ (noThreads requested hardwareConcurrency).toNat := by
      rw [hsize]
      split
      · rename_i hreplaced
        -- a number that is too large is replaced by one below 256
        rcases hreplaced with h0 | hlt
        · have := hzero h0
          omega
        · omega
      · omega
    refine ⟨fun s hs halive i => (PoolHandles.built_reachable hs).complete (by rw [halive]; nofun) (by rw [halive]; nofun) i,
      hpos, ?_, ?_, ?_⟩
    · rw [hsize]
      split <;> omega
    · intro hlow hhigh
      rw [hsize, if_neg (by omega)]
    · intro P κ σ _ exec shared s hs hret x hx
      exact ((inv_reachable hs).executed_perm hpos hret).mem_iff.mpr hx

theorem serves_three_of_eight : Serves 3 8 := (serves_iff 3 8 (by decide)).mpr (by decide)

/-- A producer enqueues an item and `Shutdown` is called. -/
def unservedRun : List (Act 0 Unit Nat) :=
  [.call (.producer ()) 5, .enqueue (.producer ()), .enqueue (.producer ()), .enqueue (.producer ()),
   .enqueue (.producer ()), .enqueue (.producer ()), .shutdown, .shutdown, .shutdown]

theorem default_of_256 : noThreads 0 256 = 0 ∧ ¬ Serves 0 256 ∧
    ∃ s, (pool (noThreads 0 256).toNat Unit (· + ·) 0).Reachable s ∧ s.shutdownPc = .returned ∧ s.accepted = [⟨0, 5⟩] ∧
      s.executed = [] := by
  have hempty : noThreads 0 256 = 0 := by decide
  refine ⟨hempty, ?_, ?_⟩
  · intro hserves
    exact absurd hserves.pos (by decide)
  · rw [hempty]
    exact ⟨((pool 0 Unit (· + ·) 0).exec (fun _ _ => True) (start 0) unservedRun).get (by decide),
      System.reach_of_exec rfl unservedRun (Option.some_get _).symm, by decide, by decide, by decide⟩

end Dmsk.ThreadPool
