import Dmsk.Filter

/-!
# Sequential classification

What the notifications about a process id say of it is a list of marks. A
thread-create notification is classified by the marks before it alone: the
collector's list holds a record for each process that is alive, and its flag
tells whether another process has created a thread in this incarnation.
-/

namespace Dmsk

variable {w : ℕ}

/-! ## Histories -/

/-- What a notification says of a process: `own` and `foreign` tell which
process creates the thread in it. -/
inductive Mark
  | created
  | terminated
  | own
  | foreign
deriving DecidableEq, Repr

def Notification.mark (q : Handle w) : Notification w → Option Mark
  | .processCreate pid _ => if pid = q then some .created else none
  | .processTerminate pid => if pid = q then some .terminated else none
  | .threadCreate n =>
    if n.processId = q then some (if n.currentProcessPid = q then .own else .foreign) else none

def marks (q : Handle w) (ns : List (Notification w)) : List Mark := ns.filterMap (·.mark q)

/-- `ms` are the marks of the incarnation that is alive. -/
def Incarnation (h ms : List Mark) : Prop :=
  .created ∉ ms ∧ .terminated ∉ ms ∧ ∃ pre, h = pre ++ .created :: ms

def Alive (h : List Mark) : Prop := ∃ ms, Incarnation h ms

def MainSeen (h : List Mark) : Prop := ∃ ms, Incarnation h ms ∧ .foreign ∈ ms

theorem incarnation_created (h : List Mark) : Incarnation (h ++ [.created]) [] := ⟨by simp, by simp, h, rfl⟩

theorem incarnation_snoc {h ms : List Mark} {m : Mark} :
    Incarnation (h ++ [m]) ms ↔
      (m = .created ∧ ms = []) ∨ m ≠ .created ∧ m ≠ .terminated ∧ ∃ ms', ms = ms' ++ [m] ∧ Incarnation h ms' := by
  constructor
  · intro hex
    obtain ⟨hc, ht, pre, he⟩ := hex
    rcases List.eq_nil_or_concat' ms with rfl | ⟨ms', m', rfl⟩
    · exact .inl ⟨by simpa using (List.append_inj' he rfl).2, rfl⟩
    · rw [← List.cons_append, ← List.append_assoc] at he
      obtain ⟨he', hm⟩ := List.append_inj' he rfl
      simp only [List.mem_append, List.mem_singleton, not_or] at hc ht
      rw [List.singleton_inj] at hm
      subst hm
      exact .inr ⟨Ne.symm hc.2, Ne.symm ht.2, ms', rfl, hc.1, ht.1, pre, he'⟩
  · intro hor
    rcases hor with ⟨rfl, rfl⟩ | ⟨hc, ht, ms', rfl, hc', ht', pre, rfl⟩
    · exact incarnation_created h
    · exact ⟨by simp [hc', Ne.symm hc], by simp [ht', Ne.symm ht], pre, by simp⟩

theorem alive_snoc {h : List Mark} {m : Mark} :
    Alive (h ++ [m]) ↔ m = .created ∨ m ≠ .terminated ∧ Alive h := by
  simp only [Alive, incarnation_snoc]
  constructor
  · intro hex
    obtain ⟨ms, ⟨rfl, -⟩ | ⟨-, ht, ms', -, hi⟩⟩ := hex
    · exact .inl rfl
    · exact .inr ⟨ht, ms', hi⟩
  · intro hor
    rcases hor with rfl | ⟨ht, ms, hi⟩
    · exact ⟨[], .inl ⟨rfl, rfl⟩⟩
    · by_cases hc : m = .created
      · exact ⟨[], .inl ⟨hc, rfl⟩⟩
      · exact ⟨_, .inr ⟨hc, ht, ms, rfl, hi⟩⟩

theorem mainSeen_snoc {h : List Mark} {m : Mark} :
    MainSeen (h ++ [m]) ↔ m ≠ .created ∧ m ≠ .terminated ∧ (MainSeen h ∨ m = .foreign ∧ Alive h) := by
  simp only [MainSeen, Alive, incarnation_snoc]
  constructor
  · intro hex
    obtain ⟨ms, ⟨-, rfl⟩ | ⟨hc, ht, ms', rfl, hi⟩, hf⟩ := hex
    · cases hf
    · refine ⟨hc, ht, ?_⟩
      rcases List.mem_append.mp hf with hf | hf
      · exact .inl ⟨ms', hi, hf⟩
      · exact .inr ⟨(List.mem_singleton.mp hf).symm, ms', hi⟩
  · intro hex
    obtain ⟨hc, ht, ⟨ms, hi, hf⟩ | ⟨rfl, ms, hi⟩⟩ := hex
    · exact ⟨_, .inr ⟨hc, ht, ms, rfl, hi⟩, List.mem_append_left _ hf⟩
    · exact ⟨_, .inr ⟨hc, ht, ms, rfl, hi⟩, by simp⟩

theorem MainSeen.alive {h : List Mark} (hm : MainSeen h) : Alive h := hm.imp fun _ h => h.1

theorem marks_snoc (q : Handle w) (ns : List (Notification w)) (n : Notification w) :
    marks q (ns ++ [n]) = marks q ns ++ (n.mark q).toList := by
  rw [marks, List.filterMap_append, marks]
  cases h : n.mark q <;> simp [h]

/-! ## The collector follows the histories -/

/-- The list holds the processes alive, flagged when their main thread was seen. -/
structure Follows (d : DrvData w) (ns : List (Notification w)) (rs : List (Addr w × Process w)) : Prop where
  records : Records d.processCollector rs
  pids : (rs.map (·.2.pid)).Nodup
  alive : ∀ q, (∃ r ∈ rs, r.2.pid = q) ↔ Alive (marks q ns)
  flag : ∀ r ∈ rs, r.2.wasMainThreadCreated = true ↔ MainSeen (marks r.2.pid ns)

namespace Follows

variable {d d' : DrvData w} {ns : List (Notification w)} {rs rs' : List (Addr w × Process w)} {q : Handle w}

theorem mem_pids : q ∈ rs.map (·.2.pid) ↔ ∃ r ∈ rs, r.2.pid = q := List.mem_map

theorem find_none (hf : Follows d ns rs) (hq : ¬ Alive (marks q ns)) : rs.find? (fun r => r.2.pid = q) = none := by
  rw [← hf.alive] at hq
  simpa using hq

theorem find_some (hf : Follows d ns rs) (hq : Alive (marks q ns)) :
    ∃ r ∈ rs, r.2.pid = q ∧ rs.find? (fun r => r.2.pid = q) = some r := by
  obtain ⟨r, hr, hp⟩ := (hf.alive q).mpr hq
  cases h : rs.find? fun r => r.2.pid = q with
  | none => exact absurd hp (by simpa using List.find?_eq_none.mp h r hr)
  | some r' => exact ⟨r', List.mem_of_find?_eq_some h, by simpa using List.find?_some h, rfl⟩

theorem create (hf : Follows d ns rs) {a : Addr w} (hq : ¬ Alive (marks q ns))
    (hr : Records d'.processCollector (rs ++ [(a, ⟨q, false⟩)])) (o : Option (Addr w)) :
    Follows d' (ns ++ [.processCreate q o]) (rs ++ [(a, ⟨q, false⟩)]) := by
  have hne : ∀ r ∈ rs, q ≠ r.2.pid := fun r hr hq' => hq ((hf.alive q).mp ⟨r, hr, hq'.symm⟩)
  have hm : ∀ p, marks p (ns ++ [.processCreate q o]) = marks p ns ++ (if q = p then some .created else none).toList :=
    fun p => marks_snoc p ns _
  refine ⟨hr, ?_, ?_, ?_⟩
  · rw [List.map_append, List.nodup_append]
    refine ⟨hf.pids, by simp, ?_⟩
    intro p hp p' hp'
    obtain ⟨r, hr, rfl⟩ := mem_pids.mp hp
    have : p' = q := by simpa using hp'
    exact this ▸ Ne.symm (hne r hr)
  · intro p
    by_cases hp : q = p
    · subst hp
      rw [hm, if_pos rfl]
      exact iff_of_true ⟨(a, ⟨q, false⟩), by simp, rfl⟩ (alive_snoc.mpr (.inl rfl))
    · rw [hm, if_neg hp, Option.toList_none, List.append_nil, ← hf.alive p]
      constructor
      · intro hex
        obtain ⟨r, hr', hrp⟩ := hex
        rcases List.mem_append.mp hr' with hr' | hr'
        · exact ⟨r, hr', hrp⟩
        · rw [List.mem_singleton] at hr'
          exact absurd hrp (by rw [hr']; exact hp)
      · intro hex
        obtain ⟨r, hr', hrp⟩ := hex
        exact ⟨r, List.mem_append_left _ hr', hrp⟩
  · intro r hr'
    rcases List.mem_append.mp hr' with hr' | hr'
    · rw [hm, if_neg (hne r hr'), Option.toList_none, List.append_nil]
      exact hf.flag r hr'
    · rw [List.mem_singleton.mp hr', hm, if_pos rfl]
      exact iff_of_false (by simp) fun h => (mainSeen_snoc.mp h).1 rfl

theorem mem_eraseP (hf : Follows d ns rs) {r : Addr w × Process w} :
    r ∈ rs.eraseP (fun r => r.2.pid = q) ↔ r ∈ rs ∧ r.2.pid ≠ q := by
  by_cases hr : r.2.pid = q
  · refine iff_of_false ?_ fun h => h.2 hr
    intro h
    obtain ⟨r', ys, zs, hys, hp, hrs, he⟩ :=
      List.exists_of_eraseP (p := fun r => r.2.pid = q) (List.mem_of_mem_eraseP h) (by simpa using hr)
    have hnd := hf.pids
    rw [he] at h
    rw [hrs, List.map_append, List.map_cons, List.nodup_middle, List.nodup_cons, ← List.map_append] at hnd
    refine hnd.1 (mem_pids.mpr ⟨r, h, ?_⟩)
    rw [hr]; exact (by simpa using hp : r'.2.pid = q).symm
  · rw [List.mem_eraseP_of_neg (by simpa using hr)]
    exact ⟨fun h => ⟨h, hr⟩, fun h => h.1⟩

theorem terminate (hf : Follows d ns rs) (hr : Records d'.processCollector (rs.eraseP fun r => r.2.pid = q)) :
    Follows d' (ns ++ [.processTerminate q]) (rs.eraseP fun r => r.2.pid = q) := by
  have hm : ∀ p, marks p (ns ++ [.processTerminate q]) =
      marks p ns ++ (if q = p then some .terminated else none).toList := fun p => marks_snoc p ns _
  refine ⟨hr, hf.pids.sublist (List.eraseP_sublist.map _), ?_, ?_⟩
  · intro p
    simp only [hf.mem_eraseP]
    by_cases hp : q = p
    · subst hp
      rw [hm, if_pos rfl]
      refine iff_of_false (fun ⟨r, hr, he⟩ => hr.2 he) ?_
      intro h
      rcases alive_snoc.mp h with h | h
      · cases h
      · exact h.1 rfl
    · rw [hm, if_neg hp, Option.toList_none, List.append_nil, ← hf.alive p]
      constructor
      · intro hex
        obtain ⟨r, hr, he⟩ := hex
        exact ⟨r, hr.1, he⟩
      · intro hex
        obtain ⟨r, hr, he⟩ := hex
        exact ⟨r, ⟨hr, fun h => hp (h.symm.trans he)⟩, he⟩
  · intro r hr'
    have := hf.mem_eraseP.mp hr'
    rw [hm, if_neg (Ne.symm this.2), Option.toList_none, List.append_nil]
    exact hf.flag r this.1

theorem thread (hf : Follows d ns rs) (n : ThreadCreate w) (hr : Records d'.processCollector rs')
    (hp : rs'.map (·.2.pid) = rs.map (·.2.pid))
    (hflag : ∀ r ∈ rs', r.2.wasMainThreadCreated = true ↔
      MainSeen (marks r.2.pid ns) ∨ n.processId = r.2.pid ∧ n.currentProcessPid ≠ n.processId) :
    Follows d' (ns ++ [.threadCreate n]) rs' := by
  have hmem : ∀ q, (∃ r ∈ rs', r.2.pid = q) ↔ Alive (marks q ns) := fun q => by
    rw [← hf.alive q, ← mem_pids, ← mem_pids, hp]
  have hm : ∀ q, marks q (ns ++ [.threadCreate n]) = marks q ns ++
      (if n.processId = q then some (if n.currentProcessPid = q then Mark.own else .foreign) else none).toList :=
    fun q => marks_snoc q ns _
  refine ⟨hr, by rw [hp]; exact hf.pids, ?_, ?_⟩
  · intro q
    rw [hmem q, hm]
    by_cases hq : n.processId = q
    · rw [if_pos hq, Option.toList_some, alive_snoc]
      by_cases hc : n.currentProcessPid = q <;> simp [hc]
    · rw [if_neg hq, Option.toList_none, List.append_nil]
  · intro r hr'
    have ha := (hmem r.2.pid).mp ⟨r, hr', rfl⟩
    rw [hflag r hr', hm]
    by_cases hq : n.processId = r.2.pid
    · rw [if_pos hq, Option.toList_some, mainSeen_snoc, hq]
      by_cases hc : n.currentProcessPid = r.2.pid <;> simp [hc, ha]
    · rw [if_neg hq, Option.toList_none, List.append_nil]
      simp [hq]

end Follows

/-! ## The verdicts -/

/-- A creation finds memory, and does not reuse the id of a process that is alive. -/
def Admissible (ns : List (Notification w)) (d : DrvData w) : Notification w → Prop
  | .processCreate pid process => ¬ Alive (marks pid ns) ∧ ∃ a, process = some a ∧ d.processCollector.heap a = none
  | .processTerminate _ => True
  | .threadCreate n => n.baseline.isSome

structure Judged (ns : List (Notification w)) (n : ThreadCreate w) (v : Verdict) : Prop where
  ownThread : v = .ownThread ↔ n.currentProcessPid = n.processId
  notMonitored : v = .notMonitored ↔ n.currentProcessPid ≠ n.processId ∧ ¬ Alive (marks n.processId ns)
  remoteThread : v = .remoteThread ↔ n.currentProcessPid ≠ n.processId ∧ Alive (marks n.processId ns) ∧
    MainSeen (marks n.processId ns)
  checked : (∃ hollow, v = .checked hollow) ↔ n.currentProcessPid ≠ n.processId ∧ Alive (marks n.processId ns) ∧
    ¬ MainSeen (marks n.processId ns)

theorem baseline_isSome (d : DrvData w) {frames : Option (Frames w)} (h : frames.isSome) :
    ∃ good, (fltpCheckAndSetGlobalStackTrace d frames).processCreateGoodStackTrace = some good := by
  obtain ⟨f, rfl⟩ := Option.isSome_iff_exists.mp h
  rw [fltpCheckAndSetGlobalStackTrace]
  cases hg : d.processCreateGoodStackTrace with
  | none => exact ⟨_, rfl⟩
  | some good => exact ⟨good, hg⟩

/-- A notification of a new thread is judged, and what is known goes on to fit. -/
def HandlesThread (d : DrvData w) (ns : List (Notification w)) (n : ThreadCreate w) : Prop :=
  ∃ d' v rs', fltpHandleThreadCreate d n = .ok (d', v) ∧ Follows d' (ns ++ [.threadCreate n]) rs' ∧ Judged ns n v

section
variable {d : DrvData w} {ns : List (Notification w)} {rs : List (Addr w × Process w)} {n : ThreadCreate w}

theorem Follows.ownThread (hf : Follows d ns rs) (hown : n.currentProcessPid = n.processId) : HandlesThread d ns n := by
  refine ⟨d, .ownThread, rs, by rw [fltpHandleThreadCreate, if_pos hown]; rfl, hf.thread n hf.records rfl fun r hr => ?_, ?_⟩
  · simp [hf.flag r hr, hown]
  · constructor <;> simp [hown]

theorem Follows.notMonitored (hf : Follows d ns rs) (hown : n.currentProcessPid ≠ n.processId)
    (ha : ¬ Alive (marks n.processId ns)) : HandlesThread d ns n := by
  refine ⟨d, .notMonitored, rs, ?_, hf.thread n hf.records rfl ?_, ?_⟩
  · rw [fltpHandleThreadCreate, if_neg hown, hf.records.getProcess_eq, hf.find_none ha]; rfl
  · intro r hr
    have hne : n.processId ≠ r.2.pid := fun h => ha ((hf.alive _).mp ⟨r, hr, h.symm⟩)
    simp [hf.flag r hr, hne]
  · constructor <;> simp [hown, ha]

theorem Follows.getProcess (hf : Follows d ns rs) (ha : Alive (marks n.processId ns)) :
    ∃ r ∈ rs, r.2.pid = n.processId ∧ d.processCollector.getProcess n.processId = .ok (some r.1) := by
  obtain ⟨r, hr, hp, hfind⟩ := hf.find_some ha
  refine ⟨r, hr, hp, ?_⟩
  rw [hf.records.getProcess_eq, hfind]
  rfl

theorem Follows.remoteThread (hf : Follows d ns rs) (hown : n.currentProcessPid ≠ n.processId)
    (ha : Alive (marks n.processId ns)) (hs : MainSeen (marks n.processId ns)) : HandlesThread d ns n := by
  obtain ⟨r, hr, hp, hget⟩ := hf.getProcess ha
  have hflag : r.2.wasMainThreadCreated = true := (hf.flag r hr).mpr (hp ▸ hs)
  refine ⟨d, .remoteThread, rs, ?_, hf.thread n hf.records rfl ?_, ?_⟩
  · rw [fltpHandleThreadCreate, if_neg hown, hget, ok_bind]
    simp only [hf.records.wasMainThreadCreated_eq hr, ok_bind, hflag, if_true]; rfl
  · intro r' hr'
    rw [hf.flag r' hr']
    refine ⟨.inl, fun h => h.elim id fun h => ?_⟩
    rw [← h.1]; exact hs
  · constructor <;> simp [hown, ha, hs]

/-- The main thread: the flag of the process is set and its trace compared. -/
theorem Follows.mainThread (hf : Follows d ns rs) (hb : n.baseline.isSome) (hown : n.currentProcessPid ≠ n.processId)
    (ha : Alive (marks n.processId ns)) (hs : ¬ MainSeen (marks n.processId ns)) : HandlesThread d ns n := by
  obtain ⟨r, hr, hp, hget⟩ := hf.getProcess ha
  have hflag : r.2.wasMainThreadCreated = false := by
    rw [← Bool.not_eq_true, hf.flag r hr, hp]; exact hs
  obtain ⟨c, he, hrec, -⟩ := hf.records.setMainThreadCreated_ok hr
  obtain ⟨good, hg⟩ := baseline_isSome { d with processCollector := c } hb
  generalize hd : fltpCheckAndSetGlobalStackTrace { d with processCollector := c } n.baseline = d' at hg
  have hd' : d'.processCollector = c := by rw [← hd, fltpCheckAndSet_collector]
  refine ⟨d', hollowCheck d' (StackTrace.new d.nt n.frames), Records.setFlag rs r.1, ?_,
    hf.thread n (hd' ▸ hrec) (Records.setFlag_pid rs r.1) fun r' hr' => ?_, ?_⟩
  · rw [fltpHandleThreadCreate, if_neg hown, hget, ok_bind]
    simp only [hf.records.wasMainThreadCreated_eq hr, ok_bind, hflag, Bool.false_eq_true, if_false, he, hd]; rfl
  · rcases (hf.records.mem_setFlag hr).mp hr' with rfl | ⟨hr', hne⟩
    · simp [hp, hown]
    · have hpid : n.processId ≠ r'.2.pid := fun h =>
        hne (congrArg Prod.fst (List.inj_on_of_nodup_map hf.pids hr' hr (h.symm.trans hp.symm)))
      simp [hf.flag r' hr', hpid]
  · rw [hollowCheck, hg]
    constructor <;> simp [hown, ha, hs]

theorem Follows.handleThread (hf : Follows d ns rs) (n : ThreadCreate w) (hb : n.baseline.isSome) : HandlesThread d ns n := by
  by_cases hown : n.currentProcessPid = n.processId
  · exact hf.ownThread hown
  by_cases ha : Alive (marks n.processId ns)
  · by_cases hs : MainSeen (marks n.processId ns)
    · exact hf.remoteThread hown ha hs
    · exact hf.mainThread hb hown ha hs
  · exact hf.notMonitored hown ha

end

theorem Follows.handle {d : DrvData w} {ns : List (Notification w)} {rs : List (Addr w × Process w)}
    (hf : Follows d ns rs) (n : Notification w) (hn : Admissible ns d n) :
    ∃ d' v rs', handle d n = .ok (d', v) ∧ Follows d' (ns ++ [n]) rs' ∧
      ∀ t, n = .threadCreate t → ∃ verdict, v = some verdict ∧ Judged ns t verdict := by
  cases n with
  | processCreate pid process =>
    obtain ⟨hq, a, rfl, ha⟩ := hn
    obtain ⟨c, he, hr, -⟩ := hf.records.insertProcess_ok ha pid
    refine ⟨{ d with processCollector := c }, none, _, ?_, hf.create hq hr (some a), fun _ h => by cases h⟩
    simp only [Dmsk.handle, fltCreateProcessNotifyRoutine, fltpHandleProcessCreate, he, ok_bind]; rfl
  | processTerminate pid =>
    obtain ⟨c, he, hr, -, -⟩ := hf.records.terminateProcess_ok pid
    refine ⟨{ d with processCollector := c }, none, _, ?_, hf.terminate hr, fun _ h => by cases h⟩
    simp only [Dmsk.handle, fltCreateProcessNotifyRoutine, fltpHandleProcessTerminate, he, ok_bind]; rfl
  | threadCreate t =>
    obtain ⟨d', v, rs', he, hf', hj⟩ := hf.handleThread t hn
    refine ⟨d', some v, rs', ?_, hf', ?_⟩
    · simp only [Dmsk.handle, he, ok_bind]; rfl
    · intro t' ht
      cases ht
      exact ⟨v, rfl, hj⟩

/-! ## Runs -/

/-- The notifications handled one at a time, each with its verdict. -/
inductive Run (d₀ : DrvData w) : List (Notification w × Option Verdict) → DrvData w → Prop
  | nil : Run d₀ [] d₀
  | snoc {hist d d' n v} : Run d₀ hist d → Admissible (hist.map Prod.fst) d n → handle d n = .ok (d', v) →
      Run d₀ (hist ++ [(n, v)]) d'

theorem DrvData.Init.follows {d : DrvData w} (h0 : d.Init) : Follows d [] [] where
  records := h0.records
  pids := by simp
  alive q := iff_of_false (by simp) fun ⟨_, _, _, pre, h⟩ => by simp [marks] at h
  flag r hr := by cases hr

theorem Run.follows {d₀ d : DrvData w} {hist : List (Notification w × Option Verdict)} (h0 : d₀.Init)
    (hr : Run d₀ hist d) : ∃ rs, Follows d (hist.map Prod.fst) rs := by
  induction hr with
  | nil => exact ⟨[], h0.follows⟩
  | snoc _ hn he ih =>
    obtain ⟨rs, hf⟩ := ih
    obtain ⟨d', v, rs', he', hf', -⟩ := hf.handle _ hn
    rw [he] at he'
    cases he'
    exact ⟨rs', by rwa [List.map_append]⟩

theorem Run.judged {d₀ d : DrvData w} {hist : List (Notification w × Option Verdict)} (h0 : d₀.Init)
    (hr : Run d₀ hist d) {pre post : List (Notification w × Option Verdict)} {n : ThreadCreate w} {v : Option Verdict}
    (h : hist = pre ++ (.threadCreate n, v) :: post) :
    ∃ verdict, v = some verdict ∧ Judged (pre.map Prod.fst) n verdict := by
  induction hr generalizing post with
  | nil => simp at h
  | snoc hr hn he ih =>
    rcases List.eq_nil_or_concat' post with rfl | ⟨post', x, rfl⟩
    · obtain ⟨rfl, hx⟩ := List.append_inj' h rfl
      cases hx
      obtain ⟨rs, hf⟩ := hr.follows h0
      obtain ⟨d', v, rs', he', -, hj⟩ := hf.handle _ hn
      rw [he] at he'
      cases he'
      exact hj n rfl
    · rw [← List.cons_append, ← List.append_assoc] at h
      exact ih (List.append_inj' h rfl).1

def Verdict.kind : Verdict → Verdict
  | .checked _ => .checked false
  | v => v

theorem Judged.kind_eq {ns ns' : List (Notification w)} {n n' : ThreadCreate w} {v v' : Verdict} (h : Judged ns n v)
    (h' : Judged ns' n' v') (ho : n.currentProcessPid = n.processId ↔ n'.currentProcessPid = n'.processId)
    (hm : marks n.processId ns = marks n'.processId ns') : v.kind = v'.kind := by
  by_cases hown : n.currentProcessPid = n.processId
  · rw [h.ownThread.mpr hown, h'.ownThread.mpr (ho.mp hown)]
  have hown' := fun h => hown (ho.mpr h)
  by_cases ha : Alive (marks n.processId ns)
  swap
  · rw [h.notMonitored.mpr ⟨hown, ha⟩, h'.notMonitored.mpr ⟨hown', hm ▸ ha⟩]
  by_cases hs : MainSeen (marks n.processId ns)
  · rw [h.remoteThread.mpr ⟨hown, ha, hs⟩, h'.remoteThread.mpr ⟨hown', hm ▸ ha, hm ▸ hs⟩]
  · obtain ⟨b, rfl⟩ := h.checked.mpr ⟨hown, ha, hs⟩
    obtain ⟨b', rfl⟩ := h'.checked.mpr ⟨hown', hm ▸ ha, hm ▸ hs⟩
    rfl

/-- **Sequential classification.** In every run the next notification is
handled without a fault, every verdict is the one that the history of its
target calls for, and two thread creations whose targets have the same history
get the same kind of verdict, in any two runs. -/
theorem sequential_classification {d₀ d : DrvData w} (h0 : d₀.Init) {hist : List (Notification w × Option Verdict)}
    (hr : Run d₀ hist d) :
    (∀ n, Admissible (hist.map Prod.fst) d n → ∃ d' v, handle d n = .ok (d', v) ∧ Run d₀ (hist ++ [(n, v)]) d') ∧
    (∀ pre n v post, hist = pre ++ (.threadCreate n, v) :: post →
      ∃ verdict, v = some verdict ∧ Judged (pre.map Prod.fst) n verdict) ∧
    ∀ (d₁ d₁' : DrvData w) (hist₁ : List (Notification w × Option Verdict)), d₁.Init → Run d₁ hist₁ d₁' →
      ∀ pre n v post pre₁ n₁ v₁ post₁, hist = pre ++ (.threadCreate n, some v) :: post →
        hist₁ = pre₁ ++ (.threadCreate n₁, some v₁) :: post₁ → n.processId = n₁.processId →
        (n.currentProcessPid = n.processId ↔ n₁.currentProcessPid = n₁.processId) →
        marks n.processId (pre.map Prod.fst) = marks n.processId (pre₁.map Prod.fst) → v.kind = v₁.kind := by
  refine ⟨?_, fun pre n v post h => hr.judged h0 h, ?_⟩
  · intro n hn
    obtain ⟨rs, hf⟩ := hr.follows h0
    obtain ⟨d', v, rs', he, -, -⟩ := hf.handle n hn
    exact ⟨d', v, he, hr.snoc hn he⟩
  · intro d₁ d₁' hist₁ h1 hr₁ pre n v post pre₁ n₁ v₁ post₁ h h' hpid ho hm
    obtain ⟨_, hv, hj⟩ := hr.judged h0 h
    obtain ⟨_, hv', hj'⟩ := hr₁.judged h1 h'
    cases hv
    cases hv'
    exact hj.kind_eq hj' ho (by rw [hm, hpid])

theorem remoteThread_run : ∃ d, Run freshDriver
    [(.processCreate 5 (some 10), none), (.threadCreate remoteThread, some (.checked false)),
      (.threadCreate remoteThread, some .remoteThread)] d := by
  have h1 : Run freshDriver [] freshDriver := .nil
  have hn : Admissible [] freshDriver (.processCreate 5 (some 10)) :=
    ⟨fun ⟨_, _, _, pre, h⟩ => by simp [marks] at h, 10, rfl, rfl⟩
  exact ⟨_, ((h1.snoc hn rfl).snoc (n := .threadCreate remoteThread) rfl rfl).snoc
    (n := .threadCreate remoteThread) rfl rfl⟩

theorem sequential_classification_remote :
    ∃ verdict, some Verdict.remoteThread = some verdict ∧
      Judged [.processCreate 5 (some 10), .threadCreate remoteThread] remoteThread verdict := by
  obtain ⟨d, hd⟩ := remoteThread_run
  exact (sequential_classification freshDriver_init hd).2.1 [_, _] remoteThread _ [] rfl

end Dmsk
