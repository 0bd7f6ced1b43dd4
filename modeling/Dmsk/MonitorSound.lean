import Dmsk.Monitor
import Mathlib.Data.Fintype.Basic

/-!
# Races of the monitor

The state of the monitor simulates a list of records: what a step may do to
them is an inductive relation (`Moves`). On it the two properties that the
pointer outside the lock puts at risk come down to a condition on the steps
each: a record must not be removed while a handler uses it, and only one
handler at a time may be between the test of the flag and its setting.
-/

namespace Dmsk.Monitor

variable {w : ℕ} {H : Type}

def Pc.uses : Pc w → Option (Ref w)
  | .wasMainThreadCreated r | .setMainThreadCreated r => some r
  | _ => none

def Pc.ref : Pc w → Option (Ref w)
  | .wasMainThreadCreated r | .setMainThreadCreated r | .checkAndSetGlobalStackTrace r | .compare r => some r
  | .done r _ => r
  | _ => none

/-- The record whose main thread the handler takes the new thread for. -/
def Pc.main : Pc w → Option (Ref w)
  | .setMainThreadCreated r | .checkAndSetGlobalStackTrace r | .compare r => some r
  | .done r .noBaseline | .done r (.checked _) => r
  | _ => none

theorem Pc.ref_of_main {q : Pc w} {r : Ref w} (h : q.main = some r) : q.ref = some r := by
  unfold Pc.main at h
  split at h <;> first | exact h | cases h

/-! ## The abstract monitor -/

structure Abs (w : ℕ) (H : Type) where
  records : List (Addr w × Process w)
  incarnation : Addr w → ℕ
  pc : H → Pc w

def Abs.move [DecidableEq H] (A : Abs w H) (h : H) (rs : List (Addr w × Process w)) (q : Pc w) : Abs w H where
  records := rs
  incarnation := A.incarnation
  pc := Function.update A.pc h q

@[simp] theorem Abs.move_self [DecidableEq H] (A : Abs w H) (h : H) (rs : List (Addr w × Process w)) (q : Pc w) :
    (A.move h rs q).pc h = q := Function.update_self _ _ _

theorem Abs.move_of_ne [DecidableEq H] (A : Abs w H) {g h : H} (hgh : g ≠ h) (rs : List (Addr w × Process w))
    (q : Pc w) : (A.move h rs q).pc g = A.pc g := Function.update_of_ne hgh _ _

/-- One step of a handler for a thread in the process `pid`: its position and
the records before and after. -/
inductive HandlerMoves (incarnation : Addr w → ℕ) (pid : Handle w) (rs : List (Addr w × Process w)) :
    Pc w → List (Addr w × Process w) → Pc w → Prop
  | own : HandlerMoves incarnation pid rs .start rs (.done none .ownThread)
  | other : HandlerMoves incarnation pid rs .start rs .getProcess
  | missed : rs.find? (fun r => r.2.pid = pid) = none →
      HandlerMoves incarnation pid rs .getProcess rs (.done none .notMonitored)
  | found {r} : rs.find? (fun r => r.2.pid = pid) = some r →
      HandlerMoves incarnation pid rs .getProcess rs (.wasMainThreadCreated ⟨r.1, incarnation r.1⟩)
  | remote {r p} : (r.process, p) ∈ rs → p.wasMainThreadCreated = true →
      HandlerMoves incarnation pid rs (.wasMainThreadCreated r) rs (.done (some r) .remoteThread)
  | first {r p} : (r.process, p) ∈ rs → p.wasMainThreadCreated = false →
      HandlerMoves incarnation pid rs (.wasMainThreadCreated r) rs (.setMainThreadCreated r)
  | set {r p} : (r.process, p) ∈ rs →
      HandlerMoves incarnation pid rs (.setMainThreadCreated r) (Records.setFlag rs r.process)
        (.checkAndSetGlobalStackTrace r)
  | baseline {r} : HandlerMoves incarnation pid rs (.checkAndSetGlobalStackTrace r) rs (.compare r)
  | compare {r v} : v = .noBaseline ∨ (∃ b, v = .checked b) →
      HandlerMoves incarnation pid rs (.compare r) rs (.done (some r) v)
  | done {r v} : HandlerMoves incarnation pid rs (.done r v) rs (.done r v)

inductive Moves [DecidableEq H] (notification : H → ThreadCreate w) (A : Abs w H) : Act w H → Abs w H → Prop
  | refuse {pid} : Moves notification A (.insertProcess pid none) A
  | insert {pid a} : a ∉ A.records.map Prod.fst →
      Moves notification A (.insertProcess pid (some a))
        ⟨A.records ++ [(a, ⟨pid, false⟩)], Function.update A.incarnation a (A.incarnation a + 1), A.pc⟩
  | terminate {pid} :
      Moves notification A (.terminateProcess pid) ⟨A.records.eraseP fun r => r.2.pid = pid, A.incarnation, A.pc⟩
  | handler {h rs q} : HandlerMoves A.incarnation (notification h).processId A.records (A.pc h) rs q →
      Moves notification A (.handler h) (A.move h rs q)

theorem HandlerMoves.ref {incarnation : Addr w → ℕ} {pid : Handle w} {rs rs' : List (Addr w × Process w)} {q q' : Pc w}
    (hm : HandlerMoves incarnation pid rs q rs' q') {r : Ref w} (hr : q'.ref = some r) :
    q.ref = some r ∨ r.process ∈ rs.map Prod.fst ∧ r.incarnation = incarnation r.process := by
  cases hm with
  | found hf =>
    cases hr
    exact .inr ⟨List.mem_map_of_mem (List.mem_of_find?_eq_some hf), rfl⟩
  | _ => exact .inl hr

/-- The list holds the records, and memory of a record that is gone is not
allocated, unless it holds a new one. -/
structure Simulates (s : State w H) (A : Abs w H) : Prop where
  records : Records s.d.processCollector A.records
  incarnation : s.incarnation = A.incarnation
  pc : s.pc = A.pc
  stale : ∀ h r, (A.pc h).ref = some r →
    r.process ∈ A.records.map Prod.fst ∨ s.d.processCollector.heap r.process = none

section
variable {notification : H → ThreadCreate w} {s s' : State w H} {A : Abs w H}

theorem toOption_some {γ : Type} {x : Except Fault γ} {y : γ} (h : x.toOption = some y) : x = .ok y := by
  cases x with
  | error e => cases h
  | ok z => cases h; rfl

theorem eq_none_of_isSome_eq {γ : Type} {x y : Option γ} (h : x.isSome = y.isSome) (hy : y = none) : x = none := by
  rw [hy] at h
  simpa using h

theorem mem_fst {γ δ : Type} {l : List (γ × δ)} {a : γ} : a ∈ l.map Prod.fst ↔ ∃ p, (a, p) ∈ l := by
  simp

theorem mem_eraseP_of_find {γ : Type} {p : γ → Bool} {l : List γ} {x : γ} (hx : x ∈ l)
    (hne : ∀ y, l.find? p = some y → x ≠ y) : x ∈ l.eraseP p := by
  cases hf : l.find? p with
  | none => rwa [List.eraseP_of_forall_not (by simpa using hf)]
  | some y =>
    obtain ⟨hp, as, bs, rfl, ha⟩ := List.find?_eq_some_iff_append.mp hf
    rw [List.eraseP_append_right _ (by simpa using ha), List.eraseP_cons_of_pos hp]
    have := hne y hf
    simp only [List.mem_append, List.mem_cons] at hx ⊢
    tauto

theorem notMem_eraseP {γ δ : Type} {p : γ × δ → Bool} {l : List (γ × δ)} {y : γ × δ} (hn : (l.map Prod.fst).Nodup)
    (hf : l.find? p = some y) : y.1 ∉ (l.eraseP p).map Prod.fst := by
  obtain ⟨hp, as, bs, rfl, ha⟩ := List.find?_eq_some_iff_append.mp hf
  rw [List.eraseP_append_right _ (by simpa using ha), List.eraseP_cons_of_pos hp, List.map_append]
  rw [List.map_append, List.map_cons, List.nodup_middle, List.nodup_cons] at hn
  exact hn.1

theorem wasMainThreadCreated_fault {c : ProcessCollector w} {a : Addr w} (ha : c.heap a = none) :
    c.wasMainThreadCreated a = .error .accessViolation := by
  simp only [ProcessCollector.wasMainThreadCreated, getObject, load, ha]
  rfl

theorem setMainThreadCreated_fault {c : ProcessCollector w} {a : Addr w} (ha : c.heap a = none) :
    c.setMainThreadCreated a = .error .accessViolation := by
  simp only [ProcessCollector.setMainThreadCreated, modifyObject, getObject, load, ha]
  rfl

/-- Memory that is allocated where it was before holds the records it held. -/
theorem Simulates.stale_of (hs : Simulates s A) {c : ProcessCollector w}
    (hsome : ∀ b, (c.heap b).isSome = (s.d.processCollector.heap b).isSome) {h : H} {r : Ref w} (hr : (A.pc h).ref = some r) :
    r.process ∈ A.records.map Prod.fst ∨ c.heap r.process = none :=
  (hs.stale h r hr).imp_right (eq_none_of_isSome_eq (hsome r.process))

/-- An access through a pointer goes to a record in the list, or it is a fault. -/
theorem Simulates.accessed (hs : Simulates s A) {h : H} {r : Ref w} (hr : (A.pc h).ref = some r)
    (hlive : s.d.processCollector.heap r.process ≠ none) : ∃ p, (r.process, p) ∈ A.records := by
  rcases hs.stale h r hr with hp | hf
  · exact mem_fst.mp hp
  · exact absurd hf hlive

theorem handler_moves (hs : Simulates s A) (h : H) {d : DrvData w} {q : Pc w}
    (he : handlerStep s.incarnation (notification h) s.d (s.pc h) = .ok (d, q)) :
    ∃ rs, HandlerMoves A.incarnation (notification h).processId A.records (A.pc h) rs q ∧
      Records d.processCollector rs ∧ rs.map Prod.fst = A.records.map Prod.fst ∧
      ∀ b, (d.processCollector.heap b).isSome = (s.d.processCollector.heap b).isSome := by
  rw [hs.pc, hs.incarnation] at he
  cases hq : A.pc h with
  | start =>
    rw [hq] at he
    cases he
    refine ⟨_, ?_, hs.records, rfl, fun _ => rfl⟩
    split
    · exact .own
    · exact .other
  | getProcess =>
    rw [hq, handlerStep, hs.records.getProcess_eq, ok_bind] at he
    cases hf : A.records.find? fun r => r.2.pid = (notification h).processId with
    | none =>
      rw [hf] at he
      cases he
      exact ⟨_, .missed hf, hs.records, rfl, fun _ => rfl⟩
    | some r =>
      rw [hf] at he
      cases he
      exact ⟨_, .found hf, hs.records, rfl, fun _ => rfl⟩
  | wasMainThreadCreated r =>
    rw [hq, handlerStep] at he
    obtain ⟨p, hp⟩ := hs.accessed (by rw [hq]; rfl) fun hf => by
      rw [wasMainThreadCreated_fault hf] at he
      cases he
    rw [hs.records.wasMainThreadCreated_eq hp, ok_bind] at he
    cases hw : p.wasMainThreadCreated with
    | true =>
      rw [hw] at he
      cases he
      exact ⟨_, .remote hp hw, hs.records, rfl, fun _ => rfl⟩
    | false =>
      rw [hw] at he
      cases he
      exact ⟨_, .first hp hw, hs.records, rfl, fun _ => rfl⟩
  | setMainThreadCreated r =>
    rw [hq, handlerStep] at he
    obtain ⟨p, hp⟩ := hs.accessed (by rw [hq]; rfl) fun hf => by
      rw [setMainThreadCreated_fault hf] at he
      cases he
    obtain ⟨c, hc, hr, hsome⟩ := hs.records.setMainThreadCreated_ok hp
    rw [hc, ok_bind] at he
    cases he
    exact ⟨_, .set hp, hr, Records.setFlag_fst _ _, hsome⟩
  | checkAndSetGlobalStackTrace r =>
    rw [hq] at he
    cases he
    exact ⟨_, .baseline, by rw [fltpCheckAndSet_collector]; exact hs.records, rfl, by
      rw [fltpCheckAndSet_collector]; exact fun _ => rfl⟩
  | compare r =>
    rw [hq] at he
    cases he
    refine ⟨_, .compare ?_, hs.records, rfl, fun _ => rfl⟩
    unfold hollowCheck
    split
    · exact .inl rfl
    · exact .inr ⟨_, rfl⟩
  | done r v =>
    rw [hq] at he
    cases he
    exact ⟨_, .done, hs.records, rfl, fun _ => rfl⟩

variable [DecidableEq H]

theorem Simulates.insertProcess (hs : Simulates s A) {pid : Handle w} {process : Option (Addr w)}
    (h : step notification s (.insertProcess pid process) = some s') :
    ∃ A', Moves notification A (.insertProcess pid process) A' ∧ Simulates s' A' := by
  simp only [Monitor.step] at h
  split at h
  swap
  · cases h
  rename_i hfree
  obtain ⟨d, hd, rfl⟩ := Option.map_eq_some_iff.mp h
  have hd := toOption_some hd
  cases process with
  | none =>
    cases hd
    exact ⟨A, .refuse, hs.records, hs.incarnation, hs.pc, hs.stale⟩
  | some a =>
    have ha : s.d.processCollector.heap a = none := by simpa using hfree
    have hnew : a ∉ A.records.map Prod.fst := by
      intro hm
      obtain ⟨r, hr, rfl⟩ := List.mem_map.mp hm
      have := hs.records.live hr
      rw [ha] at this
      cases this
    obtain ⟨c, hc, hr, hsome⟩ := hs.records.insertProcess_ok ha pid
    simp only [fltCreateProcessNotifyRoutine, fltpHandleProcessCreate, hc, ok_bind] at hd
    cases hd
    refine ⟨_, .insert hnew, hr, by rw [← hs.incarnation]; rfl, hs.pc, ?_⟩
    intro g r hg
    rw [List.map_append]
    rcases hs.stale g r hg with hp | hf
    · exact .inl (List.mem_append_left _ hp)
    · by_cases hra : r.process = a
      · exact .inl (by simp [hra])
      · exact .inr (eq_none_of_isSome_eq (hsome _ hra) hf)

theorem Simulates.terminateProcess (hs : Simulates s A) {pid : Handle w}
    (h : step notification s (.terminateProcess pid) = some s') :
    ∃ A', Moves notification A (.terminateProcess pid) A' ∧ Simulates s' A' := by
  obtain ⟨d, hd, rfl⟩ := Option.map_eq_some_iff.mp h
  have hd := toOption_some hd
  obtain ⟨c, hc, hr, hgone, hsome⟩ := hs.records.terminateProcess_ok pid
  simp only [fltCreateProcessNotifyRoutine, fltpHandleProcessTerminate, hc, ok_bind] at hd
  cases hd
  refine ⟨_, .terminate, hr, hs.incarnation, hs.pc, ?_⟩
  intro g r hg
  by_cases hfind : ∃ r', A.records.find? (fun r => r.2.pid = pid) = some r' ∧ r'.1 = r.process
  · obtain ⟨r', hr', he⟩ := hfind
    exact .inr (he ▸ hgone r' hr')
  · have hne : ∀ r', A.records.find? (fun r => r.2.pid = pid) = some r' → r.process ≠ r'.1 :=
      fun r' hr' he => hfind ⟨r', hr', he.symm⟩
    rcases hs.stale g r hg with hp | hf
    · obtain ⟨p, hp⟩ := mem_fst.mp hp
      exact .inl (mem_fst.mpr ⟨p, mem_eraseP_of_find hp fun r' hr' he => hne r' hr' (congrArg Prod.fst he)⟩)
    · exact .inr (eq_none_of_isSome_eq (hsome _ hne) hf)

theorem Simulates.handler (hs : Simulates s A) {h' : H} (h : step notification s (.handler h') = some s') :
    ∃ A', Moves notification A (.handler h') A' ∧ Simulates s' A' := by
  obtain ⟨⟨d, q⟩, hd, rfl⟩ := Option.map_eq_some_iff.mp h
  obtain ⟨rs, hm, hr, hfst, hsome⟩ := handler_moves hs h' (toOption_some hd)
  refine ⟨_, .handler hm, hr, hs.incarnation, by rw [hs.pc]; rfl, ?_⟩
  intro g r hg
  change r.process ∈ rs.map Prod.fst ∨ _
  rw [hfst]
  by_cases hgh : g = h'
  · subst hgh
    rw [Abs.move_self] at hg
    rcases hm.ref hg with hg | hg
    · exact hs.stale_of hsome hg
    · exact .inl hg.1
  · rw [A.move_of_ne hgh] at hg
    exact hs.stale_of hsome hg

/-- **The simulation.** A step of the monitor is a move of the records. -/
theorem Simulates.step (hs : Simulates s A) {a : Act w H} (h : step notification s a = some s') :
    ∃ A', Moves notification A a A' ∧ Simulates s' A' := by
  cases a with
  | insertProcess pid process => exact hs.insertProcess h
  | terminateProcess pid => exact hs.terminateProcess h
  | handler h' => exact hs.handler h

theorem Simulates.init (h0 : (monitor notification).init s) : Simulates s ⟨[], fun _ => 0, fun _ => .start⟩ where
  records := h0.1.records
  incarnation := funext h0.2.1
  pc := funext h0.2.2
  stale h r hr := by cases hr

/-! ## Records in use -/

/-- The record is in the list, and it is the one the pointer was taken from. -/
def Member (s : State w H) (r : Ref w) : Prop :=
  (∃ xs, elements s.d.processCollector.heap s.d.processCollector.activeProcesses = .ok xs ∧ r.process ∈ xs) ∧
    s.incarnation r.process = r.incarnation

/-- What the next access of any handler goes to is a record in the list. -/
def Safe (s : State w H) : Prop := ∀ h, ∀ r ∈ (s.pc h).uses, Member s r

/-- `TerminateProcess` does not remove a record that a handler has yet to access. -/
def Undisturbed (s : State w H) : Act w H → Prop
  | .terminateProcess pid =>
    ∀ h, ∀ r ∈ (s.pc h).uses, s.d.processCollector.findProcessUnsafe pid ≠ .ok (some r.process)
  | _ => True

omit [DecidableEq H] in
theorem Simulates.member (hs : Simulates s A) {r : Ref w} :
    Member s r ↔ r.process ∈ A.records.map Prod.fst ∧ A.incarnation r.process = r.incarnation := by
  rw [Member, elements_eq hs.records.holds, hs.incarnation]
  refine and_congr_left fun _ => ⟨?_, fun h => ⟨_, rfl, h⟩⟩
  intro hex
  obtain ⟨xs, he, hx⟩ := hex
  cases he
  exact hx

omit [DecidableEq H] in
theorem Simulates.safe (hs : Simulates s A) :
    Safe s ↔ ∀ h, ∀ r ∈ (A.pc h).uses, r.process ∈ A.records.map Prod.fst ∧ A.incarnation r.process = r.incarnation := by
  unfold Safe
  rw [hs.pc]
  exact forall_congr' fun h => forall_congr' fun r => imp_congr_right fun _ => hs.member

omit [DecidableEq H] in
theorem Simulates.undisturbed (hs : Simulates s A) {pid : Handle w} :
    Undisturbed s (.terminateProcess pid) ↔ ∀ h, ∀ r ∈ (A.pc h).uses,
      ∀ r', A.records.find? (fun r => r.2.pid = pid) = some r' → r.process ≠ r'.1 := by
  simp only [Undisturbed]
  rw [hs.records.findProcessUnsafe_eq, hs.pc]
  refine forall_congr' fun h => forall_congr' fun r => imp_congr_right fun _ => ?_
  cases A.records.find? fun r => r.2.pid = pid with
  | none => simp
  | some r' => simp [eq_comm]

theorem HandlerMoves.uses {incarnation : Addr w → ℕ} {pid : Handle w} {rs rs' : List (Addr w × Process w)}
    {q q' : Pc w} (hm : HandlerMoves incarnation pid rs q rs' q') {r : Ref w} (hr : q'.uses = some r) :
    q.uses = some r ∨ r.process ∈ rs.map Prod.fst ∧ incarnation r.process = r.incarnation := by
  cases hm with
  | found hf =>
    cases hr
    exact .inr ⟨List.mem_map_of_mem (List.mem_of_find?_eq_some hf), rfl⟩
  | first hp hw => exact .inl hr
  | _ => cases hr

theorem HandlerMoves.fst {incarnation : Addr w → ℕ} {pid : Handle w} {rs rs' : List (Addr w × Process w)}
    {q q' : Pc w} (hm : HandlerMoves incarnation pid rs q rs' q') : rs'.map Prod.fst = rs.map Prod.fst := by
  cases hm with
  | set hp => exact Records.setFlag_fst _ _
  | _ => rfl

theorem safe_step (hs : Simulates s A) (hsafe : Safe s) {a : Act w H} (hu : Undisturbed s a)
    (h : step notification s a = some s') : Safe s' := by
  obtain ⟨A', hm, hs'⟩ := hs.step h
  rw [hs.safe] at hsafe
  rw [hs'.safe]
  cases hm with
  | refuse => exact hsafe
  | insert hnew =>
    intro g r hr
    obtain ⟨hmem, hinc⟩ := hsafe g r hr
    rename_i a
    have hne : r.process ≠ a := fun he => hnew (he ▸ hmem)
    refine ⟨by rw [List.map_append]; exact List.mem_append_left _ hmem, ?_⟩
    rw [← hinc]
    exact Function.update_of_ne hne _ _
  | terminate =>
    rw [hs.undisturbed] at hu
    intro g r hr
    obtain ⟨hmem, hinc⟩ := hsafe g r hr
    obtain ⟨p, hp⟩ := mem_fst.mp hmem
    exact ⟨mem_fst.mpr ⟨p, mem_eraseP_of_find hp fun r' hr' he => hu g r hr r' hr' (congrArg Prod.fst he)⟩, hinc⟩
  | handler hm =>
    rename_i h' rs q
    intro g r hr
    change r.process ∈ rs.map Prod.fst ∧ _
    rw [hm.fst]
    by_cases hgh : g = h'
    · subst hgh
      rw [Abs.move_self] at hr
      rcases hm.uses hr with hr | hr
      · exact hsafe g r hr
      · exact hr
    · rw [A.move_of_ne hgh] at hr
      exact hsafe g r hr

theorem not_safe_step (hs : Simulates s A) {a : Act w H} (hu : ¬ Undisturbed s a)
    (h : step notification s a = some s') : ¬ Safe s' := by
  obtain ⟨A', hm, hs'⟩ := hs.step h
  rw [hs'.safe]
  cases hm with
  | terminate =>
    rw [hs.undisturbed] at hu
    push Not at hu
    obtain ⟨g, r, hr, r', hf, he⟩ := hu
    intro hsafe
    obtain ⟨hmem, -⟩ := hsafe g r hr
    rw [he] at hmem
    exact notMem_eraseP hs.records.nodup hf hmem
  | _ => exact absurd trivial hu

theorem simulates_reach {C : State w H → Act w H → Prop} (hr : (monitor notification).ReachUnder C s) :
    ∃ A, Simulates s A := by
  refine hr.invariant (I := fun s => ∃ A, Simulates s A) (fun s h0 => ⟨_, Simulates.init h0⟩) ?_
  intro s a t hs _ hst
  obtain ⟨A, hs⟩ := hs
  obtain ⟨A', -, hs'⟩ := hs.step hst
  exact ⟨A', hs'⟩

/-- **Records in use.** In every run that removes no record which a handler has
yet to access, every access goes to a record in the list. The first removal of
such a record breaks this. -/
theorem safe_while_undisturbed (notification : H → ThreadCreate w) :
    (∀ s, (monitor notification).ReachUnder Undisturbed s → Safe s) ∧
    ∀ s a s', (monitor notification).ReachUnder Undisturbed s → step notification s a = some s' →
      ¬ Undisturbed s a → ¬ Safe s' := by
  refine ⟨?_, ?_⟩
  · intro s hr
    have := hr.invariant (I := fun s => (∃ A, Simulates s A) ∧ Safe s) (fun s h0 => ⟨⟨_, Simulates.init h0⟩, ?_⟩)
      fun s a t hs hu hst => ?_
    · exact this.2
    · rw [(Simulates.init h0).safe]
      intro h r hr
      cases hr
    · obtain ⟨⟨A, hs⟩, hsafe⟩ := hs
      obtain ⟨A', -, hs'⟩ := hs.step hst
      exact ⟨⟨A', hs'⟩, safe_step hs hsafe hu hst⟩
  · intro s a s' hr hst hu
    obtain ⟨A, hs⟩ := simulates_reach hr
    exact not_safe_step hs hu hst

instance [Fintype H] (s : State w H) : ∀ a, Decidable (Undisturbed s a)
  | .terminateProcess pid => inferInstanceAs (Decidable (∀ h, ∀ r ∈ (s.pc h).uses,
      s.d.processCollector.findProcessUnsafe pid ≠ .ok (some r.process)))
  | .insertProcess _ _ | .handler _ => isTrue trivial

end

def started : State 8 Bool where
  d := freshDriver
  incarnation _ := 0
  pc _ := .start

theorem started_init : (monitor fun _ : Bool => remoteThread).init started :=
  ⟨freshDriver_init, fun _ => rfl, fun _ => rfl⟩

/-- The process terminates after a handler has found its record. -/
def disturbedRun : List (Act 8 Bool) :=
  [.insertProcess 5 (some 10), .handler true, .handler true, .terminateProcess 5]

def disturbed : State 8 Bool :=
  ((monitor fun _ => remoteThread).exec (fun _ _ => True) started disturbedRun).get (by decide)

theorem removed_in_use : ¬ ∀ s, (monitor fun _ : Bool => remoteThread).Reachable s → Safe s := by
  intro h
  have hs := h disturbed (System.reach_of_exec started_init disturbedRun (Option.some_get _).symm)
  obtain ⟨⟨xs, he, hx⟩, -⟩ := hs true ⟨10, 1⟩ (by decide)
  have : xs = [] := by
    have h0 : elements disturbed.d.processCollector.heap disturbed.d.processCollector.activeProcesses = .ok [] := by
      decide
    rw [h0] at he
    cases he
    rfl
  rw [this] at hx
  cases hx

/-- The process terminates when no handler has anything left to access. -/
def undisturbedRun : List (Act 8 Bool) :=
  [.insertProcess 5 (some 10), .handler true, .handler true, .handler true, .handler true, .terminateProcess 5,
    .insertProcess 5 (some 10), .handler false, .handler false]

def undisturbed : State 8 Bool :=
  ((monitor fun _ => remoteThread).exec Undisturbed started undisturbedRun).get (by decide)

theorem safe_while_undisturbed_reused : undisturbed.pc false = .wasMainThreadCreated ⟨10, 2⟩ ∧ Safe undisturbed :=
  ⟨by decide, (safe_while_undisturbed fun _ => remoteThread).1 undisturbed
    (System.reach_of_exec started_init undisturbedRun (Option.some_get _).symm)⟩

/-! ## One main thread -/

/-- `WasMainThreadCreated` is not called on a record while another handler is
between its own call, which returned false, and `SetMainThreadCreated`. -/
def OneAtATime (s : State w H) : Act w H → Prop
  | .handler h => ∀ r, s.pc h = .wasMainThreadCreated r → ∀ g, s.pc g ≠ .setMainThreadCreated r
  | _ => True

/-- At most one thread is taken for the main thread of a record in the list, and
the handlers of the others report a remote thread. -/
def OneMain (s : State w H) : Prop :=
  ∀ r, Member s r →
    (∀ g h, (s.pc g).main = some r → (s.pc h).main = some r → g = h) ∧
    ∀ h v, s.pc h = .done (some r) v → (s.pc h).main = some r ∨ v = .remoteThread

def Abs.Current (A : Abs w H) (r : Ref w) : Prop :=
  r.process ∈ A.records.map Prod.fst ∧ A.incarnation r.process = r.incarnation

structure Abs.OneMain (A : Abs w H) : Prop where
  bound : ∀ h r, (A.pc h).ref = some r → r.incarnation ≤ A.incarnation r.process
  unique : ∀ r, A.Current r → ∀ g h, (A.pc g).main = some r → (A.pc h).main = some r → g = h
  window : ∀ h r p, A.Current r → (A.pc h).main = some r → (r.process, p) ∈ A.records →
    p.wasMainThreadCreated = false → A.pc h = .setMainThreadCreated r
  outcome : ∀ h r v, A.pc h = .done (some r) v → (A.pc h).main = some r ∨ v = .remoteThread

section
variable {incarnation : Addr w → ℕ} {pid : Handle w} {rs rs' : List (Addr w × Process w)} {q q' : Pc w}

theorem HandlerMoves.main (hm : HandlerMoves incarnation pid rs q rs' q') {r : Ref w} (hr : q'.main = some r) :
    q.main = some r ∨ q = .wasMainThreadCreated r ∧ q' = .setMainThreadCreated r ∧
      ∃ p, (r.process, p) ∈ rs ∧ p.wasMainThreadCreated = false := by
  cases hm with
  | first hp hw =>
    cases hr
    exact .inr ⟨rfl, rfl, _, hp, hw⟩
  | compare hv =>
    rcases hv with rfl | ⟨b, rfl⟩
    · exact .inl hr
    · exact .inl hr
  | set hp => exact .inl hr
  | baseline => exact .inl hr
  | done => exact .inl hr
  | _ => cases hr

theorem mem_setFlag_false {a b : Addr w} {p : Process w} (h : (b, p) ∈ Records.setFlag rs a)
    (hp : p.wasMainThreadCreated = false) : (b, p) ∈ rs ∧ b ≠ a := by
  obtain ⟨r, hr, he⟩ := List.mem_map.mp h
  by_cases hra : r.1 = a
  · rw [if_pos hra] at he
    cases he
    cases hp
  · rw [if_neg hra] at he
    subst he
    exact ⟨hr, hra⟩

theorem HandlerMoves.records (hm : HandlerMoves incarnation pid rs q rs' q') {b : Addr w} {p : Process w}
    (h : (b, p) ∈ rs') (hp : p.wasMainThreadCreated = false) :
    (b, p) ∈ rs ∧ ∀ r, q = .setMainThreadCreated r → b ≠ r.process := by
  cases hm with
  | set hr =>
    obtain ⟨hb, hne⟩ := mem_setFlag_false h hp
    refine ⟨hb, ?_⟩
    intro r hq
    cases hq
    exact hne
  | _ => exact ⟨h, fun r hq => by cases hq⟩

theorem HandlerMoves.outcome (hm : HandlerMoves incarnation pid rs q rs' q') {r : Ref w} {v : Verdict}
    (hq : q' = .done (some r) v) : q = q' ∨ q'.main = some r ∨ v = .remoteThread := by
  cases hm with
  | remote hp hw =>
    cases hq
    exact .inr (.inr rfl)
  | compare hv =>
    cases hq
    rcases hv with rfl | ⟨b, rfl⟩
    · exact .inr (.inl rfl)
    · exact .inr (.inl rfl)
  | done => exact .inl rfl
  | _ => cases hq

end

section
variable [DecidableEq H] {notification : H → ThreadCreate w} {s s' : State w H} {A A' : Abs w H}

omit [DecidableEq H] in
theorem Abs.OneMain.frame (hA : A.OneMain) (hpc : A'.pc = A.pc)
    (hinc : ∀ a, A.incarnation a ≤ A'.incarnation a)
    (hcur : ∀ r, A'.Current r → r.incarnation ≤ A.incarnation r.process → A.Current r ∧
      ∀ p, (r.process, p) ∈ A'.records → (r.process, p) ∈ A.records) : A'.OneMain where
  bound h r hr := by
    rw [hpc] at hr
    exact (hA.bound h r hr).trans (hinc _)
  unique r hr g h hg hh := by
    rw [hpc] at hg hh
    exact hA.unique r (hcur r hr (hA.bound g r (Pc.ref_of_main hg))).1 g h hg hh
  window h r p hr hm hp hw := by
    rw [hpc] at hm ⊢
    have := hcur r hr (hA.bound h r (Pc.ref_of_main hm))
    exact hA.window h r p this.1 hm (this.2 p hp) hw
  outcome h r v hv := by
    rw [hpc] at hv ⊢
    exact hA.outcome h r v hv

omit [DecidableEq H] in
theorem Abs.OneMain.insert (hA : A.OneMain) (pid : Handle w) (a : Addr w) : Abs.OneMain
    ⟨A.records ++ [(a, ⟨pid, false⟩)], Function.update A.incarnation a (A.incarnation a + 1), A.pc⟩ := by
  refine hA.frame rfl ?_ ?_
  · intro b
    by_cases hba : b = a
    · subst hba; simp
    · simp [hba]
  · intro r hr hb
    have hra : r.process ≠ a := by
      intro hra
      subst hra
      have := hr.2
      simp only [Function.update_self] at this
      omega
    have hmem : ∀ p, (r.process, p) ∈ A.records ++ [(a, ⟨pid, false⟩)] → (r.process, p) ∈ A.records := by
      intro p hp
      rcases List.mem_append.mp hp with hp | hp
      · exact hp
      · rw [List.mem_singleton] at hp
        exact absurd (congrArg Prod.fst hp) hra
    obtain ⟨p, hp⟩ := mem_fst.mp hr.1
    refine ⟨⟨mem_fst.mpr ⟨p, hmem p hp⟩, ?_⟩, hmem⟩
    rw [← hr.2]
    exact (Function.update_of_ne hra _ _).symm

omit [DecidableEq H] in
theorem Abs.OneMain.terminate (hA : A.OneMain) (pid : Handle w) :
    Abs.OneMain ⟨A.records.eraseP fun r => r.2.pid = pid, A.incarnation, A.pc⟩ := by
  refine hA.frame rfl (fun b => le_refl _) ?_
  intro r hr _
  obtain ⟨p, hp⟩ := mem_fst.mp hr.1
  exact ⟨⟨mem_fst.mpr ⟨p, List.mem_of_mem_eraseP hp⟩, hr.2⟩, fun p hp => List.mem_of_mem_eraseP hp⟩

section
variable {h : H} {rs : List (Addr w × Process w)} {q : Pc w}

theorem HandlerMoves.current (hm : HandlerMoves A.incarnation (notification h).processId A.records (A.pc h) rs q) {r : Ref w} :
    (A.move h rs q).Current r ↔ A.Current r := by
  unfold Abs.Current Abs.move
  rw [hm.fst]

omit [DecidableEq H] in
/-- A handler becomes the creator of a main thread only where there is none,
unless it reads the flag in the window of another one. -/
theorem Abs.OneMain.only_main (hA : A.OneMain)
    (hm : HandlerMoves A.incarnation (notification h).processId A.records (A.pc h) rs q)
    (hone : ∀ r, A.pc h = .wasMainThreadCreated r → ∀ g, A.pc g ≠ .setMainThreadCreated r) {r : Ref w} {g : H}
    (hr : A.Current r) (hg : (A.pc g).main = some r) (hq : q.main = some r) : g = h := by
  rcases hm.main hq with hq | ⟨hq, -, p, hp, hw⟩
  · exact hA.unique r hr g h hg hq
  · exact absurd (hA.window g r p hr hg hp hw) (hone r hq g)

theorem Abs.OneMain.handler (hA : A.OneMain)
    (hm : HandlerMoves A.incarnation (notification h).processId A.records (A.pc h) rs q)
    (hone : ∀ r, A.pc h = .wasMainThreadCreated r → ∀ g, A.pc g ≠ .setMainThreadCreated r) : (A.move h rs q).OneMain := by
  refine ⟨?_, ?_, ?_, ?_⟩
  · intro g r hr
    by_cases hgh : g = h
    · subst hgh
      rw [Abs.move_self] at hr
      rcases hm.ref hr with hr | hr
      · exact hA.bound g r hr
      · exact hr.2.le
    · rw [A.move_of_ne hgh] at hr
      exact hA.bound g r hr
  · intro r hr g g' hg hg'
    rw [hm.current] at hr
    by_cases hgh : g = h
    · by_cases hgh' : g' = h
      · rw [hgh, hgh']
      · rw [hgh, Abs.move_self] at hg
        rw [A.move_of_ne hgh'] at hg'
        exact hgh.trans (hA.only_main hm hone hr hg' hg).symm
    · rw [A.move_of_ne hgh] at hg
      by_cases hgh' : g' = h
      · rw [hgh', Abs.move_self] at hg'
        exact (hA.only_main hm hone hr hg hg').trans hgh'.symm
      · rw [A.move_of_ne hgh'] at hg'
        exact hA.unique r hr g g' hg hg'
  · intro g r p hr hg hp hw
    rw [hm.current] at hr
    obtain ⟨hp', hset⟩ := hm.records hp hw
    by_cases hgh : g = h
    · subst hgh
      rw [Abs.move_self] at hg ⊢
      rcases hm.main hg with hq | ⟨-, hq, -⟩
      · exact absurd rfl (hset r (hA.window g r p hr hq hp' hw))
      · exact hq
    · rw [A.move_of_ne hgh] at hg ⊢
      exact hA.window g r p hr hg hp' hw
  · intro g r v hv
    by_cases hgh : g = h
    · subst hgh
      rw [Abs.move_self] at hv ⊢
      rcases hm.outcome hv with hq | hq
      · rw [← hq] at hv ⊢
        exact hA.outcome g r v hv
      · exact hq
    · rw [A.move_of_ne hgh] at hv ⊢
      exact hA.outcome g r v hv

end

theorem Abs.OneMain.step (hA : A.OneMain) {a : Act w H} (hm : Moves notification A a A')
    (hone : ∀ h, a = .handler h → ∀ r, A.pc h = .wasMainThreadCreated r → ∀ g, A.pc g ≠ .setMainThreadCreated r) :
    A'.OneMain := by
  cases hm with
  | refuse => exact hA
  | insert hnew => exact hA.insert _ _
  | terminate => exact hA.terminate _
  | handler hm => exact hA.handler hm (hone _ rfl)

omit [DecidableEq H] in
theorem Simulates.oneMain (hs : Simulates s A) (hA : A.OneMain) : OneMain s := by
  intro r hr
  rw [hs.member] at hr
  rw [hs.pc]
  exact ⟨hA.unique r hr, fun h v => hA.outcome h r v⟩

/-- **One main thread.** In every run in which the test and the setting of a
record's flag are never interleaved with another test of it, at most one thread
is taken for the main thread of a process, and every other is reported. -/
theorem one_main_while_one_at_a_time (notification : H → ThreadCreate w) (s : State w H)
    (hr : (monitor notification).ReachUnder OneAtATime s) : OneMain s := by
  have := hr.invariant (I := fun s => ∃ A, Simulates s A ∧ A.OneMain)
    (fun s h0 => ⟨_, Simulates.init h0, ?_⟩) fun s a t hs ho hst => ?_
  · obtain ⟨A, hs, hA⟩ := this
    exact hs.oneMain hA
  · refine ⟨?_, ?_, ?_, ?_⟩
    · intro h r hr
      cases hr
    · intro r hr g h hg
      cases hg
    · intro h r p hr hm
      cases hm
    · intro h r v hv
      cases hv
  · obtain ⟨A, hs, hA⟩ := hs
    obtain ⟨A', hm, hs'⟩ := hs.step hst
    refine ⟨A', hs', hA.step hm ?_⟩
    intro h ha
    subst ha
    rw [← hs.pc]
    exact ho

instance [Fintype H] (s : State w H) : ∀ a, Decidable (OneAtATime s a)
  | .handler h =>
    match hq : s.pc h with
    | .wasMainThreadCreated r =>
      decidable_of_iff (∀ g, s.pc g ≠ .setMainThreadCreated r) ⟨fun hg r' hr' => by
        cases hq.symm.trans hr'
        exact hg, fun hg => hg r hq⟩
    | .start | .getProcess | .setMainThreadCreated _ | .checkAndSetGlobalStackTrace _ | .compare _ | .done _ _ =>
      isTrue fun r hr => by cases hq.symm.trans hr
  | .insertProcess _ _ | .terminateProcess _ => isTrue trivial

end

def racedRun : List (Act 8 Bool) :=
  [.insertProcess 5 (some 10), .handler true, .handler true, .handler false, .handler false, .handler true,
    .handler false]

def raced : State 8 Bool :=
  ((monitor fun _ => remoteThread).exec (fun _ _ => True) started racedRun).get (by decide)

theorem two_main_threads : ¬ ∀ s, (monitor fun _ : Bool => remoteThread).Reachable s → OneMain s := by
  intro h
  have hs := h raced (System.reach_of_exec started_init racedRun (Option.some_get _).symm)
  have hmem : Member raced ⟨10, 1⟩ := ⟨⟨[10], by decide, by simp⟩, by decide⟩
  exact absurd ((hs _ hmem).1 true false (by decide) (by decide)) (by decide)

def orderedRun : List (Act 8 Bool) :=
  [.insertProcess 5 (some 10), .handler true, .handler true, .handler false, .handler false, .handler true,
    .handler true, .handler false, .handler true, .handler true]

def ordered : State 8 Bool :=
  ((monitor fun _ => remoteThread).exec OneAtATime started orderedRun).get (by decide)

theorem one_main_ordered : ordered.pc true = .done (some ⟨10, 1⟩) (.checked false) ∧
    ordered.pc false = .done (some ⟨10, 1⟩) .remoteThread ∧ OneMain ordered :=
  ⟨by decide, by decide, one_main_while_one_at_a_time (fun _ => remoteThread) ordered
    (System.reach_of_exec started_init orderedRun (Option.some_get _).symm)⟩

end Dmsk.Monitor
