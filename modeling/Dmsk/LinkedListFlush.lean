import Dmsk.LinkedListRuns

/-!
# What a flush touches

`Flush` once more, with a record of the entries that it reads, writes and
deletes, in order. The record does not change what is computed. An access to
memory that is not allocated is a fault, so what a flush that succeeds touches
was allocated at that time, and an entry is not touched after its deletion.
-/

namespace Dmsk

inductive Access (w : ℕ)
  /-- A link of the entry is read or written. -/
  | link (a : Addr w)
  | delete (a : Addr w)
deriving DecidableEq, Repr

def Access.address {w : ℕ} : Access w → Addr w
  | .link a | .delete a => a

def Access.deleted {w : ℕ} : Access w → Option (Addr w)
  | .link _ => none
  | .delete a => some a

structure Recorded (w : ℕ) (γ : Type) where
  accesses : List (Access w)
  result : Except Fault γ

variable {w : ℕ} {β γ δ ι : Type}

namespace Recorded

def bind (x : Recorded w γ) (f : γ → Recorded w δ) : Recorded w δ :=
  match x.result with
  | .ok v => ⟨x.accesses ++ (f v).accesses, (f v).result⟩
  | .error e => ⟨x.accesses, .error e⟩

instance : Monad (Recorded w) where
  pure v := ⟨[], .ok v⟩
  bind := bind

/-! ## The code, with its accesses -/

def getFlink (h : Heap w β) (a : Addr w) : Recorded w (Addr w) := ⟨[.link a], Dmsk.getFlink h a⟩

def getBlink (h : Heap w β) (a : Addr w) : Recorded w (Addr w) := ⟨[.link a], Dmsk.getBlink h a⟩

def setFlink (h : Heap w β) (a v : Addr w) : Recorded w (Heap w β) := ⟨[.link a], Dmsk.setFlink h a v⟩

def setBlink (h : Heap w β) (a v : Addr w) : Recorded w (Heap w β) := ⟨[.link a], Dmsk.setBlink h a v⟩

def delete (h : Heap w β) (a : Addr w) : Recorded w (Heap w β) := ⟨[.delete a], Dmsk.delete h a⟩

def ntAssert (p : Prop) [Decidable p] : Recorded w Unit := ⟨[], Dmsk.ntAssert p⟩

def checkListEntry (h : Heap w β) (entry : Addr w) : Recorded w Unit := do
  ntAssert ((← getBlink h (← getFlink h entry)) = entry)
  ntAssert ((← getFlink h (← getBlink h entry)) = entry)

def fastFailOnCorruption (h : Heap w β) (list : LinkedList w) (entry : Addr w) : Recorded w Unit := do
  checkListEntry h entry
  checkListEntry h (← getFlink h list.self)
  checkListEntry h (← getBlink h list.self)

def removeEntry (h : Heap w β) (list : LinkedList w) (entry : Addr w) : Recorded w (Heap w β × LinkedList w) := do
  fastFailOnCorruption h list entry
  let next ← getFlink h entry
  let prev ← getBlink h entry
  let h ← setBlink h next prev
  let h ← setFlink h prev next
  return (h, { list with noElements := list.noElements - 1 })

def removeHead (h : Heap w β) (list : LinkedList w) : Recorded w ((Heap w β × LinkedList w) × Addr w) := do
  let head ← getFlink h list.self
  return (← removeEntry h list head, head)

def flushLoop : ℕ → Heap w β → LinkedList w → Recorded w (Heap w β × LinkedList w)
  | 0, h, list => ⟨[], if isListEmpty list then .ok (h, list) else .error .endlessLoop⟩
  | n + 1, h, list =>
    if isListEmpty list then pure (h, list)
    else do
      let ((h, list), head) ← removeHead h list
      let h ← delete h head
      flushLoop n h list

def flush (h : Heap w β) (list : LinkedList w) : Recorded w (Heap w β × LinkedList w) :=
  flushLoop list.noElements.toNat h list

/-! ## The record changes nothing -/

theorem result_bind (x : Recorded w γ) (f : γ → Recorded w δ) :
    (x >>= f).result = x.result >>= fun v => (f v).result := by
  show (x.bind f).result = _
  unfold bind
  cases hx : x.result <;> rfl

theorem result_checkListEntry (h : Heap w β) (entry : Addr w) :
    (checkListEntry h entry).result = Dmsk.checkListEntry h entry := by
  simp only [checkListEntry, Dmsk.checkListEntry, result_bind]
  rfl

theorem result_fastFailOnCorruption (h : Heap w β) (list : LinkedList w) (entry : Addr w) :
    (fastFailOnCorruption h list entry).result = Dmsk.fastFailOnCorruption h list entry := by
  simp only [fastFailOnCorruption, Dmsk.fastFailOnCorruption, result_bind, result_checkListEntry]
  rfl

theorem result_removeEntry (h : Heap w β) (list : LinkedList w) (entry : Addr w) :
    (removeEntry h list entry).result = Dmsk.removeEntry h list entry := by
  simp only [removeEntry, Dmsk.removeEntry, result_bind, result_fastFailOnCorruption]
  rfl

theorem result_removeHead (h : Heap w β) (list : LinkedList w) : (removeHead h list).result = Dmsk.removeHead h list := by
  simp only [removeHead, Dmsk.removeHead, result_bind, result_removeEntry]
  rfl

theorem result_flushLoop (n : ℕ) (h : Heap w β) (list : LinkedList w) :
    (flushLoop n h list).result = Dmsk.flushLoop n h list := by
  induction n generalizing h list with
  | zero => rfl
  | succ n ih =>
    unfold flushLoop Dmsk.flushLoop
    split
    · rfl
    · simp only [result_bind, result_removeHead, ih]
      rfl

theorem result_flush (h : Heap w β) (list : LinkedList w) : (flush h list).result = Dmsk.flush h list :=
  result_flushLoop _ h list

/-! ## Allocated entries only -/

theorem live_of_load {h : Heap w β} {a : Addr w} {f : LinkedListEntry w β → Except Fault γ} {v : γ} (hv : load h a >>= f = .ok v) :
    (h a).isSome := by
  unfold load at hv
  cases ha : h a with
  | none => rw [ha] at hv; cases hv
  | some e => rfl

theorem live_of_store {h h' : Heap w β} {a : Addr w} {f : LinkedListEntry w β → LinkedListEntry w β} (hs : store h a f = .ok h')
    (x : Addr w) : (h' x).isSome = (h x).isSome := by
  obtain ⟨e, he⟩ := Option.isSome_iff_exists.mp (live_of_load hs)
  rw [store_ok he] at hs
  cases hs
  by_cases hx : x = a
  · subst hx
    simp [he]
  · rw [Function.update_of_ne hx]

/-- If the code succeeds, its accesses are links of entries in `live`. -/
def Within (live : Addr w → Bool) (x : Recorded w γ) : Prop :=
  ∀ v, x.result = .ok v → ∀ b ∈ x.accesses, ∃ a, b = .link a ∧ live a = true

section
variable {live : Addr w → Bool} {h : Heap w β} {list : LinkedList w}

theorem within_pure (v : γ) : (pure v : Recorded w γ).Within live := fun _ _ _ hb => nomatch hb

theorem Within.bind {x : Recorded w γ} {f : γ → Recorded w δ} (hx : x.Within live)
    (hf : ∀ v, x.result = .ok v → (f v).Within live) : (x >>= f).Within live := by
  intro d hd
  rw [result_bind] at hd
  show ∀ b ∈ (x.bind f).accesses, _
  unfold Recorded.bind
  cases hv : x.result with
  | error e => rw [hv] at hd; cases hd
  | ok v =>
    rw [hv] at hd
    intro b hb
    rcases List.mem_append.mp hb with hb | hb
    · exact hx v hv b hb
    · exact hf v hv d hd b hb

theorem within_link {a : Addr w} {x : Except Fault γ} (hx : ∀ v, x = .ok v → live a = true) :
    (⟨[.link a], x⟩ : Recorded w γ).Within live := by
  intro v hv b hb
  exact ⟨a, List.mem_singleton.mp hb, hx v hv⟩

variable (hlive : ∀ a, (h a).isSome = live a)
include hlive

theorem within_getFlink (a : Addr w) : (getFlink h a).Within live :=
  within_link fun _ hv => (hlive a).symm.trans (live_of_load hv)

theorem within_getBlink (a : Addr w) : (getBlink h a).Within live :=
  within_link fun _ hv => (hlive a).symm.trans (live_of_load hv)

theorem within_setFlink (a v : Addr w) : (setFlink h a v).Within live :=
  within_link fun _ hv => (hlive a).symm.trans (live_of_load hv)

theorem within_setBlink (a v : Addr w) : (setBlink h a v).Within live :=
  within_link fun _ hv => (hlive a).symm.trans (live_of_load hv)

theorem within_checkListEntry (entry : Addr w) : (checkListEntry h entry).Within live := by
  have hassert : ∀ (p : Prop) [Decidable p], (ntAssert p : Recorded w Unit).Within live := fun _ _ _ _ _ hb => nomatch hb
  refine (within_getFlink hlive _).bind fun n _ => (within_getBlink hlive _).bind fun a _ => (hassert _).bind fun _ _ => ?_
  exact (within_getBlink hlive _).bind fun p _ => (within_getFlink hlive _).bind fun b _ => hassert _

theorem within_fastFailOnCorruption (entry : Addr w) : (fastFailOnCorruption h list entry).Within live := by
  refine (within_checkListEntry hlive _).bind fun _ _ => (within_getFlink hlive _).bind fun first _ => ?_
  refine (within_checkListEntry hlive _).bind fun _ _ => (within_getBlink hlive _).bind fun last _ => ?_
  exact within_checkListEntry hlive _

theorem within_removeEntry (entry : Addr w) : (removeEntry h list entry).Within live := by
  refine (within_fastFailOnCorruption hlive _).bind fun _ _ => (within_getFlink hlive _).bind fun next _ => ?_
  refine (within_getBlink hlive _).bind fun prev _ => (within_setBlink hlive _ _).bind fun h₁ h₁eq => ?_
  have hlive₁ : ∀ a, (h₁ a).isSome = live a := fun a => (live_of_store h₁eq a).trans (hlive a)
  exact (within_setFlink hlive₁ _ _).bind fun _ _ => within_pure _

theorem within_removeHead : (removeHead h list).Within live :=
  (within_getFlink hlive _).bind fun _ _ => (within_removeEntry hlive _).bind fun _ _ => within_pure _

end

/-! ## The passes -/

theorem accesses_bind {x : Recorded w γ} {v : γ} (hx : x.result = .ok v) (f : γ → Recorded w δ) :
    (x >>= f).accesses = x.accesses ++ (f v).accesses := by
  show (x.bind f).accesses = _
  unfold bind
  rw [hx]

/-- The entries that are deleted, in order. -/
def deletions (x : Recorded w γ) : List (Addr w) := x.accesses.filterMap Access.deleted

/-- No entry is touched after its deletion, nor deleted again. -/
def NoneAfterDeletion (x : Recorded w γ) : Prop := x.accesses.Pairwise fun b c => b ≠ .delete c.address

theorem accesses_flushLoop_cons {n : ℕ} {h h₁ : Heap w β} {list list₁ : LinkedList w} {e : Addr w} {zs : List (Addr w)}
    (hl : Holds h list (e :: zs)) (hhead : Dmsk.removeHead h list = .ok ((h₁, list₁), e)) (hlive : (h₁ e).isSome) :
    (flushLoop (n + 1) h list).accesses =
      (removeHead h list).accesses ++ .delete e :: (flushLoop n (Function.update h₁ e none) list₁).accesses := by
  rw [flushLoop, if_neg (by rw [isListEmpty_iff hl]; simp), accesses_bind ((result_removeHead h list).trans hhead),
    accesses_bind (delete_ok hlive)]
  rfl

theorem flushLoop_records {xs : List (Addr w)} {h : Heap w β} {list : LinkedList w} (hl : Holds h list xs) :
    (flushLoop xs.length h list).deletions = xs ∧ (flushLoop xs.length h list).NoneAfterDeletion ∧
      ∀ b ∈ (flushLoop xs.length h list).accesses, (h b.address).isSome := by
  induction xs generalizing h list with
  | nil => exact ⟨rfl, .nil, fun _ hb => nomatch hb⟩
  | cons e xs ih =>
    obtain ⟨-, h₁, list₁, hhead, -, hlive, hl₁, hr⟩ := flush_pass hl
    obtain ⟨hdeleted, hnone, htouched⟩ := ih hl₁
    have hwithin : (removeHead h list).Within fun a => (h a).isSome := within_removeHead fun _ => rfl
    have hlinks := hwithin _ ((result_removeHead h list).trans hhead)
    -- what is touched later is allocated after the deletion
    have hother : ∀ b ∈ (flushLoop xs.length (Function.update h₁ e none) list₁).accesses, b.address ≠ e := by
      intro b hb hbe
      have hsome := htouched b hb
      rw [hbe, Function.update_self] at hsome
      cases hsome
    unfold deletions NoneAfterDeletion
    rw [List.length_cons, accesses_flushLoop_cons hl hhead hlive]
    refine ⟨?_, ?_, ?_⟩
    · have hnil : (removeHead h list).accesses.filterMap Access.deleted = [] := by
        rw [List.filterMap_eq_nil_iff]
        intro b hb
        obtain ⟨a, rfl, -⟩ := hlinks b hb
        rfl
      rw [List.filterMap_append, hnil, List.nil_append, List.filterMap_cons]
      exact congrArg (e :: ·) hdeleted
    · have hlink : ∀ b ∈ (removeHead h list).accesses, ∀ c : Access w, b ≠ .delete c.address := by
        intro b hb c
        obtain ⟨a, rfl, -⟩ := hlinks b hb
        exact fun h => nomatch h
      rw [List.pairwise_append, List.pairwise_cons]
      refine ⟨List.pairwise_of_forall_mem_list fun b hb c _ => hlink b hb c, ⟨?_, hnone⟩, fun b hb c _ => hlink b hb c⟩
      intro c hc heq
      exact hother c hc (Access.delete.inj heq).symm
    · intro b hb
      rcases List.mem_append.mp hb with hb | hb
      · obtain ⟨a, rfl, ha⟩ := hlinks b hb
        exact ha
      rcases List.mem_cons.mp hb with rfl | hb
      · exact (hr.live e).symm.trans hlive
      · have hsome := htouched b hb
        rw [Function.update_of_ne (hother b hb), hr.live] at hsome
        exact hsome

theorem flush_records {xs : List (Addr w)} {h : Heap w β} {list : LinkedList w} (hl : Holds h list xs) :
    (flush h list).deletions = xs ∧ (flush h list).NoneAfterDeletion := by
  unfold flush
  rw [hl.count]
  exact ⟨(flushLoop_records hl).1, (flushLoop_records hl).2.1⟩

theorem flush_empty {h : Heap w β} {list : LinkedList w} (hl : Holds h list []) : flush h list = ⟨[], .ok (h, list)⟩ := by
  unfold flush
  rw [hl.count, List.length_nil, flushLoop, if_pos ((isListEmpty_iff hl).mpr rfl)]

end Recorded

/-! ## Flushing a list in use -/

variable [DecidableEq ι]

/-- After a flush: an empty list that entries can be inserted into, in a heap
that has lost `xs` and is otherwise as it was, but for the links of the head. -/
structure Flushed (h h' : Heap w β) (list list' : LinkedList w) (xs : List (Addr w)) : Prop where
  self : list'.self = list.self
  empty : Shows h' list' []
  noElements : list'.noElements = 0
  freed : Freed h h' list.self xs
  insertTail : ∀ e, Constructed h' e → e ≠ list'.self →
    ∃ h'' list'', Dmsk.insertTail h' list' e = .ok (h'', list'') ∧ Shows h'' list'' [e]
  insertHead : ∀ e, Constructed h' e → e ≠ list'.self →
    ∃ h'' list'', Dmsk.insertHead h' list' e = .ok (h'', list'') ∧ Shows h'' list'' [e]

omit [DecidableEq ι] in
theorem Holds.flushed {h h' : Heap w β} {list list' : LinkedList w} {xs : List (Addr w)} (hl : Holds h' list' [])
    (hs : list'.self = list.self) (hf : Freed h h' list.self xs) : Flushed h h' list list' xs where
  self := hs
  empty := hl.shows
  noElements := BitVec.eq_of_toNat_eq (hl.count.trans (by simp))
  freed := hf
  insertTail e hc he := by
    obtain ⟨h'', list'', hok, -, hl'', -⟩ := insertTail_ok hl hc (by simpa using he)
    exact ⟨h'', list'', hok, hl''.shows⟩
  insertHead e hc he := by
    obtain ⟨h'', list'', hok, -, hl'', -⟩ := insertHead_ok hl hc (by simpa using he)
    exact ⟨h'', list'', hok, hl''.shows⟩

/-- **A flush** of a list that a valid run has left deletes the entries of the
list from its head to its tail, each once, touches none of them afterwards, and
leaves an empty list. A second flush touches nothing. -/
theorem flush_consumes {W : World w β ι} (h0 : W.Init) (os : List (ListOp w β ι)) (hv : Seqs.spec.Admits W.initial os) (i : ι) :
    ∃ W', execAll World.step W os = .ok (W', Seqs.spec.outs W.initial os) ∧
      Shows W'.heap (W'.lists i) ((Seqs.spec.after W.initial os).seq i) ∧
      ∃ h' list', (Recorded.flush W'.heap (W'.lists i)).result = .ok (h', list') ∧
        (Recorded.flush W'.heap (W'.lists i)).deletions = (Seqs.spec.after W.initial os).seq i ∧
        (Recorded.flush W'.heap (W'.lists i)).NoneAfterDeletion ∧
        Flushed W'.heap h' (W'.lists i) list' ((Seqs.spec.after W.initial os).seq i) ∧
        Recorded.flush h' list' = ⟨[], .ok (h', list')⟩ := by
  obtain ⟨W', he, hR⟩ := step_refines.run os h0.represents hv
  have hl := hR.holds i
  obtain ⟨h', list', hflush, hs, hempty, hfreed⟩ := flush_ok hl
  obtain ⟨hdeleted, hnone⟩ := Recorded.flush_records hl
  exact ⟨W', he, hl.shows, h', list', (Recorded.result_flush _ _).trans hflush, hdeleted, hnone, hempty.flushed hs hfreed,
    Recorded.flush_empty hempty⟩

/-- The list `true` of `twoLists` with three entries in it. -/
def threeEntriesRun : List (ListOp 8 ℕ Bool) :=
  [.construct 10 0, .construct 11 1, .construct 12 2, .insertTail true 10, .insertHead true 11, .insertTail true 12]

theorem flush_consumes_three : ∃ W', execAll World.step twoLists threeEntriesRun = .ok (W', [none, none, none, none, none, none]) ∧
    (Recorded.flush W'.heap (W'.lists true)).deletions = [11, 10, 12] ∧
    (Recorded.flush W'.heap (W'.lists true)).NoneAfterDeletion := by
  have hv : Seqs.spec.Admits twoLists.initial threeEntriesRun := by decide
  obtain ⟨W', he, -, h', list', -, hdeleted, hnone, -⟩ := flush_consumes twoLists_init threeEntriesRun hv true
  exact ⟨W', he, hdeleted, hnone⟩

end Dmsk
