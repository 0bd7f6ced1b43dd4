import Dmsk.Locked
import Dmsk.ProcessCollectorRuns

/-!
# The process collector under its lock

`InsertProcess`, `TerminateProcess` and `GetProcess` once more, now as threads
run them: every read and write of a link, of the counter and of a record is an
access of its own, and the two guards of `lock` are the only order there is.
Run without interruption, the accesses are the procedures of before.

`allocate` is the pool that `operator new` takes memory from: it returns what is
not in use, or nothing.
-/

namespace Dmsk

namespace ProcessCollector.Locked

variable {w : ℕ} {ρ : Type}

inductive Call (w : ℕ)
  | insertProcess (pid : Handle w)
  | terminateProcess (pid : Handle w)
  | getProcess (pid : Handle w)
deriving DecidableEq, Repr

/-- A procedure of the collector, access by access. -/
abbrev Code (w : ℕ) (ρ : Type) := Prog (ProcessCollector w) Fault ρ

def getFlink (a : Addr w) : Code w (Addr w) := .read fun c => Dmsk.getFlink c.heap a

def getBlink (a : Addr w) : Code w (Addr w) := .read fun c => Dmsk.getBlink c.heap a

def setFlink (a v : Addr w) : Code w Unit := .write fun c => return { c with heap := ← Dmsk.setFlink c.heap a v }

def setBlink (a v : Addr w) : Code w Unit := .write fun c => return { c with heap := ← Dmsk.setBlink c.heap a v }

/-- The address of the head, which is that of `activeProcesses`. -/
def head : Code w (Addr w) := .read fun c => .ok c.activeProcesses.self

def getNoElements : Code w (BitVec w) := .read fun c => .ok c.activeProcesses.noElements

def setNoElements (n : BitVec w) : Code w Unit :=
  .write fun c => .ok { c with activeProcesses := { c.activeProcesses with noElements := n } }

def ntAssert (p : Prop) [Decidable p] : Code w Unit := .ofExcept (Dmsk.ntAssert p)

def checkListEntry (entry : Addr w) : Code w Unit := do
  ntAssert ((← getBlink (← getFlink entry)) = entry)
  ntAssert ((← getFlink (← getBlink entry)) = entry)

def fastFailOnCorruption (entry : Addr w) : Code w Unit := do
  checkListEntry entry
  checkListEntry (← getFlink (← head))
  checkListEntry (← getBlink (← head))

def insertTail (entry : Addr w) : Code w Unit := do
  fastFailOnCorruption entry
  setBlink entry (← getBlink (← head))
  setFlink entry (← head)
  setFlink (← getBlink (← head)) entry
  setBlink (← head) entry
  setNoElements ((← getNoElements) + 1)

def removeEntry (entry : Addr w) : Code w Unit := do
  fastFailOnCorruption entry
  let next ← getFlink entry
  let prev ← getBlink entry
  setBlink next prev
  setFlink prev next
  setNoElements ((← getNoElements) - 1)

/-- `new Process(Pid)`. -/
def newProcess (allocate : Heap w (Process w) → Option (Addr w)) (pid : Handle w) : Code w (Option (Addr w)) :=
  .access (fun c => match allocate c.heap with
    | some a => .ok { c with heap := construct c.heap a (some ⟨pid, false⟩) }
    | none => .ok c) fun c => .ret (allocate c.heap)

def deleteProcess (process : Addr w) : Code w Unit := .write fun c => return { c with heap := ← delete c.heap process }

def getPid (process : Addr w) : Code w (Handle w) := .read fun c => return (← getObject c.heap process).pid

/-- The loop of `FindProcessUnsafe`, from `it`. -/
def findFrom (pid : Handle w) : ℕ → Addr w → Code w (Option (Addr w))
  | 0, _ => .fail .endlessLoop
  | n + 1, it => do
    if it = (← head) then return none
    else if (← getPid it) = pid then return some it
    else findFrom pid n (← getFlink it)

def findProcessUnsafe (pid : Handle w) : Code w (Option (Addr w)) := do
  findFrom pid (2 ^ w) (← getFlink (← head))

variable (allocate : Heap w (Process w) → Option (Addr w))

def code : Call w → Code w (Option (Addr w))
  | .insertProcess pid => do
    match ← newProcess allocate pid with
    | some process => insertTail process
    | none => pure ()
    return none
  | .terminateProcess pid => do
    match ← findProcessUnsafe pid with
    | some process =>
      removeEntry process
      deleteProcess process
    | none => pure ()
    return none
  | .getProcess pid => findProcessUnsafe pid

/-- `GetProcess` holds a `SharedLockguard`, the others an `ExclusiveLockguard`. -/
def shares : Call w → Bool
  | .getProcess _ => true
  | _ => false

/-! ## Without interruption -/

section
open Prog

theorem run_ntAssert (p : Prop) [Decidable p] (c : ProcessCollector w) :
    (ntAssert p : Code w Unit).run c = Dmsk.ntAssert p >>= fun _ => .ok (c, ()) := by
  unfold ntAssert Dmsk.ntAssert
  split <;> rfl

theorem run_checkListEntry (entry : Addr w) (c : ProcessCollector w) :
    (checkListEntry entry).run c = Dmsk.checkListEntry c.heap entry >>= fun _ => .ok (c, ()) := by
  simp only [checkListEntry, Dmsk.checkListEntry, getFlink, getBlink, run_bind, run_read, run_ntAssert, bind_assoc, ok_bind]

theorem run_fastFailOnCorruption (entry : Addr w) (c : ProcessCollector w) :
    (fastFailOnCorruption entry).run c =
      Dmsk.fastFailOnCorruption c.heap c.activeProcesses entry >>= fun _ => .ok (c, ()) := by
  simp only [fastFailOnCorruption, Dmsk.fastFailOnCorruption, getFlink, getBlink, head, run_bind, run_read,
    run_checkListEntry, bind_assoc, ok_bind]

theorem run_insertTail (entry : Addr w) (c : ProcessCollector w) :
    (insertTail entry).run c = Dmsk.insertTail c.heap c.activeProcesses entry >>= fun r => .ok (⟨r.1, r.2⟩, ()) := by
  simp only [insertTail, Dmsk.insertTail, getBlink, head, setFlink, setBlink, getNoElements, setNoElements,
    run_bind, run_read, run_write, run_fastFailOnCorruption, bind_assoc, ok_bind, pure_bind]

theorem run_removeEntry (entry : Addr w) (c : ProcessCollector w) :
    (removeEntry entry).run c = Dmsk.removeEntry c.heap c.activeProcesses entry >>= fun r => .ok (⟨r.1, r.2⟩, ()) := by
  simp only [removeEntry, Dmsk.removeEntry, getFlink, getBlink, setFlink, setBlink, getNoElements, setNoElements,
    run_bind, run_read, run_write, run_fastFailOnCorruption, bind_assoc, ok_bind, pure_bind]

theorem run_findFrom (pid : Handle w) (c : ProcessCollector w) : ∀ (n : ℕ) (it : Addr w),
    (findFrom pid n it).run c = (iterateFrom c.heap c.activeProcesses (fun it _ => do
      let process ← getObject c.heap it
      return if process.pid = pid then .done (some it) else .yield none) n it none) >>= fun r => .ok (c, r)
  | 0, _ => rfl
  | n + 1, it => by
    simp only [findFrom, iterateFrom, head, getPid, run_bind, run_read, ok_bind]
    split
    · rfl
    · simp only [run_bind, run_read, bind_assoc]
      cases getObject c.heap it with
      | error e => rfl
      | ok o =>
        simp only [ok_bind, pure_bind]
        split
        · rfl
        · simp only [getFlink, run_bind, run_read, bind_assoc]
          cases Dmsk.getFlink c.heap it with
          | error e => rfl
          | ok a =>
            simp only [ok_bind]
            exact run_findFrom pid c n a

theorem run_findProcessUnsafe (pid : Handle w) (c : ProcessCollector w) :
    (findProcessUnsafe pid).run c = c.findProcessUnsafe pid >>= fun r => .ok (c, r) := by
  simp only [findProcessUnsafe, ProcessCollector.findProcessUnsafe, iterate, head, getFlink, run_bind, run_read,
    run_findFrom, bind_assoc, ok_bind]

theorem run_newProcess (pid : Handle w) (c : ProcessCollector w) :
    (newProcess allocate pid).run c = match allocate c.heap with
      | some a => .ok ({ c with heap := construct c.heap a (some ⟨pid, false⟩) }, some a)
      | none => .ok (c, none) := by
  simp only [newProcess, run]
  cases allocate c.heap <;> rfl

/-- The request that a call makes of a collector. -/
def Call.request (c : ProcessCollector w) : Call w → Request w
  | .insertProcess pid => .insertProcess (allocate c.heap) pid
  | .terminateProcess pid => .terminateProcess pid
  | .getProcess pid => .getProcess pid

/-- Without interruption, a call does what the procedure of before does. -/
theorem run_code (c : ProcessCollector w) (a : Call w) : (code allocate a).run c = c.step (a.request allocate c) := by
  cases a with
  | insertProcess pid =>
    simp only [code, Call.request, step, insertProcess, run_bind, run_newProcess]
    cases allocate c.heap with
    | none => rfl
    | some a =>
      simp only [ok_bind, run_bind, run_insertTail, run_pure, bind_assoc, pure_bind]
      rfl
  | terminateProcess pid =>
    simp only [code, Call.request, step, terminateProcess, run_bind, run_findProcessUnsafe, bind_assoc, ok_bind]
    cases c.findProcessUnsafe pid with
    | error e => rfl
    | ok r =>
      cases r with
      | none => rfl
      | some process =>
        simp only [ok_bind, run_bind, run_removeEntry, deleteProcess, run_write, run_pure, bind_assoc, pure_bind]
        rfl
  | getProcess pid =>
    simp only [code, Call.request, step, getProcess, run_findProcessUnsafe]
    cases c.findProcessUnsafe pid <;> rfl

end

/-! ## In the order of the lock -/

theorem readOnly_findFrom (pid : Handle w) : ∀ (n : ℕ) (it : Addr w), (findFrom pid n it).ReadOnly
  | 0, _ => trivial
  | n + 1, it => by
    refine (Prog.readOnly_read _).bind fun self => ?_
    split
    · trivial
    · refine (Prog.readOnly_read _).bind fun process => ?_
      split
      · trivial
      · exact (Prog.readOnly_read _).bind fun a => readOnly_findFrom pid n a

def procedures : Procedures (Call w) (ProcessCollector w) Fault (Option (Addr w)) where
  code := code allocate
  shares := shares
  readOnly a ha := by
    cases a with
    | getProcess pid =>
      refine (Prog.readOnly_read _).bind fun self => ?_
      exact (Prog.readOnly_read _).bind fun it => readOnly_findFrom pid _ it
    | insertProcess pid => cases ha
    | terminateProcess pid => cases ha

/-- The call that a request was. -/
def callOf : Request w → Option (Call w)
  | .insertProcess _ pid => some (.insertProcess pid)
  | .terminateProcess pid => some (.terminateProcess pid)
  | .getProcess pid => some (.getProcess pid)
  | .setMainThreadCreated _ _ => none

theorem callOf_request (c : ProcessCollector w) (a : Call w) : callOf (a.request allocate c) = some a := by
  cases a <;> rfl

variable {allocate}

theorem valid_request (hfree : ∀ h a, allocate h = some a → h a = none) {c : ProcessCollector w} {A : Collection w}
    (hR : RepresentsCollection c A) (a : Call w) : Collection.spec.valid A (a.request allocate c) := by
  cases a with
  | insertProcess pid =>
    intro b hb
    rw [hR.live, hfree c.heap b hb]
    rfl
  | terminateProcess pid => trivial
  | getProcess pid => trivial

theorem serial_collection (hfree : ∀ h a, allocate h = some a → h a = none) :
    ∀ (as : List (Call w)) {c d : ProcessCollector w} {A : Collection w} {os : List (Option (Addr w))},
      RepresentsCollection c A → (procedures allocate).serial c as = .ok (d, os) →
      ∃ rs, rs.map callOf = as.map some ∧ Collection.spec.Admits A rs ∧ Collection.spec.outs A rs = os ∧
        RepresentsCollection d (Collection.spec.after A rs)
  | [], _, _, _, _, hR, h => by
    cases h
    exact ⟨[], rfl, trivial, rfl, hR⟩
  | a :: as, c, d, A, os, hR, h => by
    have hv := valid_request hfree hR a
    obtain ⟨c', he, hR'⟩ := hR.step _ hv
    have hrun : (code allocate a).run c = .ok (c', _) := (run_code allocate c a).trans he
    simp only [Procedures.serial, execAll, procedures, hrun, ok_bind] at h
    cases hs : (procedures allocate).serial c' as with
    | error e =>
      simp only [Procedures.serial, procedures] at hs
      rw [hs] at h
      cases h
    | ok q =>
      obtain ⟨rs, hcalls, hadm, houts, hafter⟩ := serial_collection hfree as hR' hs
      simp only [Procedures.serial, procedures] at hs
      rw [hs] at h
      cases h
      refine ⟨a.request allocate c :: rs, ?_, ⟨hv, hadm⟩, ?_, hafter⟩
      · rw [List.map_cons, List.map_cons, hcalls, callOf_request]
      · rw [← houts]
        rfl

/-- **The collector under its lock.** Threads call the collector as they like,
and their accesses are interleaved in any order. Nothing faults, and as long as
somebody is not done, somebody can go on. The calls answer what a collection
answers that is given them one after the other, in the order in which they got
the lock, and while nobody writes the collector holds the records of that
collection. -/
theorem collector_serializable {T : Type} [DecidableEq T] (hfree : ∀ h a, allocate h = some a → h a = none)
    {c : ProcessCollector w} (h0 : Records c []) (s : Procedures.State T (Call w) (ProcessCollector w) Fault (Option (Addr w)))
    (hr : ((procedures allocate).system T c).Reachable s) :
    s.fault = none ∧
    (∀ t, s.pc t ≠ .idle → ∃ act, (∀ u a, act ≠ .call u a) ∧ ((procedures allocate).step s act).isSome) ∧
    ∃ rs, rs.map callOf = s.calls.map (fun q => some q.2) ∧ Collection.spec.Admits (Collection.initial c) rs ∧
      (∀ q ∈ s.answers, (Collection.spec.outs (Collection.initial c) rs)[q.1]? = some q.2) ∧
      (s.exclusive = none → RepresentsCollection s.data (Collection.spec.after (Collection.initial c) rs)) := by
  have hI : (procedures allocate).Sound fun c => ∃ A : Collection w, RepresentsCollection c A := by
    intro a d ⟨A, hR⟩
    obtain ⟨d', he, hR'⟩ := hR.step _ (valid_request hfree hR a)
    exact ⟨d', _, (run_code allocate d a).trans he, _, hR'⟩
  obtain ⟨hg, d, os, hs, -⟩ := Procedures.serial_reachable hI ⟨_, h0.represents⟩ hr
  obtain ⟨rs, hcalls, hadm, houts, hafter⟩ := serial_collection hfree _ h0.represents hs.run
  refine ⟨hs.fault, fun t ht => Procedures.goes_on hg hs.fault ht, rs, ?_, hadm, ?_, ?_⟩
  · rw [hcalls, List.map_map]
    rfl
  · rw [houts]
    exact hs.answers
  · intro he
    rw [hs.data he]
    exact hafter

/-- A pool of two records. -/
def twoFree (h : Heap 8 (Process 8)) : Option (Addr 8) := [10, 11].find? fun a => (h a).isNone

theorem twoFree_free (h : Heap 8 (Process 8)) (a : Addr 8) (ha : twoFree h = some a) : h a = none := by
  simpa using List.find?_some ha

/-- One thread inserts a record, then two look for one, access by access in turns. -/
def turns : List (Procedures.Act Bool (Call 8)) :=
  List.flatten [[.call false (.insertProcess 5), .acquire false], .replicate 29 (.access false),
    [.call true (.getProcess 5), .release false, .acquire true, .call false (.getProcess 6), .acquire false],
    (List.replicate 3 [.access true, .access false]).flatten]

def turnsEnd : Procedures.State Bool (Call 8) (ProcessCollector 8) Fault (Option (Addr 8)) :=
  (((procedures twoFree).system Bool oneHead).exec (fun _ _ => True) (Procedures.start oneHead) turns).get
    (by decide +kernel)

theorem collector_serializable_turns : turnsEnd.fault = none ∧
    ∃ rs, rs.map callOf = [some (.insertProcess 5), some (.getProcess 5), some (.getProcess 6)] ∧
      (Collection.spec.outs (Collection.initial oneHead) rs)[0]? = some none ∧
      RepresentsCollection turnsEnd.data (Collection.spec.after (Collection.initial oneHead) rs) := by
  have h0 : Records oneHead [] := ⟨⟨isRing_nil rfl rfl, rfl⟩, fun _ h => by cases h⟩
  obtain ⟨hf, -, rs, hcalls, -, houts, hdata⟩ := collector_serializable twoFree_free h0 turnsEnd
    (System.reach_of_exec rfl turns (Option.some_get _).symm)
  have hc : turnsEnd.calls.map (fun q => some q.2) =
      [some (.insertProcess 5), some (.getProcess 5), some (.getProcess 6)] := by decide +kernel
  have ha : ((0, none) : ℕ × Option (Addr 8)) ∈ turnsEnd.answers := by decide +kernel
  exact ⟨hf, rs, hcalls.trans hc, houts _ ha, hdata (by decide +kernel)⟩

end ProcessCollector.Locked

end Dmsk
