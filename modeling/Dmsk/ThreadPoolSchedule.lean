import Dmsk.ThreadPoolSound
import Mathlib.Data.List.Perm.Basic

/-!
# Callbacks that commute

Workers run the items in some order of their own. When the callbacks commute
the order does not matter, so the state they leave depends neither on the
number of workers nor on the schedule.
-/

namespace Dmsk.ThreadPool

variable {n : Nat} {P κ σ : Type} {exec : κ → σ → σ} {shared : σ}

def Commute (exec : κ → σ → σ) (cs : List κ) : Prop :=
  cs.Pairwise fun a b => ∀ st, exec a (exec b st) = exec b (exec a st)

def runInOrder (exec : κ → σ → σ) (cs : List κ) (shared : σ) : σ := cs.foldl (fun st c => exec c st) shared

def callbacks (s : Pool n P κ σ) : List κ := s.accepted.map (·.callback)

theorem Commute.swap {cs : List κ} (h : Commute exec cs) {a b : κ} (ha : a ∈ cs) (hb : b ∈ cs) (st : σ) :
    exec a (exec b st) = exec b (exec a st) := by
  have : Std.Symm fun a b : κ => ∀ st, exec a (exec b st) = exec b (exec a st) := ⟨fun _ _ h st => (h st).symm⟩
  exact List.Pairwise.forall_of_forall (fun _ _ _ => rfl) h ha hb st

/-- When `Shutdown` has returned, the callbacks have been run in some order, so
in any order, that of `EnqueueItem` among them. -/
theorem Inv.shared_of_returned {s : Pool n P κ σ} (h : Inv exec shared s) (hn : 0 < n) (hret : s.shutdownPc = .returned)
    (hc : Commute exec (callbacks s)) : s.shared = runInOrder exec (callbacks s) shared := by
  have hperm : (s.executed.map (·.callback)).Perm (callbacks s) := (h.executed_perm hn hret).map _
  have hrun : s.shared = (s.executed.map (·.callback)).foldl (fun st c => exec c st) shared := by
    rw [h.items.shared_eq, List.foldl_map]
  rw [hrun]
  apply hperm.foldl_eq'
  intro a ha b hb st
  exact hc.swap (hperm.mem_iff.mp hb) (hperm.mem_iff.mp ha) st

/-- **Schedule independence.** Whatever the workers, the producers and the
schedule, a pool that has run the callbacks `cs` leaves the state that running
them in the order of `EnqueueItem` leaves, and any two such pools leave the same. -/
theorem schedule_independent (exec : κ → σ → σ) (shared : σ) (cs : List κ) (hc : Commute exec cs) :
    (∀ (n : Nat) (P : Type) [DecidableEq P] (s : Pool n P κ σ), 0 < n → (pool n P exec shared).Reachable s →
      s.shutdownPc = .returned → callbacks s = cs → s.shared = runInOrder exec cs shared) ∧
    ∀ (n m : Nat) (P Q : Type) [DecidableEq P] [DecidableEq Q] (s : Pool n P κ σ) (t : Pool m Q κ σ), 0 < n → 0 < m →
      (pool n P exec shared).Reachable s → (pool m Q exec shared).Reachable t →
      s.shutdownPc = .returned → t.shutdownPc = .returned → callbacks s = cs → callbacks t = cs →
      s.shared = t.shared := by
  have hrun : ∀ (n : Nat) (P : Type) [DecidableEq P] (s : Pool n P κ σ), 0 < n → (pool n P exec shared).Reachable s →
      s.shutdownPc = .returned → callbacks s = cs → s.shared = runInOrder exec cs shared := by
    intro n P _ s hn hr hret hs
    have h := (inv_reachable hr).shared_of_returned hn hret (by rwa [hs])
    rwa [hs] at h
  refine ⟨hrun, ?_⟩
  intro n m P Q _ _ s t hn hm hs ht hrs hrt hcs hct
  rw [hrun n P s hn hs hrs hcs, hrun m Q t hm ht hrt hct]

def square (i : Nat) (v : List Nat) : List Nat := v.modify i fun x => x * x

theorem square_comm {i j : Nat} (hij : i ≠ j) (v : List Nat) : square i (square j v) = square j (square i v) := by
  apply List.ext_getElem?
  intro k
  unfold square
  simp only [List.getElem?_modify]
  by_cases hi : i = k
  · have hj : j ≠ k := fun h => hij (hi.trans h.symm)
    simp [hi, hj]
  · simp [hi]

def enqueues (n : Nat) (c : Nat) : List (Act n Unit Nat) :=
  .call (.producer ()) c :: List.replicate 5 (.enqueue (.producer ()))

/-- One worker takes both items. -/
def oneWorkerRun : List (Act 1 Unit Nat) :=
  List.flatten [enqueues 1 0, enqueues 1 1, .replicate 12 (.work ⟨0, Nat.one_pos⟩), [.shutdown, .shutdown],
    .replicate 4 (.work ⟨0, Nat.one_pos⟩), [.shutdown, .shutdown]]

/-- The first worker holds the first item while the second runs the other one. -/
def twoWorkersRun : List (Act 2 Unit Nat) :=
  List.flatten [enqueues 2 0, enqueues 2 1, .replicate 5 (.work ⟨0, Nat.two_pos⟩), .replicate 6 (.work ⟨1, Nat.one_lt_two⟩),
    [.work ⟨0, Nat.two_pos⟩], [.shutdown, .shutdown], .replicate 4 (.work ⟨0, Nat.two_pos⟩),
    .replicate 4 (.work ⟨1, Nat.one_lt_two⟩), [.shutdown, .shutdown, .shutdown]]

def oneWorkerEnd : Pool 1 Unit Nat (List Nat) :=
  ((pool 1 Unit square [3, 4]).exec (fun _ _ => True) (start [3, 4]) oneWorkerRun).get (by decide)

def twoWorkersEnd : Pool 2 Unit Nat (List Nat) :=
  ((pool 2 Unit square [3, 4]).exec (fun _ _ => True) (start [3, 4]) twoWorkersRun).get (by decide)

theorem schedule_independent_squares : oneWorkerEnd.executed ≠ twoWorkersEnd.executed ∧
    oneWorkerEnd.shared = [9, 16] ∧ oneWorkerEnd.shared = twoWorkersEnd.shared := by
  have hc : Commute square [0, 1] := by
    unfold Commute
    simpa using square_comm (show (0 : Nat) ≠ 1 by decide)
  have hs : (pool 1 Unit square [3, 4]).Reachable oneWorkerEnd :=
    System.reach_of_exec rfl oneWorkerRun (Option.some_get _).symm
  have ht : (pool 2 Unit square [3, 4]).Reachable twoWorkersEnd :=
    System.reach_of_exec rfl twoWorkersRun (Option.some_get _).symm
  obtain ⟨hrun, hsame⟩ := schedule_independent square [3, 4] [0, 1] hc
  refine ⟨by decide, ?_, ?_⟩
  · exact hrun 1 Unit oneWorkerEnd (by decide) hs (by decide) (by decide)
  · exact hsame 1 2 Unit Unit oneWorkerEnd twoWorkersEnd (by decide) (by decide) hs ht (by decide) (by decide) (by decide)
      (by decide)

end Dmsk.ThreadPool
