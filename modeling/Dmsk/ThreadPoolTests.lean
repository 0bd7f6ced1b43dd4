import Mathlib.Algebra.Group.Nat.Defs
import Mathlib.Algebra.Order.Ring.Int
import Dmsk.ThreadPoolClient

/-!
# The tests that square a vector and count

`RunTestSquare` cuts a vector into ranges (`PartitionVector`), gives each to the
pool as a context of `SquareElements`, and compares once `Shutdown` has returned.
`RunTestFinalizeWorkAfterShutdown` lets the workers increment one counter. The
elements are `int`: a product that does not fit has no value, and neither has a
callback that reads past the end, where `at` throws.
-/

namespace Dmsk.ThreadPool

structure MockThreadPoolSquareContext where
  Start : Nat
  End : Nat
  deriving DecidableEq, Repr

/-- The loop of `PartitionVector` over `size_t` of `w` bits: the contexts it adds and the `i` it ends with. -/
def partitionLoop (w size Limit : Nat) : Nat → Nat → Option (List MockThreadPoolSquareContext × Nat)
  | 0, _ => none
  | fuel + 1, i =>
    if (i + Limit) % 2 ^ w ≤ size then
      (partitionLoop w size Limit fuel ((i + Limit) % 2 ^ w)).map fun r => (⟨i, (i + Limit) % 2 ^ w⟩ :: r.1, r.2)
    else some ([], i)

def partitionVector (w fuel size Limit : Nat) : Option (List MockThreadPoolSquareContext) :=
  (partitionLoop w size Limit fuel 0).map fun r => if r.2 ≠ size then r.1 ++ [⟨r.2, size⟩] else r.1

def mulInt (a b : Int) : Option Int := if -2 ^ 31 ≤ a * b ∧ a * b < 2 ^ 31 then some (a * b) else none

/-- `auto& element = Elements->at(i); element *= element;` -/
def squareAt (v : List Int) (i : Nat) : Option (List Int) :=
  v[i]?.bind fun element => (mulInt element element).map (v.set i)

def MockThreadPoolSquareContext.indices (c : MockThreadPoolSquareContext) : List Nat := List.range' c.Start (c.End - c.Start)

/-- `SquareElements`: `none` when it ends in an exception or an overflow. -/
def squareElements (c : MockThreadPoolSquareContext) (Elements : Option (List Int)) : Option (List Int) :=
  Elements.bind (c.indices.foldlM squareAt)

/-- The comparisons at the end of `RunTestSquare`. -/
def assertSquares (initialVector resultVector : List Int) : Bool :=
  initialVector.length == resultVector.length && (List.range initialVector.length).all fun i =>
    match initialVector[i]?, resultVector[i]? with
    | some x, some y => mulInt x x == some y
    | _, _ => false

/-! ## The partition -/

/-- The ranges follow each other from `start` to `stop`, and none is empty. -/
def Partition (stop : Nat) : Nat → List MockThreadPoolSquareContext → Prop
  | start, [] => start = stop
  | start, c :: cs => c.Start = start ∧ start < c.End ∧ Partition stop c.End cs

def chunks (limit : Nat) : Nat → Nat → List MockThreadPoolSquareContext
  | _, 0 => []
  | i, k + 1 => ⟨i, i + limit⟩ :: chunks limit (i + limit) k

section
variable {w size limit : Nat}

/-- The sums of the loop do not wrap, since a vector fits in the address space. -/
theorem partitionLoop_eq (hl : 0 < limit) (hlw : limit < 2 ^ w) (hs : 4 * size < 2 ^ w) :
    ∀ fuel i, i ≤ size → (i = 0 ∨ limit ≤ size) → partitionLoop w size limit fuel i =
      if (size - i) / limit < fuel then some (chunks limit i ((size - i) / limit), i + (size - i) / limit * limit) else none
  | 0, _, _, _ => by simp [partitionLoop]
  | fuel + 1, i, hi, hz => by
    have hmod : (i + limit) % 2 ^ w = i + limit := Nat.mod_eq_of_lt (by omega)
    rw [partitionLoop, hmod]
    split
    · rename_i hle
      have hdiv : (size - i) / limit = (size - (i + limit)) / limit + 1 := by
        rw [← Nat.add_div_right _ hl]
        congr 1
        omega
      rw [partitionLoop_eq hl hlw hs fuel (i + limit) hle (.inr (by omega)), hdiv]
      generalize (size - (i + limit)) / limit = q
      simp only [Nat.add_lt_add_iff_right]
      split
      · simp only [Option.map_some, chunks, Nat.succ_mul]
        congr 2
        omega
      · rfl
    · rename_i hgt
      have hdiv : (size - i) / limit = 0 := Nat.div_eq_of_lt (by omega)
      simp [hdiv, chunks]

theorem partitionLoop_zero (hs : size < 2 ^ w) : ∀ fuel i, i ≤ size → partitionLoop w size 0 fuel i = none
  | 0, _, _ => rfl
  | fuel + 1, i, hi => by
    have hmod : (i + 0) % 2 ^ w = i := Nat.mod_eq_of_lt (by omega)
    rw [partitionLoop, hmod, if_pos hi, partitionLoop_zero hs fuel i hi]
    rfl

/-- The contexts `PartitionVector` ends with. -/
def contexts (size limit : Nat) : List MockThreadPoolSquareContext :=
  chunks limit 0 (size / limit) ++ if size / limit * limit ≠ size then [⟨size / limit * limit, size⟩] else []

theorem partitionVector_eq (hl : 0 < limit) (hlw : limit < 2 ^ w) (hs : 4 * size < 2 ^ w) (fuel : Nat) :
    partitionVector w fuel size limit = if size / limit < fuel then some (contexts size limit) else none := by
  rw [partitionVector, partitionLoop_eq hl hlw hs fuel 0 (Nat.zero_le _) (.inl rfl)]
  simp only [Nat.sub_zero, Nat.zero_add]
  split
  · simp only [Option.map_some, contexts]
    split <;> simp
  · rfl

theorem length_chunks : ∀ i k, (chunks limit i k).length = k
  | _, 0 => rfl
  | i, k + 1 => by simp [chunks, length_chunks (i + limit) k]

theorem chunks_exact : ∀ i k, ∀ c ∈ chunks limit i k, c.End = c.Start + limit
  | _, 0, c, h => by cases h
  | i, k + 1, c, h => by
    rcases List.mem_cons.mp h with rfl | h
    · rfl
    · exact chunks_exact (i + limit) k c h

theorem partition_chunks {stop : Nat} {rest : List MockThreadPoolSquareContext} (hl : 0 < limit) :
    ∀ i k, Partition stop (i + k * limit) rest → Partition stop i (chunks limit i k ++ rest)
  | i, 0, h => by simpa [chunks] using h
  | i, k + 1, h => by
    refine ⟨rfl, Nat.lt_add_of_pos_right hl, partition_chunks hl (i + limit) k ?_⟩
    rwa [Nat.succ_mul, Nat.add_comm _ limit, ← Nat.add_assoc] at h

theorem partition_contexts (hl : 0 < limit) : Partition size 0 (contexts size limit) := by
  have hle := Nat.div_mul_le_self size limit
  apply partition_chunks hl
  rw [Nat.zero_add]
  split
  · exact ⟨rfl, Nat.lt_of_le_of_ne hle ‹_›, rfl⟩
  · exact not_not.mp ‹_›

end

section
variable {stop : Nat}

theorem partition_indices : ∀ {start cs}, Partition stop start cs →
    start ≤ stop ∧ cs.flatMap (·.indices) = List.range' start (stop - start)
  | _, [], h => by
    cases h
    simp
  | _, c :: cs, ⟨rfl, hlt, h⟩ => by
    obtain ⟨hle, hcs⟩ := partition_indices h
    refine ⟨by omega, ?_⟩
    rw [List.flatMap_cons, hcs, MockThreadPoolSquareContext.indices]
    have happend : List.range' c.Start (c.End - c.Start) 1 ++ List.range' (c.Start + 1 * (c.End - c.Start)) (stop - c.End) 1 =
        List.range' c.Start (c.End - c.Start + (stop - c.End)) 1 := List.range'_append
    rw [show c.Start + 1 * (c.End - c.Start) = c.End by omega] at happend
    rw [happend]
    congr 1
    omega

theorem partition_start_le : ∀ {start cs}, Partition stop start cs → ∀ c ∈ cs, start ≤ c.Start
  | _, [], _, c, hc => by cases hc
  | _, _ :: _, ⟨rfl, hlt, h⟩, c, hc => by
    rcases List.mem_cons.mp hc with rfl | hc
    · exact Nat.le_refl _
    · have := partition_start_le h c hc
      omega

theorem partition_pairwise : ∀ {start cs}, Partition stop start cs → cs.Pairwise fun a b => a.End ≤ b.Start
  | _, [], _ => .nil
  | _, _ :: _, ⟨_, _, h⟩ => .cons (partition_start_le h) (partition_pairwise h)

end

/-- **PartitionVector.** It never ends for a limit of zero. For any other one it
ends with ranges that follow each other from the first element to the last, all
of the limit's length but the last, which is neither empty nor longer. -/
theorem partitionVector_partitions (w size limit : Nat) (hs : 4 * size < 2 ^ w) (hlw : limit < 2 ^ w) :
    (limit = 0 → ∀ fuel, partitionVector w fuel size limit = none) ∧
    (0 < limit → ∃ cs, (∀ fuel, size / limit < fuel → partitionVector w fuel size limit = some cs) ∧
      Partition size 0 cs ∧ cs.length = (size + (limit - 1)) / limit ∧ (∀ c ∈ cs.dropLast, c.End = c.Start + limit) ∧
      ∀ c ∈ cs, c.End ≤ c.Start + limit) := by
  constructor
  · rintro rfl fuel
    rw [partitionVector, partitionLoop_zero (by omega) fuel 0 (Nat.zero_le _)]
    rfl
  · intro hl
    have hlt := Nat.lt_div_mul_add hl (a := size)
    have hle := Nat.div_mul_le_self size limit
    refine ⟨contexts size limit, fun fuel hf => ?_, partition_contexts hl, ?_, ?_, ?_⟩
    · rw [partitionVector_eq hl hlw hs, if_pos hf]
    · rw [contexts, List.length_append, length_chunks]
      split
      · rename_i h
        symm
        rw [List.length_singleton, Nat.div_eq_iff hl, Nat.succ_mul]
        omega
      · rename_i h
        symm
        rw [List.length_nil, Nat.add_zero, Nat.div_eq_iff hl]
        omega
    · intro c hc
      rw [contexts] at hc
      split at hc
      · rw [List.dropLast_concat] at hc
        exact chunks_exact _ _ c hc
      · rw [List.append_nil] at hc
        exact chunks_exact _ _ c (List.mem_of_mem_dropLast hc)
    · intro c hc
      rcases List.mem_append.mp hc with hc | hc
      · rw [chunks_exact _ _ c hc]
      · split at hc
        · rw [List.mem_singleton.mp hc]
          simp only
          omega
        · cases hc

theorem partitionVector_partitions_seven : ∃ cs, partitionVector 8 3 7 3 = some cs ∧ Partition 7 0 cs ∧ cs.length = 3 := by
  obtain ⟨cs, hcs, hp, hlen, -⟩ := (partitionVector_partitions 8 7 3 (by decide) (by decide)).2 (by decide)
  exact ⟨cs, hcs 3 (by decide), hp, hlen⟩

/-! ## Squares -/

section
variable {α : Type} {f : α → Nat → Option α}

/-- Two loops over different elements may change places. -/
theorem foldlM_comm {is js : List Nat} (h : ∀ i ∈ is, ∀ j ∈ js, ∀ v, (f v i).bind (f · j) = (f v j).bind (f · i)) (v : α) :
    (is.foldlM f v).bind (js.foldlM f) = (js.foldlM f v).bind (is.foldlM f) := by
  have one : ∀ i ∈ is, ∀ v, (f v i).bind (js.foldlM f) = (js.foldlM f v).bind (f · i) := by
    intro i hi
    clear v
    induction js with
    | nil => intro v; simp
    | cons j js ih =>
      intro v
      have hi' := h i hi j List.mem_cons_self
      have ih' := ih fun i hi j hj => h i hi j (List.mem_cons_of_mem _ hj)
      calc (f v i).bind ((j :: js).foldlM f)
          = ((f v i).bind (f · j)).bind (js.foldlM f) := by simp [List.foldlM_cons, Option.bind_assoc]
        _ = (f v j).bind fun u => (f u i).bind (js.foldlM f) := by rw [hi', Option.bind_assoc]
        _ = (f v j).bind fun u => (js.foldlM f u).bind (f · i) := by simp only [ih']
        _ = ((j :: js).foldlM f v).bind (f · i) := by simp [List.foldlM_cons, Option.bind_assoc]
  clear h
  induction is generalizing v with
  | nil => simp
  | cons i is ih =>
    have hi := one i List.mem_cons_self
    have ih' := fun u => ih u fun i hi => one i (List.mem_cons_of_mem _ hi)
    calc ((i :: is).foldlM f v).bind (js.foldlM f)
        = (f v i).bind fun u => (is.foldlM f u).bind (js.foldlM f) := by simp [List.foldlM_cons, Option.bind_assoc]
      _ = ((f v i).bind (js.foldlM f)).bind (is.foldlM f) := by simp only [ih', Option.bind_assoc]
      _ = (js.foldlM f v).bind ((i :: is).foldlM f) := by rw [hi]; simp [List.foldlM_cons, Option.bind_assoc]

end

theorem squareAt_comm {i j : Nat} (hij : i ≠ j) (v : List Int) :
    (squareAt v i).bind (squareAt · j) = (squareAt v j).bind (squareAt · i) := by
  have step : ∀ {i j : Nat}, i ≠ j → (squareAt v i).bind (squareAt · j) =
      v[i]?.bind fun x => v[j]?.bind fun y => (mulInt x x).bind fun x' => (mulInt y y).map fun y' => (v.set i x').set j y' := by
    intro i j hij
    unfold squareAt
    cases v[i]? with
    | none => rfl
    | some x =>
      cases hx : mulInt x x <;> cases hy : v[j]? <;> simp [hx, hy, List.getElem?_set_ne hij]
  rw [step hij, step (Ne.symm hij)]
  cases v[i]? with
  | none => cases v[j]? <;> rfl
  | some x =>
    cases v[j]? with
    | none => rfl
    | some y =>
      cases hx : mulInt x x <;> cases hy : mulInt y y <;> simp [hx, hy, List.set_comm _ _ hij]

theorem commute_contexts {stop start : Nat} {cs : List MockThreadPoolSquareContext} (h : Partition stop start cs) :
    Commute squareElements cs := by
  refine (partition_pairwise h).imp fun {a b} hab st => ?_
  cases st with
  | none => rfl
  | some v =>
    symm
    refine foldlM_comm (f := squareAt) (fun i hi j hj v => squareAt_comm ?_ v) v
    rw [MockThreadPoolSquareContext.indices, List.mem_range'_1] at hi hj
    omega

theorem runInOrder_squares : ∀ (cs : List MockThreadPoolSquareContext) (st : Option (List Int)),
    runInOrder squareElements cs st = st.bind ((cs.flatMap (·.indices)).foldlM squareAt)
  | [], st => by cases st <;> simp [runInOrder]
  | c :: cs, st => by
    have ih := runInOrder_squares cs (squareElements c st)
    rw [runInOrder] at ih ⊢
    rw [List.foldl_cons, ih, squareElements, List.flatMap_cons, Option.bind_assoc]
    simp [List.foldlM_append]

theorem foldlM_squareAt (pre : List Int) : ∀ suf : List Int,
    (List.range' pre.length suf.length).foldlM squareAt (pre ++ suf) = (suf.mapM fun x => mulInt x x).map (pre ++ ·)
  | [] => by simp
  | x :: suf => by
    rw [List.length_cons, List.range'_succ, List.foldlM_cons, List.mapM_cons]
    have hat : squareAt (pre ++ x :: suf) pre.length = (mulInt x x).map fun y => (pre ++ [y]) ++ suf := by
      unfold squareAt
      rw [List.getElem?_append_right (Nat.le_refl _), Nat.sub_self, List.getElem?_cons_zero, Option.bind_some]
      congr 1
      funext y
      rw [List.set_append_right _ _ (Nat.le_refl _), Nat.sub_self, List.set_cons_zero, List.append_assoc,
        List.singleton_append]
    rw [hat]
    cases hx : mulInt x x with
    | none => rfl
    | some y =>
      have ih := foldlM_squareAt (pre ++ [y]) suf
      rw [List.length_append, List.length_singleton] at ih
      simp only [Option.map_some, Option.bind_eq_bind, Option.bind_some, ih]
      cases (suf.mapM fun x => mulInt x x) <;> simp

/-- What `RunTestSquare` leaves in the vector, whatever the schedule. -/
theorem shared_of_squares {n w fuel limit : Nat} {v : List Int} {cs : List MockThreadPoolSquareContext}
    {s : Pool n Unit MockThreadPoolSquareContext (Option (List Int))} (hn : 0 < n) (hs : 4 * v.length < 2 ^ w)
    (hlw : limit < 2 ^ w) (hcs : partitionVector w fuel v.length limit = some cs)
    (hr : (pool n Unit squareElements (some v)).ReachUnder (Client cs) s) (hret : s.shutdownPc = .returned) :
    s.shared = v.mapM fun x => mulInt x x := by
  have hl : 0 < limit := by
    refine Nat.pos_of_ne_zero fun h0 => ?_
    subst h0
    rw [partitionVector, partitionLoop_zero (by omega) fuel 0 (Nat.zero_le _)] at hcs
    cases hcs
  rw [partitionVector_eq hl hlw hs] at hcs
  split at hcs
  · cases hcs
    have hp : Partition v.length 0 (contexts v.length limit) := partition_contexts hl
    rw [shared_of_client hn hr hret (commute_contexts hp), runInOrder_squares, (partition_indices hp).2]
    simpa using foldlM_squareAt [] v
  · cases hcs

theorem mulInt_self {x : Int} (h : x * x < 2 ^ 31) : mulInt x x = some (x * x) := by
  have := mul_self_nonneg x
  exact if_pos (by omega)

theorem mapM_mulInt : ∀ v : List Int, (∀ x ∈ v, x * x < 2 ^ 31) → v.mapM (fun x => mulInt x x) = some (v.map fun x => x * x)
  | [], _ => rfl
  | x :: v, h => by
    rw [List.mapM_cons, mulInt_self (h x List.mem_cons_self), mapM_mulInt v fun y hy => h y (List.mem_cons_of_mem _ hy)]
    rfl

theorem assertSquares_map (v : List Int) (h : ∀ x ∈ v, x * x < 2 ^ 31) : assertSquares v (v.map fun x => x * x) = true := by
  unfold assertSquares
  rw [List.length_map, beq_self_eq_true, Bool.true_and, List.all_eq_true]
  intro i hi
  have hi := List.mem_range.mp hi
  have hm := mulInt_self (h v[i] (List.getElem_mem hi))
  simp only [List.getElem?_map, List.getElem?_eq_getElem hi, Option.map_some, hm, beq_self_eq_true]

/-- **RunTestSquare.** Whatever the number of workers, the limit and the schedule,
the pool leaves what squaring the elements one by one leaves; where the squares
fit in an `int` no callback throws and the comparisons of the test succeed. -/
theorem runTestSquare_passes (n w fuel limit : Nat) (v : List Int) (cs : List MockThreadPoolSquareContext)
    (s : Pool n Unit MockThreadPoolSquareContext (Option (List Int))) (hn : 0 < n) (hs : 4 * v.length < 2 ^ w)
    (hlw : limit < 2 ^ w) (hcs : partitionVector w fuel v.length limit = some cs)
    (hr : (pool n Unit squareElements (some v)).ReachUnder (Client cs) s) (hret : s.shutdownPc = .returned) :
    s.shared = v.mapM (fun x => mulInt x x) ∧
    ((∀ x ∈ v, x * x < 2 ^ 31) → ∃ r, s.shared = some r ∧ assertSquares v r = true) := by
  have hsh := shared_of_squares hn hs hlw hcs hr hret
  refine ⟨hsh, fun hfit => ⟨_, hsh.trans (mapM_mulInt v hfit), assertSquares_map v hfit⟩⟩

/-- Three elements in ranges of two: the second worker runs the second range first. -/
def squaresRun : List (Act 2 Unit MockThreadPoolSquareContext) :=
  List.flatten [.call (.producer ()) ⟨0, 2⟩ :: .replicate 5 (.enqueue (.producer ())),
    .call (.producer ()) ⟨2, 3⟩ :: .replicate 5 (.enqueue (.producer ())), .replicate 5 (.work ⟨0, Nat.two_pos⟩),
    .replicate 6 (.work ⟨1, Nat.one_lt_two⟩), [.work ⟨0, Nat.two_pos⟩], [.shutdown, .shutdown],
    .replicate 4 (.work ⟨0, Nat.two_pos⟩), .replicate 4 (.work ⟨1, Nat.one_lt_two⟩), [.shutdown, .shutdown, .shutdown]]

def squaresEnd : Pool 2 Unit MockThreadPoolSquareContext (Option (List Int)) :=
  ((pool 2 Unit squareElements (some [3, -4, 5])).exec (Client [⟨0, 2⟩, ⟨2, 3⟩]) (start (some [3, -4, 5])) squaresRun).get
    (by decide +kernel)

theorem runTestSquare_passes_three : ∃ r, squaresEnd.shared = some r ∧ assertSquares [3, -4, 5] r = true :=
  (runTestSquare_passes 2 8 3 2 [3, -4, 5] [⟨0, 2⟩, ⟨2, 3⟩] squaresEnd (by decide) (by decide) (by decide) (by decide)
    (System.reach_of_exec rfl squaresRun (Option.some_get _).symm) (by decide +kernel)).2 (by decide)

/-! ## The counter -/

/-- `IncrementCounter`; every item has the one context of the test. -/
def incrementCounter (_ : Unit) (Counter : BitVec 64) : BitVec 64 := Counter + 1

theorem foldl_increment (l : List (ThreadWorkerItem Unit)) (c : BitVec 64) :
    l.foldl (fun st x => incrementCounter x.callback st) c = c + BitVec.ofNat 64 l.length := by
  induction l generalizing c with
  | nil => simp
  | cons x l ih =>
    rw [List.foldl_cons, ih, incrementCounter, List.length_cons, BitVec.add_assoc]
    congr 1
    apply BitVec.eq_of_toNat_eq
    simp [Nat.add_comm]

/-- **RunTestFinalizeWorkAfterShutdown.** The counter is the number of callbacks
that have run, never more than were enqueued, and `ExpectedCounter` when
`Shutdown` has returned. -/
theorem runTestFinalizeWorkAfterShutdown_passes (n ExpectedCounter : Nat) (s : Pool n Unit Unit (BitVec 64)) (hn : 0 < n)
    (hk : ExpectedCounter < 2 ^ 8)
    (hr : (pool n Unit incrementCounter 0).ReachUnder (Client (.replicate ExpectedCounter ())) s) :
    s.executed.length ≤ ExpectedCounter ∧ s.shared.toInt = s.executed.length ∧
    (s.shutdownPc = .returned → s.shared.toInt = ExpectedCounter) := by
  have h := inv_reachable hr.reachable
  have hserve := serving_reach hr
  have hle : s.executed.length ≤ s.accepted.length := by
    have := congrArg Multiset.card h.items.flow
    rw [Multiset.card_add, Multiset.coe_card, Multiset.coe_card] at this
    rw [h.items.fifo, List.length_append]
    omega
  have hk' : s.executed.length ≤ ExpectedCounter := by
    have := hserve.within
    rw [List.length_replicate] at this
    omega
  have hsh : s.shared.toInt = s.executed.length := by
    have hz : (0 : BitVec 64) + BitVec.ofNat 64 s.executed.length = BitVec.ofNat 64 s.executed.length := BitVec.zero_add _
    rw [h.items.shared_eq, foldl_increment, hz, BitVec.toInt_ofNat', Int.bmod_eq_of_le] <;> omega
  refine ⟨hk', hsh, fun hret => ?_⟩
  have hend := (hserve.ended (by rw [hret]; simp)).2
  rw [List.length_replicate] at hend
  rw [hsh, (h.executed_perm hn hret).length_eq, hend]

def countersRun : List (Act 1 Unit Unit) :=
  List.flatten [.call (.producer ()) () :: .replicate 5 (.enqueue (.producer ())),
    .call (.producer ()) () :: .replicate 5 (.enqueue (.producer ())), .replicate 12 (.work ⟨0, Nat.one_pos⟩),
    [.shutdown, .shutdown], .replicate 4 (.work ⟨0, Nat.one_pos⟩), [.shutdown, .shutdown]]

def countersEnd : Pool 1 Unit Unit (BitVec 64) :=
  ((pool 1 Unit incrementCounter 0).exec (Client [(), ()]) (start 0) countersRun).get (by decide +kernel)

theorem runTestFinalizeWorkAfterShutdown_passes_two : countersEnd.shared.toInt = 2 :=
  (runTestFinalizeWorkAfterShutdown_passes 1 2 countersEnd (by decide) (by decide)
    (System.reach_of_exec rfl countersRun (Option.some_get _).symm)).2.2 (by decide +kernel)

end Dmsk.ThreadPool
