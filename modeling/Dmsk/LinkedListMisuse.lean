import Dmsk.LinkedListRuns

/-!
# Removing from an empty list, and inserting what was removed

The removals look neither at the counter nor at the ring: on an empty list they
take the head itself for an element, and a flush then deletes it through its
virtual destructor. A removed entry keeps its links, and the assertions of an
insertion look at the links of the entry.
-/

namespace Dmsk

variable {w : ℕ} {β ι : Type}

section
variable {h h' : Heap w β} {list list' : LinkedList w} {xs : List (Addr w)} {e : Addr w}

theorem setFlink_self {a v : Addr w} (ha : flinks h a = some v) : setFlink h a v = .ok h := by
  obtain ⟨n, hn, rfl⟩ := Option.map_eq_some_iff.mp ha
  rw [setFlink, store_ok hn, Function.update_eq_self_iff.mpr hn.symm]

theorem setBlink_self {a v : Addr w} (ha : blinks h a = some v) : setBlink h a v = .ok h := by
  obtain ⟨n, hn, rfl⟩ := Option.map_eq_some_iff.mp ha
  rw [setBlink, store_ok hn, Function.update_eq_self_iff.mpr hn.symm]

/-! ## The empty list -/

section
variable (hr : IsRing (flinks h) (blinks h) list.self [])
include hr

theorem removeEntry_head :
    removeEntry h list list.self = .ok (h, { list with noElements := list.noElements - 1 }) := by
  have hnext : flinks h list.self = some list.self := hr.next_head.1
  have hprev : blinks h list.self = some list.self := hr.last_head.2
  rw [removeEntry, fastFailOnCorruption_ok hr (checkListEntry_node hr (by simp)), ok_bind, getFlink_ok hnext, ok_bind,
    getBlink_ok hprev, ok_bind, setBlink_self hprev, ok_bind, setFlink_self hnext, ok_bind]
  rfl

theorem removeHead_empty :
    removeHead h list = .ok ((h, { list with noElements := list.noElements - 1 }), list.self) := by
  rw [removeHead, getFlink_ok hr.next_head.1, ok_bind, List.headD_nil, removeEntry_head hr, ok_bind]
  rfl

theorem removeTail_empty :
    removeTail h list = .ok ((h, { list with noElements := list.noElements - 1 }), list.self) := by
  rw [removeTail, getBlink_ok hr.last_head.2, ok_bind, List.getLastD_nil, removeEntry_head hr, ok_bind]
  rfl

end

/-! ## Deleting the head -/

/-- `~LinkedList`, which is `Flush`, where the stack has room for `calls` more.
When `RemoveHead` answers the head itself, `delete` runs its virtual destructor,
this one, before the memory is freed. -/
def destroy : ℕ → ℕ → Heap w β → LinkedList w → Except Fault (Heap w β × LinkedList w)
  | _, 0, h, list => if isListEmpty list then .ok (h, list) else .error .endlessLoop
  | calls, n + 1, h, list =>
    if isListEmpty list then .ok (h, list)
    else do
      let ((h, list), head) ← removeHead h list
      if head = list.self then
        match calls with
        | 0 => .error .stackOverflow
        | calls + 1 =>
          let (h, _) ← destroy calls n h list
          let _ ← delete h head
          -- the next test reads the counter of the head
          .error .accessViolation
      else
        let h ← delete h head
        destroy calls n h list

/-- Where the removals answer elements, no call is nested. -/
theorem destroy_eq_flushLoop (calls : ℕ) : ∀ {xs : List (Addr w)} {h : Heap w β} {list : LinkedList w}, Holds h list xs →
    destroy calls xs.length h list = flushLoop xs.length h list
  | [], h, list, hl => by
    rw [List.length_nil, destroy, flushLoop]
  | e :: xs, h, list, hl => by
    obtain ⟨he, h1, list1, e1, s1, hlive, l2, r1⟩ := flush_pass hl
    have hne : e ≠ list1.self := by
      rw [s1]
      exact fun hs => hl.ring.head_notMem (by simp [hs])
    rw [List.length_cons, destroy, flushLoop]
    split
    · rfl
    · rw [e1, ok_bind, ok_bind]
      dsimp only
      rw [if_neg hne, delete_ok hlive, ok_bind, ok_bind]
      exact destroy_eq_flushLoop calls l2

/-- On the empty ring every pass answers the head. With a counter that is not
zero the calls are nested until the stack is full, and nothing is freed. -/
theorem destroy_overflows : ∀ {calls n : ℕ} {list : LinkedList w}, IsRing (flinks h) (blinks h) list.self [] →
    calls < list.noElements.toNat → list.noElements.toNat = n → destroy calls n h list = .error .stackOverflow
  | calls, 0, list, hr, hcalls, hn => absurd hn (by omega)
  | calls, n + 1, list, hr, hcalls, hn => by
    have hne : ¬ isListEmpty list = true := by
      simp only [isListEmpty, decide_eq_true_eq]
      rintro h0
      rw [h0] at hcalls
      simp at hcalls
    rw [destroy.eq_def]
    dsimp only
    rw [if_neg hne, removeHead_empty hr, ok_bind]
    dsimp only
    rw [if_pos rfl]
    cases calls with
    | zero => rfl
    | succ calls =>
      have hcount : (list.noElements - 1).toNat = n := count_sub hn
      have ih : destroy calls n h { list with noElements := list.noElements - 1 } = .error .stackOverflow :=
        destroy_overflows hr (hcount ▸ by omega) hcount
      dsimp only
      rw [ih, error_bind]

/-! ## Counter and ring -/

/-- The counter and the ring tell the same, and a flush, the destructor's too,
deletes the elements. -/
structure Agrees (h : Heap w β) (list : LinkedList w) (xs : List (Addr w)) : Prop where
  ring : IsRing (flinks h) (blinks h) list.self xs
  count : list.noElements.toNat = xs.length
  empty : isListEmpty list = true ↔ flinks h list.self = some list.self
  flush : ∃ h' list', flush h list = .ok (h', list') ∧ Freed h h' list.self xs ∧
    ∀ calls, destroy calls list.noElements.toNat h list = .ok (h', list')

theorem Holds.agrees (hl : Holds h list xs) : Agrees h list xs where
  ring := hl.ring
  count := hl.count
  empty := by
    rw [isListEmpty_iff hl, hl.ring.next_head.1]
    cases xs with
    | nil => simp
    | cons a xs =>
      refine iff_of_false (List.cons_ne_nil a xs) ?_
      intro ha
      have ha : a = list.self := Option.some.inj ha
      exact hl.ring.head_notMem (ha ▸ List.mem_cons_self)
  flush := by
    obtain ⟨h', list', he, -, -, hf⟩ := flush_ok hl
    refine ⟨h', list', he, hf, fun calls => ?_⟩
    rw [hl.count, destroy_eq_flushLoop calls hl, ← hl.count]
    exact he

end

/-! ## Runs with removals at any time -/

section
variable [DecidableEq ι]

/-- An operation may be called when the sequences admit it, a removal from an
end at any time. -/
def Seqs.usable (A : Seqs w ι) : ListOp w β ι → Prop
  | .removeHead _ | .removeTail _ => True
  | o => Seqs.spec.valid A o

def World.guarded (W : World w β ι) : ListOp w β ι → Prop
  | .removeHead i | .removeTail i => isListEmpty (W.lists i) = false
  | _ => True

/-- The worlds that operations satisfying `C` lead to, with the sequences. -/
inductive World.Run (C : World w β ι → ListOp w β ι → Prop) (W₀ : World w β ι) : World w β ι → Seqs w ι → Prop
  | nil : Run C W₀ W₀ W₀.initial
  | snoc {W W' A o out} : Run C W₀ W A → A.usable o → C W o → W.step o = .ok (W', out) → Run C W₀ W' (Seqs.spec.next A o)

section
variable {W₀ W : World w β ι} {A : Seqs w ι}

omit [DecidableEq ι] in
theorem Represents.isListEmpty_iff (hR : Represents W A) (i : ι) : isListEmpty (W.lists i) = true ↔ A.seq i = [] :=
  Dmsk.isListEmpty_iff (hR.holds i)

theorem Represents.valid (hR : Represents W A) {o : ListOp w β ι} (hu : A.usable o) (hg : W.guarded o) : Seqs.spec.valid A o := by
  have hne : ∀ i, isListEmpty (W.lists i) = false → A.seq i ≠ [] := by
    intro i hi hnil
    rw [(hR.isListEmpty_iff i).mpr hnil] at hi
    cases hi
  cases o with
  | removeHead i => exact hne i hg
  | removeTail i => exact hne i hg
  | _ => exact hu

theorem World.Run.represents (h0 : W₀.Init) (hr : World.Run World.guarded W₀ W A) : Represents W A := by
  induction hr with
  | nil => exact h0.represents
  | snoc _ hu hg hs ih =>
    obtain ⟨W'', he, hR, -⟩ := ih.step _ (ih.valid hu hg)
    rw [hs] at he
    cases he
    exact hR

theorem Represents.out_ne_head (hR : Represents W A) {o : ListOp w β ι} {e : Addr w} (ho : Seqs.spec.out A o = some e) (j : ι) :
    e ≠ (W.lists j).self := by
  have hmem : ∃ i, e ∈ A.seq i := by
    cases o with
    | removeHead i => exact ⟨i, List.mem_of_mem_head? ho⟩
    | removeTail i => exact ⟨i, List.mem_of_getLast? ho⟩
    | _ => cases ho
  obtain ⟨i, hi⟩ := hmem
  rintro rfl
  by_cases hij : i = j
  · subst hij
    exact (hR.holds i).ring.head_notMem hi
  · exact hR.apart i j hij (List.mem_cons_of_mem _ hi) List.mem_cons_self

/-- **The empty boundary.** As long as `RemoveHead` and `RemoveTail` are called
on lists that are not empty only, the counter, the ring and the answers agree. A
single call on an empty list answers the head and wraps the counter around, and
a flush then fills the stack. -/
theorem emptiness_agrees (h0 : W₀.Init) (hr : World.Run World.guarded W₀ W A) :
    (∀ i, Agrees W.heap (W.lists i) (A.seq i)) ∧
    (∀ o, A.usable o → W.guarded o → ∃ W' out, W.step o = .ok (W', out) ∧ ∀ e, out = some e → ∀ j, e ≠ (W.lists j).self) ∧
    ∀ i o, o = .removeHead i ∨ o = .removeTail i → isListEmpty (W.lists i) = true →
      ∃ W', W.step o = .ok (W', some (W.lists i).self) ∧ (W'.lists i).noElements = BitVec.allOnes w ∧
        ∀ calls < 2 ^ w - 1, destroy calls (2 ^ w - 1) W'.heap (W'.lists i) = .error .stackOverflow := by
  have hR := hr.represents h0
  refine ⟨fun i => (hR.holds i).agrees, ?_, ?_⟩
  · intro o hu hg
    obtain ⟨W', he, -⟩ := hR.step o (hR.valid hu hg)
    exact ⟨W', _, he, fun e ho => hR.out_ne_head ho⟩
  · intro i o ho hempty
    have hl := hR.holds i
    rw [(hR.isListEmpty_iff i).mp hempty] at hl
    have hcount : (W.lists i).noElements - 1 = BitVec.allOnes w := by
      have hzero : (W.lists i).noElements = 0 := by simpa [isListEmpty] using hempty
      rw [hzero]
      exact (BitVec.zero_sub _).trans BitVec.neg_one_eq_allOnes
    have hstep : W.step o = .ok (W.put i (W.heap, { W.lists i with noElements := (W.lists i).noElements - 1 }),
        some (W.lists i).self) := by
      rcases ho with rfl | rfl
      · rw [World.step, removeHead_empty hl.ring, ok_bind]; rfl
      · rw [World.step, removeTail_empty hl.ring, ok_bind]; rfl
    refine ⟨_, hstep, ?_⟩
    simp only [World.put, Function.update_self, hcount, true_and]
    intro calls hcalls
    have hmax : (BitVec.allOnes w).toNat = 2 ^ w - 1 := BitVec.toNat_allOnes
    have hring : IsRing (flinks W.heap) (blinks W.heap) (⟨(W.lists i).self, BitVec.allOnes w⟩ : LinkedList w).self [] := hl.ring
    exact destroy_overflows hring (hmax ▸ hcalls) hmax

end

end

theorem emptiness_agrees_two : ∃ W' A, World.Run World.guarded twoLists W' A ∧ Agrees W'.heap (W'.lists true) (A.seq true) := by
  have h : ∃ W' A, World.Run World.guarded twoLists W' A ∧ A.seq true = [] :=
    ⟨_, _, .snoc (o := .removeHead true) (.snoc (o := .insertTail true 10) (.snoc (o := .construct 10 0) .nil rfl trivial rfl) rfl
      trivial rfl) trivial (by exact rfl) rfl, rfl⟩
  obtain ⟨W', A, hr, -⟩ := h
  exact ⟨W', A, hr, (emptiness_agrees twoLists_init hr).1 true⟩

/-- Flushed, the list deletes its head, whose destructor flushes it again. -/
theorem empty_removal_wraps : ∃ W' A, World.Run (fun _ _ => True) twoLists W' A ∧
    twoLists.step (.removeHead true) = .ok (W', some (twoLists.lists true).self) ∧ (W'.lists true).noElements = 255 ∧
    isListEmpty (W'.lists true) = false ∧ flinks W'.heap (W'.lists true).self = some (W'.lists true).self ∧
    ∀ calls < 255, destroy calls 255 W'.heap (W'.lists true) = .error .stackOverflow :=
  have hring : IsRing (flinks twoLists.heap) (blinks twoLists.heap) (twoLists.lists true).self [] :=
    (twoLists_init.represents.holds true).ring
  have hs : twoLists.step (.removeHead true) = .ok (twoLists.put true (twoLists.heap, ⟨1, 255⟩), some 1) := by
    rw [World.step, removeHead_empty hring, ok_bind]
    rfl
  ⟨_, _, .snoc (o := .removeHead true) .nil trivial trivial hs, hs, rfl, rfl, rfl, fun _ hcalls =>
    destroy_overflows (n := 255) hring hcalls rfl⟩

/-! ## Entries that were removed -/

section
variable {h h' : Heap w β} {list list' : LinkedList w} {xs : List (Addr w)} {e : Addr w}

/-- The ways in which `e` leaves the list. -/
def Removal (h : Heap w β) (list : LinkedList w) (e : Addr w) (r : Heap w β × LinkedList w) : Prop :=
  removeEntry h list e = .ok r ∨ removeHead h list = .ok (r, e) ∨ removeTail h list = .ok (r, e)

theorem bind_eq_ok {γ δ : Type} {x : Except Fault γ} {f : γ → Except Fault δ} {d : δ} (h : (x >>= f) = .ok d) :
    ∃ c, x = .ok c ∧ f c = .ok d := by
  cases x with
  | error e => cases h
  | ok c => exact ⟨c, rfl, h⟩

theorem Removal.removeEntry {r : Heap w β × LinkedList w} (h' : Removal h list e r) : removeEntry h list e = .ok r := by
  rcases h' with h' | h' | h'
  · exact h'
  · obtain ⟨head, -, h'⟩ := bind_eq_ok h'
    obtain ⟨r', hr', h'⟩ := bind_eq_ok h'
    cases h'
    exact hr'
  · obtain ⟨tail, -, h'⟩ := bind_eq_ok h'
    obtain ⟨r', hr', h'⟩ := bind_eq_ok h'
    cases h'
    exact hr'

/-- The next entry does not point back to the one that was removed. -/
theorem Removal.next (hl : Holds h list xs) (he : e ∈ xs) (hr : Removal h list e (h', list')) :
    ∃ n p, n ≠ e ∧ p ≠ e ∧ flinks h' e = some n ∧ blinks h' n = some p := by
  obtain ⟨ys, zs, rfl⟩ := List.append_of_mem he
  obtain ⟨h'', list'', he', hs, hl', hrelinked⟩ := removeEntry_ok ys zs hl
  rw [hr.removeEntry] at he'
  cases he'
  have hout : e ∉ list.self :: (ys ++ zs) := by
    have hnd := hl.ring.nodup
    have hperm : (list.self :: (ys ++ e :: zs)).Perm (e :: list.self :: (ys ++ zs)) :=
      (List.perm_middle.cons list.self).trans (List.Perm.swap e list.self _)
    exact (List.nodup_cons.mp (hperm.nodup_iff.mp hnd)).1
  have hnext : flinks h' e = some (zs.headD list.self) := by
    rw [flinks_congr (hrelinked.frame e hout)]
    exact hl.ring.elem.2.1
  have hmem : zs.headD list.self ∈ list'.self :: (ys ++ zs) := by
    have := headD_mem list.self zs
    rw [hs]
    simp only [List.mem_cons, List.mem_append] at this ⊢; tauto
  obtain ⟨-, -, p, hp, -, hback⟩ := hl'.ring.consistent hmem
  rw [hs] at hmem hp
  exact ⟨_, p, fun hn => hout (hn ▸ hmem), fun hpe => hout (hpe ▸ hp), hnext, hback.2⟩

theorem Removal.checkListEntry (hl : Holds h list xs) (he : e ∈ xs) (hr : Removal h list e (h', list')) :
    checkListEntry h' e = .error .assertionFailure := by
  obtain ⟨n, p, -, hne, hnext, hprev⟩ := hr.next hl he
  rw [Dmsk.checkListEntry, getFlink_ok hnext, ok_bind, getBlink_ok hprev, ok_bind, ntAssert, if_neg hne, error_bind]

/-- **No entry can be inserted again** after it was removed: the assertion on
its links fails, whatever the list. -/
theorem removed_not_inserted (hl : Holds h list xs) (he : e ∈ xs) (hr : Removal h list e (h', list')) (l : LinkedList w) :
    insertHead h' l e = .error .assertionFailure ∧ insertTail h' l e = .error .assertionFailure := by
  have hcheck := hr.checkListEntry hl he
  constructor
  · rw [insertHead, fastFailOnCorruption, hcheck, error_bind, error_bind]
  · rw [insertTail, fastFailOnCorruption, hcheck, error_bind, error_bind]

end

def oneEntry : Heap 8 ℕ := fun a =>
  if a = 1 then some ⟨10, 10, none⟩ else if a = 10 then some ⟨1, 1, some 0⟩ else none

theorem oneEntry_holds : Holds oneEntry ⟨1, 1⟩ [10] :=
  ⟨⟨by decide, .cons_cons ⟨rfl, rfl⟩ (.cons_cons ⟨rfl, rfl⟩ (.singleton 1))⟩, rfl⟩

def threeEntries : Heap 8 ℕ := fun a =>
  if a = 1 then some ⟨10, 30, none⟩ else if a = 10 then some ⟨20, 1, some 0⟩ else if a = 20 then some ⟨30, 10, some 1⟩
  else if a = 30 then some ⟨1, 20, some 2⟩ else none

theorem threeEntries_holds : Holds threeEntries ⟨1, 3⟩ [10, 20, 30] :=
  ⟨⟨by decide, .cons_cons ⟨rfl, rfl⟩ (.cons_cons ⟨rfl, rfl⟩ (.cons_cons ⟨rfl, rfl⟩ (.cons_cons ⟨rfl, rfl⟩ (.singleton 1))))⟩, rfl⟩

/-- The one in the middle is removed. -/
theorem removed_not_inserted_middle : ∃ h' list', removeEntry threeEntries ⟨1, 3⟩ 20 = .ok (h', list') ∧
    insertHead h' list' 20 = .error .assertionFailure ∧ insertTail h' list' 20 = .error .assertionFailure :=
  ⟨_, _, rfl, removed_not_inserted threeEntries_holds (by decide) (.inl rfl) _⟩

theorem removed_tail_rejected : ∃ h' list', Holds oneEntry ⟨1, 1⟩ [10] ∧ removeTail oneEntry ⟨1, 1⟩ = .ok ((h', list'), 10) ∧
    insertTail h' list' 10 = .error .assertionFailure :=
  ⟨_, _, oneEntry_holds, rfl, rfl⟩

/-! ## Removed for good -/

/-- The next entry, if there is one, does not point back. -/
def Stale (h : Heap w β) (e : Addr w) : Prop := ∃ n, n ≠ e ∧ flinks h e = some n ∧ blinks h n ≠ some e

theorem getBlink_none {h : Heap w β} {a : Addr w} (ha : blinks h a = none) : getBlink h a = .error .accessViolation := by
  rw [getBlink, load, Option.map_eq_none_iff.mp ha]
  rfl

theorem Stale.checkListEntry {h : Heap w β} {e : Addr w} (hs : Stale h e) : ∃ f, checkListEntry h e = .error f := by
  obtain ⟨n, -, hnext, hne⟩ := hs
  rw [Dmsk.checkListEntry, getFlink_ok hnext, ok_bind]
  cases hb : blinks h n with
  | none => exact ⟨.accessViolation, by rw [getBlink_none hb, error_bind]⟩
  | some p =>
    have hp : p ≠ e := fun hp => hne (hb.trans (congrArg some hp))
    exact ⟨.assertionFailure, by rw [getBlink_ok hb, ok_bind, ntAssert, if_neg hp, error_bind]⟩

theorem Removal.stale {h h' : Heap w β} {list list' : LinkedList w} {xs : List (Addr w)} {e : Addr w} (hl : Holds h list xs)
    (he : e ∈ xs) (hr : Removal h list e (h', list')) : Stale h' e := by
  obtain ⟨n, p, hne, hpe, hnext, hprev⟩ := hr.next hl he
  refine ⟨n, hne, hnext, ?_⟩
  rw [hprev]
  exact fun hp => hpe (Option.some.inj hp)

section
variable [DecidableEq ι] {W₀ W W' : World w β ι} {A : Seqs w ι} {o : ListOp w β ι} {out : Option (Addr w)}

/-- What an operation writes to belongs to a list, is freed or is new. -/
def World.Writes (W W' : World w β ι) (A' : Seqs w ι) (a : Addr w) : Prop :=
  W'.heap a = W.heap a ∨ W'.heap a = none ∨ (Constructed W'.heap a ∧ A'.use a = .fresh) ∨ ∃ i, a ∈ W'.nodes A' i

theorem World.writes_put {i : ι} {h' : Heap w β} {l' : LinkedList w} {ws xs' : List (Addr w)} {use' : Addr w → Use}
    (hs : l'.self = (W.lists i).self) (hr : Relinked W.heap h' ws) (hws : ∀ a ∈ ws, a ∈ (W.lists i).self :: xs') (a : Addr w) :
    W.Writes (W.put i (h', l')) (A.put i xs' use') a := by
  by_cases ha : a ∈ ws
  · refine .inr (.inr (.inr ⟨i, ?_⟩))
    rw [World.nodes_put_self hs]
    exact hws a ha
  · exact .inl (hr.frame a ha)

theorem World.writes_remove {i : ι} {e : Addr w} {ys zs : List (Addr w)} {h' : Heap w β} {l' : LinkedList w}
    (hR : Represents W A) (hA : A.seq i = ys ++ e :: zs) (hs : l'.self = (W.lists i).self)
    (hr : Relinked W.heap h' ((W.lists i).self :: (ys ++ zs))) (a : Addr w) :
    W.Writes (W.put i (h', l')) (A.remove i e) a := by
  have hnd := (hR.holds i).ring.nodup_xs
  rw [hA] at hnd
  rw [Seqs.remove, hA, erase_mid hnd]
  exact World.writes_put hs hr (fun _ ha => ha) a

theorem Represents.writes (hR : Represents W A) (hv : Seqs.spec.valid A o) (hs : W.step o = .ok (W', out)) (a : Addr w) :
    W.Writes W' (Seqs.spec.next A o) a := by
  cases o with
  | construct e object =>
    cases hs
    by_cases hae : a = e
    · subst hae
      exact .inr (.inr (.inl ⟨constructed_construct _ _ _, Function.update_self _ _ _⟩))
    · exact .inl (Function.update_of_ne hae _ _)
  | insertHead i e =>
    have hv : A.use e = .fresh := hv
    obtain ⟨h', l', he, hs', -, hr⟩ := insertHead_ok (hR.holds i) (hR.fresh e hv) (hR.not_node (by simp [hv]) i)
    rw [World.step, he, ok_bind] at hs
    cases hs
    exact World.writes_put hs' hr (fun a ha => by simp only [List.mem_cons] at ha ⊢; tauto) a
  | insertTail i e =>
    have hv : A.use e = .fresh := hv
    obtain ⟨h', l', he, hs', -, hr⟩ := insertTail_ok (hR.holds i) (hR.fresh e hv) (hR.not_node (by simp [hv]) i)
    rw [World.step, he, ok_bind] at hs
    cases hs
    exact World.writes_put hs' hr (fun a ha => by simp only [List.mem_cons, List.mem_append] at ha ⊢; tauto) a
  | removeEntry i e =>
    obtain ⟨ys, zs, hA⟩ := List.append_of_mem (show e ∈ A.seq i from hv)
    have hh := hR.holds i
    rw [hA] at hh
    obtain ⟨h', l', he, hs', -, hr⟩ := removeEntry_ok ys zs hh
    rw [World.step, he, ok_bind] at hs
    cases hs
    exact World.writes_remove hR hA hs' hr a
  | removeHead i =>
    obtain ⟨e, zs, hA⟩ := List.exists_cons_of_ne_nil (show A.seq i ≠ [] from hv)
    have hh := hR.holds i
    rw [hA] at hh
    obtain ⟨h', l', he, hs', -, hr⟩ := removeHead_ok hh
    rw [World.step, he, ok_bind] at hs
    cases hs
    rw [Seqs.next_removeHead hA]
    have hA' : A.seq i = [] ++ e :: zs := hA
    exact World.writes_remove hR hA' hs' hr a
  | removeTail i =>
    obtain ⟨ys, e, hA⟩ := (List.eq_nil_or_concat' (A.seq i)).resolve_left (show A.seq i ≠ [] from hv)
    have hh := hR.holds i
    rw [hA] at hh
    obtain ⟨h', l', he, hs', -, hr⟩ := removeTail_ok hh
    rw [World.step, he, ok_bind] at hs
    cases hs
    rw [Seqs.next_removeTail hA]
    exact World.writes_remove hR hA hs' (by rwa [List.append_nil]) a
  | flush i =>
    obtain ⟨h', l', he, hs', -, hf⟩ := flush_ok (hR.holds i)
    rw [World.step, he, ok_bind] at hs
    cases hs
    by_cases ha : a ∈ (W.lists i).self :: A.seq i
    · rcases List.mem_cons.mp ha with rfl | ha
      · refine .inr (.inr (.inr ⟨i, ?_⟩))
        show _ ∈ (W.put i (h', l')).nodes (A.put i [] _) i
        rw [World.nodes_put_self hs']
        exact List.mem_cons_self
      · exact .inr (.inl (hf.gone a ha))
    · exact .inl (hf.frame a ha)
  | delete e =>
    obtain ⟨h', hd, hs⟩ := bind_eq_ok hs
    obtain ⟨_, -, hd⟩ := bind_eq_ok hd
    cases hd
    cases hs
    by_cases hae : a = e
    · exact .inr (.inl (hae ▸ Function.update_self _ _ _))
    · exact .inl (Function.update_of_ne hae _ _)

/-- An operation leaves a stale entry as it is, and links nothing back to it. -/
theorem Represents.stale_step {e : Addr w} (hR : Represents W A) (hv : Seqs.spec.valid A o) (hs : W.step o = .ok (W', out))
    (hR' : Represents W' (Seqs.spec.next A o)) (he : (Seqs.spec.next A o).use e = .removed) (hstale : Stale W.heap e) :
    Stale W'.heap e := by
  obtain ⟨n, hne, hnext, hprev⟩ := hstale
  have hkeep : W'.heap e = W.heap e := by
    rcases hR.writes hv hs e with h | h | ⟨-, h⟩ | ⟨i, h⟩
    · exact h
    · have := (hR'.unallocated e).mpr (by rw [h]; rfl)
      rw [he] at this
      cases this
    · rw [he] at h
      cases h
    · rw [hR'.owned i e h] at he
      cases he
  refine ⟨n, hne, (flinks_congr hkeep).trans hnext, ?_⟩
  intro hback
  rcases hR.writes hv hs n with h | h | ⟨h, -⟩ | ⟨i, h⟩
  · exact hprev ((blinks_congr h).symm.trans hback)
  · rw [blinks, h] at hback
    cases hback
  · rw [h.2] at hback
    exact hne (Option.some.inj hback)
  · obtain ⟨-, -, p, hp, -, hlink⟩ := (hR'.holds i).ring.consistent h
    rw [hlink.2] at hback
    obtain rfl := Option.some.inj hback
    rw [hR'.owned i p hp] at he
    cases he

omit [DecidableEq ι] in
theorem use_update {e x : Addr w} {u : Use} (hA : A.use e ≠ .removed) (he : Function.update A.use x u e = .removed) :
    e = x ∧ u = .removed := by
  by_cases hx : e = x
  · rw [hx, Function.update_self] at he
    exact ⟨hx, he⟩
  · rw [Function.update_of_ne hx] at he
    exact absurd he hA

theorem Represents.stale_remove {e : Addr w} (hR : Represents W A) (hv : Seqs.spec.valid A o) (hs : W.step o = .ok (W', out))
    (hA : A.use e ≠ .removed) (he : (Seqs.spec.next A o).use e = .removed) : Stale W'.heap e := by
  cases o with
  | construct x object => cases (use_update hA he).2
  | insertHead i x => cases (use_update hA he).2
  | insertTail i x => cases (use_update hA he).2
  | delete x => cases (use_update hA he).2
  | flush i =>
    have he : (if e ∈ A.seq i then Use.unallocated else A.use e) = .removed := he
    split at he
    · cases he
    · exact absurd he hA
  | removeEntry i x =>
    obtain ⟨rfl, -⟩ := use_update hA he
    obtain ⟨r, hr, hs⟩ := bind_eq_ok hs
    cases hs
    exact Removal.stale (hR.holds i) hv (.inl hr)
  | removeHead i =>
    obtain ⟨x, zs, hseq⟩ := List.exists_cons_of_ne_nil (show A.seq i ≠ [] from hv)
    rw [Seqs.next_removeHead hseq] at he
    obtain ⟨rfl, -⟩ := use_update hA he
    have hh := hR.holds i
    rw [hseq] at hh
    obtain ⟨h', l', hr, -⟩ := removeHead_ok hh
    rw [World.step, hr, ok_bind] at hs
    cases hs
    exact Removal.stale hh List.mem_cons_self (.inr (.inl hr))
  | removeTail i =>
    obtain ⟨ys, x, hseq⟩ := (List.eq_nil_or_concat' (A.seq i)).resolve_left (show A.seq i ≠ [] from hv)
    rw [Seqs.next_removeTail hseq] at he
    obtain ⟨rfl, -⟩ := use_update hA he
    have hh := hR.holds i
    rw [hseq] at hh
    obtain ⟨h', l', hr, -⟩ := removeTail_ok hh
    rw [World.step, hr, ok_bind] at hs
    cases hs
    exact Removal.stale hh (by simp) (.inr (.inr hr))

theorem World.Run.stale (h0 : W₀.Init) (hr : World.Run World.guarded W₀ W A) {e : Addr w} (he : A.use e = .removed) :
    Stale W.heap e := by
  induction hr with
  | nil =>
    simp only [World.initial] at he
    split at he <;> cases he
  | @snoc W W' A o out hr' hu hg hs ih =>
    have hR := hr'.represents h0
    have hv := hR.valid hu hg
    have hR' := (World.Run.snoc hr' hu hg hs).represents h0
    by_cases hA : A.use e = .removed
    · exact hR.stale_step hv hs hR' he (ih hA)
    · exact hR.stale_remove hv hs hA he

/-- **Removed for good.** Whatever happens to the lists in the meantime, an entry
that was removed cannot be inserted before it is constructed again. -/
theorem removed_for_good (h0 : W₀.Init) (hr : World.Run World.guarded W₀ W A) {e : Addr w} (he : A.use e = .removed)
    (l : LinkedList w) : (∃ f, insertHead W.heap l e = .error f) ∧ ∃ f, insertTail W.heap l e = .error f := by
  obtain ⟨f, hf⟩ := (hr.stale h0 he).checkListEntry
  constructor
  · exact ⟨f, by rw [insertHead, fastFailOnCorruption, hf, error_bind, error_bind]⟩
  · exact ⟨f, by rw [insertTail, fastFailOnCorruption, hf, error_bind, error_bind]⟩

end

end Dmsk
