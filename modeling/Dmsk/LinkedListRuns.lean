import Dmsk.LinkedListSound
import Dmsk.Refinement

/-!
# Runs over several lists in one heap

The lists `ι` and their entries share a heap. The specification keeps a
sequence for each list and, for each address, what it is used for: an entry may
be inserted when it is fresh from its constructor, memory may be allocated
when it is free. A valid run refines it, whatever the order of the operations.
-/

namespace Dmsk

structure World (w : ℕ) (β ι : Type) where
  heap : Heap w β
  lists : ι → LinkedList w

inductive ListOp (w : ℕ) (β ι : Type)
  | construct (e : Addr w) (object : β)
  | insertHead (i : ι) (e : Addr w)
  | insertTail (i : ι) (e : Addr w)
  | removeEntry (i : ι) (e : Addr w)
  | removeHead (i : ι)
  | removeTail (i : ι)
  | flush (i : ι)
  | delete (e : Addr w)

/-- What an address is used for. `owned`: a list head, an entry in a list, or
memory of no concern here. -/
inductive Use
  | unallocated
  | fresh
  | owned
  | removed
deriving DecidableEq, Repr

/-- The sequences, and the use of each address. -/
structure Seqs (w : ℕ) (ι : Type) where
  seq : ι → List (Addr w)
  use : Addr w → Use

variable {w : ℕ} {β ι : Type} [DecidableEq ι]

namespace World

def put (W : World w β ι) (i : ι) (r : Heap w β × LinkedList w) : World w β ι where
  heap := r.1
  lists := Function.update W.lists i r.2

def setHeap (W : World w β ι) (h : Heap w β) : World w β ι where
  heap := h
  lists := W.lists

def step (W : World w β ι) : ListOp w β ι → Except Fault (World w β ι × Option (Addr w))
  | .construct e object => return (W.setHeap (construct W.heap e (some object)), none)
  | .insertHead i e => return (W.put i (← insertHead W.heap (W.lists i) e), none)
  | .insertTail i e => return (W.put i (← insertTail W.heap (W.lists i) e), none)
  | .removeEntry i e => return (W.put i (← removeEntry W.heap (W.lists i) e), none)
  | .removeHead i => do
    let (r, e) ← removeHead W.heap (W.lists i)
    return (W.put i r, some e)
  | .removeTail i => do
    let (r, e) ← removeTail W.heap (W.lists i)
    return (W.put i r, some e)
  | .flush i => return (W.put i (← flush W.heap (W.lists i)), none)
  | .delete e => return (W.setHeap (← delete W.heap e), none)

structure Init (W : World w β ι) : Prop where
  constructed : ∀ i, Constructed W.heap (W.lists i).self
  empty : ∀ i, (W.lists i).noElements = 0
  apart : ∀ i j, (W.lists i).self = (W.lists j).self → i = j

def initial (W : World w β ι) : Seqs w ι where
  seq _ := []
  use a := if (W.heap a).isSome then .owned else .unallocated

def nodes (W : World w β ι) (A : Seqs w ι) (i : ι) : List (Addr w) := (W.lists i).self :: A.seq i

def Untouched (W W' : World w β ι) (A : Seqs w ι) (i : ι) : Prop :=
  W'.lists i = W.lists i ∧ ∀ a ∈ W.nodes A i, W'.heap a = W.heap a

end World

def ListOp.list : ListOp w β ι → Option ι
  | .insertHead i _ | .insertTail i _ | .removeEntry i _ | .removeHead i | .removeTail i | .flush i => some i
  | .construct _ _ | .delete _ => none

/-! ## The specification -/

namespace Seqs

def put (A : Seqs w ι) (i : ι) (xs : List (Addr w)) (use : Addr w → Use) : Seqs w ι where
  seq := Function.update A.seq i xs
  use := use

def setUse (A : Seqs w ι) (e : Addr w) (u : Use) : Seqs w ι where
  seq := A.seq
  use := Function.update A.use e u

def valid (A : Seqs w ι) : ListOp w β ι → Prop
  | .construct e _ => A.use e = .unallocated
  | .insertHead _ e | .insertTail _ e => A.use e = .fresh
  | .removeEntry i e => e ∈ A.seq i
  | .removeHead i | .removeTail i => A.seq i ≠ []
  | .flush _ => True
  | .delete e => A.use e = .fresh ∨ A.use e = .removed

def remove (A : Seqs w ι) (i : ι) (e : Addr w) : Seqs w ι :=
  A.put i ((A.seq i).erase e) (Function.update A.use e .removed)

def next (A : Seqs w ι) : ListOp w β ι → Seqs w ι
  | .construct e _ => A.setUse e .fresh
  | .insertHead i e => A.put i (e :: A.seq i) (Function.update A.use e .owned)
  | .insertTail i e => A.put i (A.seq i ++ [e]) (Function.update A.use e .owned)
  | .removeEntry i e => A.remove i e
  | .removeHead i => (A.seq i).head?.elim A (A.remove i)
  | .removeTail i => (A.seq i).getLast?.elim A (A.remove i)
  | .flush i => A.put i [] fun a => if a ∈ A.seq i then .unallocated else A.use a
  | .delete e => A.setUse e .unallocated

def out (A : Seqs w ι) : ListOp w β ι → Option (Addr w)
  | .removeHead i => (A.seq i).head?
  | .removeTail i => (A.seq i).getLast?
  | _ => none

def spec : Spec (Seqs w ι) (ListOp w β ι) (Option (Addr w)) where
  valid := valid
  next := next
  out := out

instance (A : Seqs w ι) : ∀ o : ListOp w β ι, Decidable (spec.valid A o)
  | .construct e _ => inferInstanceAs (Decidable (A.use e = .unallocated))
  | .insertHead _ e | .insertTail _ e => inferInstanceAs (Decidable (A.use e = .fresh))
  | .removeEntry i e => inferInstanceAs (Decidable (e ∈ A.seq i))
  | .removeHead i | .removeTail i => inferInstanceAs (Decidable (A.seq i ≠ []))
  | .flush _ => inferInstanceAs (Decidable True)
  | .delete e => inferInstanceAs (Decidable (A.use e = .fresh ∨ A.use e = .removed))

end Seqs

theorem Seqs.next_removeHead {A : Seqs w ι} {i : ι} {e : Addr w} {zs : List (Addr w)} (hA : A.seq i = e :: zs) :
    Seqs.spec.next A (.removeHead i : ListOp w β ι) = A.remove i e := by
  simp [Seqs.spec, Seqs.next, hA]

theorem Seqs.next_removeTail {A : Seqs w ι} {i : ι} {e : Addr w} {ys : List (Addr w)} (hA : A.seq i = ys ++ [e]) :
    Seqs.spec.next A (.removeTail i : ListOp w β ι) = A.remove i e := by
  simp [Seqs.spec, Seqs.next, hA]

/-- The heap holds the sequences, in disjoint rings. -/
structure Represents (W : World w β ι) (A : Seqs w ι) : Prop where
  holds : ∀ i, Holds W.heap (W.lists i) (A.seq i)
  apart : ∀ i j, i ≠ j → (W.nodes A i).Disjoint (W.nodes A j)
  owned : ∀ i, ∀ a ∈ W.nodes A i, A.use a = .owned
  fresh : ∀ a, A.use a = .fresh → Constructed W.heap a
  unallocated : ∀ a, A.use a = .unallocated ↔ (W.heap a).isSome = false

section
variable {W W' : World w β ι} {A : Seqs w ι} {i : ι} {e : Addr w}

omit [DecidableEq ι] in
theorem World.Init.represents (h0 : W.Init) : Represents W W.initial where
  holds i := ⟨isRing_nil (h0.constructed i).1 (h0.constructed i).2, by rw [h0.empty i]; simp [World.initial]⟩
  apart i j hij := by
    simp only [World.nodes, World.initial, List.disjoint_singleton, List.mem_singleton]
    exact fun he => hij (h0.apart i j he.symm)
  owned i a ha := by
    simp only [World.nodes, World.initial, List.mem_singleton] at ha ⊢
    rw [ha, if_pos (live_of_flinks (h0.constructed i).1)]
  fresh a ha := by
    simp only [World.initial] at ha
    split at ha <;> cases ha
  unallocated a := by
    simp only [World.initial]
    by_cases ha : (W.heap a).isSome <;> simp [ha]

/-! ## What a step keeps -/

theorem World.nodes_put_self {h' : Heap w β} {l' : LinkedList w} (hs : l'.self = (W.lists i).self) (xs' : List (Addr w))
    (use' : Addr w → Use) : (W.put i (h', l')).nodes (A.put i xs' use') i = (W.lists i).self :: xs' := by
  simp [World.nodes, World.put, Seqs.put, hs]

theorem World.nodes_put_of_ne {j : ι} (hij : i ≠ j) (r : Heap w β × LinkedList w) (xs' : List (Addr w)) (use' : Addr w → Use) :
    (W.put i r).nodes (A.put i xs' use') j = W.nodes A j := by
  simp [World.nodes, World.put, Seqs.put, Function.update_of_ne (Ne.symm hij)]

omit [DecidableEq ι] in
theorem Represents.disjoint_fresh (hR : Represents W A) {xs' : List (Addr w)} (hxs : ∀ a ∈ xs', a ∈ A.seq i ∨ A.use a = .fresh)
    {j : ι} (hij : i ≠ j) : ((W.lists i).self :: xs').Disjoint (W.nodes A j) := by
  intro a ha hj
  rcases List.mem_cons.mp ha with rfl | ha
  · exact hR.apart i j hij (by simp [World.nodes]) hj
  · rcases hxs a ha with ha | ha
    · exact hR.apart i j hij (List.mem_cons_of_mem _ ha) hj
    · rw [hR.owned j a hj] at ha; cases ha

/-- An operation on the list `i`: other lists and fresh entries keep their
use, so they are not written. -/
theorem Represents.put (hR : Represents W A) {h' : Heap w β} {l' : LinkedList w} {xs' : List (Addr w)}
    {use' : Addr w → Use} (hs : l'.self = (W.lists i).self) (hl : Holds h' l' xs')
    (hframe : ∀ a ∉ W.nodes A i, use' a = A.use a → h' a = W.heap a)
    (hother : ∀ a ∉ W.nodes A i, A.use a = .owned → use' a = .owned)
    (hown : ∀ a ∈ (W.lists i).self :: xs', use' a = .owned)
    (hfresh : ∀ a, use' a = .fresh → A.use a = .fresh)
    (hfree : ∀ a, use' a = .unallocated ↔ (h' a).isSome = false)
    (hxs : ∀ a ∈ xs', a ∈ A.seq i ∨ A.use a = .fresh) :
    Represents (W.put i (h', l')) (A.put i xs' use') ∧ ∀ j, i ≠ j → W.Untouched (W.put i (h', l')) A j := by
  have hun : ∀ j, i ≠ j → ∀ a ∈ W.nodes A j, use' a = .owned ∧ h' a = W.heap a := by
    intro j hij a ha
    have hni : a ∉ W.nodes A i := fun hi => hR.apart i j hij hi ha
    have ho := hother a hni (hR.owned j a ha)
    exact ⟨ho, hframe a hni (ho.trans (hR.owned j a ha).symm)⟩
  refine ⟨⟨?_, ?_, ?_, ?_, hfree⟩, ?_⟩
  · intro j
    by_cases hij : i = j
    · subst hij
      simpa [World.put, Seqs.put] using hl
    · simp only [World.put, Seqs.put, Function.update_of_ne (Ne.symm hij)]
      exact (hR.holds j).frame fun a ha => (hun j hij a ha).2
  · intro j k hjk
    by_cases hij : i = j
    · subst hij
      rw [World.nodes_put_self hs, World.nodes_put_of_ne hjk]
      exact hR.disjoint_fresh hxs hjk
    · rw [World.nodes_put_of_ne hij]
      by_cases hik : i = k
      · subst hik
        rw [World.nodes_put_self hs]
        exact List.disjoint_symm (hR.disjoint_fresh hxs hij)
      · rw [World.nodes_put_of_ne hik]
        exact hR.apart j k hjk
  · intro j a ha
    by_cases hij : i = j
    · subst hij
      rw [World.nodes_put_self hs] at ha
      exact hown a ha
    · rw [World.nodes_put_of_ne hij] at ha
      exact (hun j hij a ha).1
  · intro a ha
    have hA := hfresh a ha
    refine (hR.fresh a hA).frame (hframe a ?_ (ha.trans hA.symm))
    intro hi
    rw [hR.owned i a hi] at hA; cases hA
  · intro j hij
    exact ⟨Function.update_of_ne (Ne.symm hij) _ _, fun a ha => (hun j hij a ha).2⟩

omit [DecidableEq ι] in
theorem Represents.not_node (hR : Represents W A) (he : A.use e ≠ .owned) (i : ι) : e ∉ W.nodes A i :=
  fun hi => he (hR.owned i e hi)

theorem Represents.insert (hR : Represents W A) (he : A.use e = .fresh) {h' : Heap w β} {l' : LinkedList w}
    {xs' : List (Addr w)} (hs : l'.self = (W.lists i).self) (hl : Holds h' l' xs')
    (hr : Relinked W.heap h' (e :: (W.lists i).self :: A.seq i)) (hxs : xs'.Perm (e :: A.seq i)) :
    Represents (W.put i (h', l')) (A.put i xs' (Function.update A.use e .owned)) ∧
      ∀ j, i ≠ j → W.Untouched (W.put i (h', l')) A j := by
  refine hR.put hs hl ?_ ?_ ?_ ?_ ?_
    (fun a ha => ?_)
  · intro a ha hu
    apply hr.frame a
    rw [List.mem_cons, not_or]
    refine ⟨?_, ha⟩
    intro hae
    subst hae
    rw [Function.update_self, he] at hu; cases hu
  · intro a ha ho
    by_cases hae : a = e
    · simp [hae]
    · rwa [Function.update_of_ne hae]
  · intro a ha
    by_cases hae : a = e
    · simp [hae]
    · rw [Function.update_of_ne hae]
      apply hR.owned i a
      rw [World.nodes, List.mem_cons]
      rw [List.mem_cons, hxs.mem_iff, List.mem_cons] at ha
      tauto
  · intro a ha
    by_cases hae : a = e
    · simp [hae] at ha
    · rwa [Function.update_of_ne hae] at ha
  · intro a
    rw [hr.live a, ← hR.unallocated a]
    by_cases hae : a = e
    · simp [hae, he]
    · rw [Function.update_of_ne hae]
  · rw [hxs.mem_iff, List.mem_cons] at ha
    rcases ha with rfl | ha
    · exact .inr he
    · exact .inl ha

theorem erase_mid {ys zs : List (Addr w)} (h : (ys ++ e :: zs).Nodup) : (ys ++ e :: zs).erase e = ys ++ zs := by
  have hys : e ∉ ys := fun he => (List.nodup_cons.mp (List.perm_middle.nodup_iff.mp h)).1 (List.mem_append_left _ he)
  rw [List.erase_append_right _ hys, List.erase_cons_head]

theorem Represents.remove (hR : Represents W A) (ys zs : List (Addr w)) (hA : A.seq i = ys ++ e :: zs)
    {h' : Heap w β} {l' : LinkedList w} (hs : l'.self = (W.lists i).self) (hl : Holds h' l' (ys ++ zs))
    (hr : Relinked W.heap h' ((W.lists i).self :: (ys ++ zs))) :
    Represents (W.put i (h', l')) (A.remove i e) ∧ ∀ j, i ≠ j → W.Untouched (W.put i (h', l')) A j := by
  have hnd := (hR.holds i).ring.nodup
  rw [hA] at hnd
  have hmid := (List.nodup_cons.mp ((List.perm_middle.cons (W.lists i).self).trans
    (List.Perm.swap e _ _) |>.nodup_iff.mp hnd)).1
  have herase : (A.seq i).erase e = ys ++ zs := by
    rw [hA]
    exact erase_mid (List.nodup_cons.mp hnd).2
  have hei : e ∈ W.nodes A i := by simp [World.nodes, hA]
  have hsub : ∀ a ∈ (W.lists i).self :: (ys ++ zs), a ∈ W.nodes A i := by
    intro a ha
    simp only [World.nodes, hA, List.mem_cons, List.mem_append] at ha ⊢; tauto
  rw [Seqs.remove, herase]
  refine hR.put hs hl (fun a ha _ => hr.frame a fun h => ha (hsub a h)) ?_ ?_
    (fun a ha => ?_) (fun a => ?_) (fun a ha => .inl ?_)
  · intro a ha ho
    rwa [Function.update_of_ne fun hae : a = e => ha (hae ▸ hei)]
  · intro a ha
    rw [Function.update_of_ne fun hae : a = e => hmid (hae ▸ ha)]
    exact hR.owned i a (hsub a ha)
  · by_cases hae : a = e
    · simp [hae] at ha
    · rwa [Function.update_of_ne hae] at ha
  · rw [hr.live a, ← hR.unallocated a]
    by_cases hae : a = e
    · simp [hae, hR.owned i e hei]
    · rw [Function.update_of_ne hae]
  · rw [hA]
    simp only [List.mem_append, List.mem_cons] at ha ⊢; tauto

theorem Represents.flush (hR : Represents W A) {h' : Heap w β} {l' : LinkedList w}
    (hs : l'.self = (W.lists i).self) (hl : Holds h' l' []) (hf : Freed W.heap h' (W.lists i).self (A.seq i)) :
    Represents (W.put i (h', l')) (A.put i [] fun a => if a ∈ A.seq i then .unallocated else A.use a) ∧
      ∀ j, i ≠ j → W.Untouched (W.put i (h', l')) A j := by
  have hhd := (hR.holds i).ring.head_notMem
  refine hR.put hs hl (fun a ha _ => hf.frame a ha) ?_ ?_ ?_
    (fun a => ?_) (fun a ha => by cases ha)
  · intro a ha ho
    rwa [if_neg fun hx => ha (List.mem_cons_of_mem _ hx)]
  · intro a ha
    rw [List.mem_singleton] at ha
    rw [ha, if_neg hhd]
    exact hR.owned i _ (by simp [World.nodes])
  · intro a ha
    by_cases hx : a ∈ A.seq i
    · simp [hx] at ha
    · rwa [if_neg hx] at ha
  · by_cases hx : a ∈ A.seq i
    · simp [hx, hf.gone a hx]
    · rw [if_neg hx, hR.unallocated a]
      by_cases hah : a = (W.lists i).self
      · have := congrArg Option.isSome hf.head
        rw [hah]
        simp only [objects, Option.isSome_map] at this
        rw [this]
      · rw [hf.frame a (by simp [hah, hx])]

omit [DecidableEq ι] in
theorem Represents.setHeap (hR : Represents W A) (he : A.use e ≠ .owned) (h' : Heap w β) (u : Use)
    (hframe : ∀ a ≠ e, h' a = W.heap a) (hfresh : u = .fresh → Constructed h' e)
    (hfree : u = .unallocated ↔ (h' e).isSome = false) :
    Represents (W.setHeap h') (A.setUse e u) ∧ ∀ j, W.Untouched (W.setHeap h') A j := by
  have hne : ∀ j, ∀ a ∈ W.nodes A j, a ≠ e := fun j a ha hae => hR.not_node he j (hae ▸ ha)
  have huse : ∀ a ≠ e, (A.setUse e u).use a = A.use a := fun a ha => Function.update_of_ne ha _ _
  have huse' : (A.setUse e u).use e = u := Function.update_self _ _ _
  refine ⟨⟨fun j => (hR.holds j).frame fun a ha => hframe a (hne j a ha), hR.apart, fun j a ha => ?_,
    fun a ha => ?_, fun a => ?_⟩, fun j => ⟨rfl, fun a ha => hframe a (hne j a ha)⟩⟩
  · rw [huse a (hne j a ha)]
    exact hR.owned j a ha
  · by_cases hae : a = e
    · subst hae
      exact hfresh (huse'.symm.trans ha)
    · rw [huse a hae] at ha
      exact (hR.fresh a ha).frame (hframe a hae)
  · by_cases hae : a = e
    · subst hae
      rw [huse']; exact hfree
    · rw [huse a hae, hR.unallocated a, ← hframe a hae]; rfl

theorem World.step_put {o : ListOp w β ι} (ho : o.list = some i) (he : W.step o = .ok (W', Seqs.spec.out A o))
    (hR : Represents W' (Seqs.spec.next A o) ∧ ∀ j, i ≠ j → W.Untouched W' A j) :
    ∃ W', W.step o = .ok (W', Seqs.spec.out A o) ∧ Represents W' (Seqs.spec.next A o) ∧
      ∀ j, o.list ≠ some j → W.Untouched W' A j := by
  refine ⟨W', he, hR.1, fun j hj => hR.2 j ?_⟩
  rintro rfl
  exact hj ho

/-- **One operation.** A valid operation succeeds, answers as the specification
does, and leaves every list that it is not about as it was. -/
theorem Represents.step (hR : Represents W A) (o : ListOp w β ι) (hv : Seqs.spec.valid A o) :
    ∃ W', W.step o = .ok (W', Seqs.spec.out A o) ∧ Represents W' (Seqs.spec.next A o) ∧
      ∀ j, o.list ≠ some j → W.Untouched W' A j := by
  cases o with
  | construct e object =>
    have hv : A.use e = .unallocated := hv
    obtain ⟨hR', hu⟩ := hR.setHeap (by simp [hv]) (construct W.heap e (some object)) .fresh
      (fun a ha => Function.update_of_ne ha _ _) (fun _ => constructed_construct _ _ _) (by simp [construct])
    exact ⟨_, rfl, hR', fun j _ => hu j⟩
  | insertHead i e =>
    have hv : A.use e = .fresh := hv
    obtain ⟨h', l', he, hs, hl, hr⟩ := insertHead_ok (hR.holds i) (hR.fresh e hv) (hR.not_node (by simp [hv]) i)
    exact World.step_put rfl (by rw [World.step, he, ok_bind]; rfl) (hR.insert hv hs hl hr (.refl _))
  | insertTail i e =>
    have hv : A.use e = .fresh := hv
    obtain ⟨h', l', he, hs, hl, hr⟩ := insertTail_ok (hR.holds i) (hR.fresh e hv) (hR.not_node (by simp [hv]) i)
    exact World.step_put rfl (by rw [World.step, he, ok_bind]; rfl) (hR.insert hv hs hl hr (List.perm_append_singleton e _))
  | removeEntry i e =>
    obtain ⟨ys, zs, hA⟩ := List.append_of_mem (show e ∈ A.seq i from hv)
    have hh := hR.holds i
    rw [hA] at hh
    obtain ⟨h', l', he, hs, hl, hr⟩ := removeEntry_ok ys zs hh
    exact World.step_put rfl (by rw [World.step, he, ok_bind]; rfl) (hR.remove ys zs hA hs hl hr)
  | removeHead i =>
    obtain ⟨e, zs, hA⟩ := List.exists_cons_of_ne_nil (show A.seq i ≠ [] from hv)
    have hh := hR.holds i
    rw [hA] at hh
    obtain ⟨h', l', he, hs, hl, hr⟩ := removeHead_ok hh
    have hR' := hR.remove [] zs hA hs hl hr
    rw [← Seqs.next_removeHead hA] at hR'
    refine World.step_put rfl ?_ hR'
    rw [World.step, he, ok_bind]
    simp [Seqs.spec, Seqs.out, hA]; rfl
  | removeTail i =>
    obtain ⟨ys, e, hA⟩ := (List.eq_nil_or_concat' (A.seq i)).resolve_left (show A.seq i ≠ [] from hv)
    have hh := hR.holds i
    rw [hA] at hh
    obtain ⟨h', l', he, hs, hl, hr⟩ := removeTail_ok hh
    have hR' := hR.remove ys [] hA hs (by rwa [List.append_nil]) (by rwa [List.append_nil])
    rw [← Seqs.next_removeTail hA] at hR'
    refine World.step_put rfl ?_ hR'
    rw [World.step, he, ok_bind]
    simp [Seqs.spec, Seqs.out, hA]; rfl
  | flush i =>
    obtain ⟨h', l', he, hs, hl, hf⟩ := flush_ok (hR.holds i)
    exact World.step_put rfl (by rw [World.step, he, ok_bind]; rfl) (hR.flush hs hl hf)
  | delete e =>
    have hno : A.use e ≠ .owned ∧ A.use e ≠ .unallocated := by
      rcases (show A.use e = .fresh ∨ A.use e = .removed from hv) with h | h <;> simp [h]
    have hlive : (W.heap e).isSome := by
      have := hno.2
      rw [Ne, hR.unallocated e] at this
      simpa [Option.isSome_iff_ne_none] using this
    obtain ⟨hR', hu⟩ := hR.setHeap hno.1 (Function.update W.heap e none) .unallocated
      (fun a ha => Function.update_of_ne ha _ _) (fun h => by cases h) (by simp)
    refine ⟨_, ?_, hR', fun j _ => hu j⟩
    rw [World.step, delete_ok hlive, ok_bind]; rfl

/-! ## Runs -/

theorem step_refines :
    Refines World.step Seqs.spec fun (W : World w β ι) (A : Seqs w ι) => Represents W A :=
  fun _ _ o hR hv =>
    have ⟨W', he, hR', _⟩ := hR.step o hv
    ⟨W', he, hR'⟩

/-- What can be seen of a list that holds `xs`. -/
structure Shows (h : Heap w β) (list : LinkedList w) (xs : List (Addr w)) : Prop where
  distinct : (list.self :: xs).Nodup
  forward : follow (flinks h) (xs.length + 1) list.self = some (xs ++ [list.self])
  backward : follow (blinks h) (xs.length + 1) list.self = some (xs.reverse ++ [list.self])
  inverse : ∀ a ∈ list.self :: xs, ∃ n p, flinks h a = some n ∧ blinks h n = some a ∧
    blinks h a = some p ∧ flinks h p = some a
  count : list.noElements.toNat = xs.length
  iteration : elements h list = .ok xs

omit [DecidableEq ι] in
theorem Holds.shows {h : Heap w β} {list : LinkedList w} {xs : List (Addr w)} (hl : Holds h list xs) :
    Shows h list xs where
  distinct := hl.ring.nodup
  forward := hl.ring.follow
  backward := by
    have := hl.ring.reverse.follow
    rwa [List.length_reverse] at this
  inverse a ha := by
    obtain ⟨n, -, p, -, hn, hp⟩ := hl.ring.consistent ha
    exact ⟨n, p, hn.1, hn.2, hp.2, hp.1⟩
  count := hl.count
  iteration := elements_eq hl

/-- **The lists refine sequences.** Every valid run of operations from
constructed lists goes through, with no assertion failed, and answers what the
sequences answer. In the state reached every list shows its sequence, and the
next valid operation leaves the lists that it is not about untouched. -/
theorem lists_refine_sequences {W : World w β ι} (h0 : W.Init) (os : List (ListOp w β ι))
    (hv : Seqs.spec.Admits W.initial os) :
    ∃ W', execAll World.step W os = .ok (W', Seqs.spec.outs W.initial os) ∧
      (∀ i, Shows W'.heap (W'.lists i) ((Seqs.spec.after W.initial os).seq i)) ∧
      ∀ o, Seqs.spec.valid (Seqs.spec.after W.initial os) o →
        ∃ W'', W'.step o = .ok (W'', Seqs.spec.out (Seqs.spec.after W.initial os) o) ∧
          ∀ j, o.list ≠ some j → W'.Untouched W'' (Seqs.spec.after W.initial os) j := by
  obtain ⟨W', he, hR⟩ := step_refines.run os h0.represents hv
  refine ⟨W', he, fun i => (hR.holds i).shows, ?_⟩
  intro o ho
  obtain ⟨W'', he', -, hu⟩ := hR.step o ho
  exact ⟨W'', he', hu⟩

end

def twoLists : World 8 ℕ Bool where
  heap a := if a = 1 ∨ a = 2 then some ⟨a, a, none⟩ else none
  lists i := ⟨if i then 1 else 2, 0⟩

theorem twoLists_init : twoLists.Init :=
  ⟨fun i => by cases i <;> exact ⟨rfl, rfl⟩, fun _ => rfl, by decide⟩

/-- Entries at both ends of one list and in another; a removal in the middle,
at both ends, and a flush that frees an address for reuse. -/
def twoListsRun : List (ListOp 8 ℕ Bool) :=
  [.construct 10 0, .construct 11 1, .construct 12 2, .construct 13 3, .insertTail true 10, .insertHead true 11,
    .insertTail true 12, .insertTail false 13, .removeEntry true 10, .delete 10, .removeHead true, .removeTail true,
    .flush false, .construct 13 4, .insertHead true 13]

theorem lists_refine_sequences_two : Seqs.spec.Admits twoLists.initial twoListsRun ∧
    ∃ W', execAll World.step twoLists twoListsRun = .ok (W', Seqs.spec.outs twoLists.initial twoListsRun) ∧
      Shows W'.heap (W'.lists true) [13] := by
  have hv : Seqs.spec.Admits twoLists.initial twoListsRun := by decide
  obtain ⟨W', he, hs, -⟩ := lists_refine_sequences twoLists_init twoListsRun hv
  refine ⟨hv, W', he, ?_⟩
  have := hs true
  rwa [show (Seqs.spec.after twoLists.initial twoListsRun).seq true = [13] from by decide] at this

end Dmsk
