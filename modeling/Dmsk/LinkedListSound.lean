import Dmsk.LinkedList
import Mathlib.Data.List.Perm.Subperm

/-!
# What the list operations do

`Holds h list xs`: in the heap `h` the list is a ring of the entries `xs`, and
its counter counts them. Each operation takes such a list to one, writes the
links of its own nodes only and trips no assertion.
-/

namespace Dmsk

variable {w : ℕ} {β σ : Type} {h h' : Heap w β} {list : LinkedList w} {xs ys zs : List (Addr w)} {e : Addr w}

structure Holds (h : Heap w β) (list : LinkedList w) (xs : List (Addr w)) : Prop where
  ring : IsRing (flinks h) (blinks h) list.self xs
  count : list.noElements.toNat = xs.length

def Constructed (h : Heap w β) (e : Addr w) : Prop := flinks h e = some e ∧ blinks h e = some e

theorem flinks_congr {a : Addr w} (ha : h' a = h a) : flinks h' a = flinks h a := by rw [flinks, flinks, ha]

theorem blinks_congr {a : Addr w} (ha : h' a = h a) : blinks h' a = blinks h a := by rw [blinks, blinks, ha]

theorem objects_congr {a : Addr w} (ha : h' a = h a) : objects h' a = objects h a := by rw [objects, objects, ha]

theorem Holds.frame (hl : Holds h list xs) (hf : ∀ a ∈ list.self :: xs, h' a = h a) : Holds h' list xs :=
  ⟨hl.ring.congr (fun a ha => flinks_congr (hf a ha)) (fun a ha => blinks_congr (hf a ha)), hl.count⟩

theorem Constructed.frame (hc : Constructed h e) (hf : h' e = h e) : Constructed h' e :=
  ⟨(flinks_congr hf).trans hc.1, (blinks_congr hf).trans hc.2⟩

theorem constructed_construct (h : Heap w β) (e : Addr w) (o : Option β) : Constructed (construct h e o) e := by
  simp [Constructed, construct, flinks, blinks]

/-! ## The counter -/

theorem nodup_length_le {l : List (Addr w)} (hl : l.Nodup) : l.length ≤ 2 ^ w := by
  have hn : (l.map BitVec.toNat).Nodup := hl.map fun _ _ => BitVec.eq_of_toNat_eq
  have hs : l.map BitVec.toNat ⊆ List.range (2 ^ w) := by
    intro n hn
    obtain ⟨a, -, rfl⟩ := List.mem_map.mp hn
    exact List.mem_range.mpr a.isLt
  simpa using (List.subperm_of_subset hn hs).length_le

theorem IsRing.length_lt {next prev : Addr w → Option (Addr w)} {hd : Addr w} (hr : IsRing next prev hd xs) :
    xs.length < 2 ^ w := nodup_length_le hr.nodup

theorem count_add {n : BitVec w} (hn : n.toNat = xs.length) (hx : xs.length + 1 < 2 ^ w) :
    (n + 1).toNat = xs.length + 1 := by
  have h1 : (1#w).toNat = 1 := by
    rw [BitVec.toNat_ofNat, Nat.mod_eq_of_lt (by omega)]
  have : (n + 1#w).toNat = _ := BitVec.toNat_add n 1#w
  rw [show (n + 1 : BitVec w) = n + 1#w from rfl, this, h1, hn, Nat.mod_eq_of_lt hx]

theorem count_sub {n : BitVec w} {k : ℕ} (hn : n.toNat = k + 1) : (n - 1).toNat = k := by
  have hlt := n.isLt
  have h1 : (1#w).toNat = 1 := by
    rw [BitVec.toNat_ofNat, Nat.mod_eq_of_lt (by omega)]
  rw [show (n - 1 : BitVec w) = n - 1#w from rfl, BitVec.toNat_sub_of_le (by rw [BitVec.le_def, h1]; omega), h1, hn]
  omega

theorem isListEmpty_iff (hl : Holds h list xs) : isListEmpty list = true ↔ xs = [] := by
  have := hl.count
  rw [isListEmpty, decide_eq_true_eq, ← List.length_eq_zero_iff, ← this]
  constructor
  · intro he; simp [he]
  · intro he; exact BitVec.eq_of_toNat_eq (by simpa using he)

/-! ## Assertions -/

theorem checkListEntry_ok {a n p : Addr w} (hn : Link (flinks h) (blinks h) a n)
    (hp : Link (flinks h) (blinks h) p a) : checkListEntry h a = .ok () := by
  rw [checkListEntry, getFlink_ok hn.1, ok_bind, getBlink_ok hn.2, ok_bind, ntAssert, if_pos rfl, ok_bind,
    getBlink_ok hp.2, ok_bind, getFlink_ok hp.1, ok_bind, ntAssert, if_pos rfl]

theorem checkListEntry_node {hd a : Addr w} (hr : IsRing (flinks h) (blinks h) hd xs) (ha : a ∈ hd :: xs) :
    checkListEntry h a = .ok () := by
  obtain ⟨n, -, p, -, hn, hp⟩ := hr.consistent ha
  exact checkListEntry_ok hn hp

theorem fastFailOnCorruption_ok (hr : IsRing (flinks h) (blinks h) list.self xs)
    (he : checkListEntry h e = .ok ()) : fastFailOnCorruption h list e = .ok () := by
  rw [fastFailOnCorruption, he, ok_bind, getFlink_ok hr.next_head.1, ok_bind,
    checkListEntry_node hr (headD_mem _ _), ok_bind, getBlink_ok hr.last_head.2, ok_bind,
    checkListEntry_node hr (getLastD_mem _ _)]

theorem Constructed.check (hc : Constructed h e) : checkListEntry h e = .ok () := checkListEntry_ok hc hc

theorem IsRing.live {hd a : Addr w} (hr : IsRing (flinks h) (blinks h) hd xs) (ha : a ∈ hd :: xs) :
    (h a).isSome := by
  obtain ⟨n, -, p, -, hn, -⟩ := hr.consistent ha
  exact live_of_flinks hn.1

/-! ## Inserting -/

/-- The links that both insertions write, around the position between `ys` and `zs`. -/
theorem splice_in (ys zs : List (Addr w)) {f b : Addr w → Option (Addr w)} {hd : Addr w} (hr : IsRing f b hd (ys ++ zs))
    (he : e ∉ hd :: (ys ++ zs)) :
    IsRing (Function.update (Function.update f e (some (zs.headD hd))) (ys.getLastD hd) (some e))
      (Function.update (Function.update b e (some (ys.getLastD hd))) (zs.headD hd) (some e)) hd
      (ys ++ e :: zs) := by
  have hne : ∀ x ∈ hd :: (ys ++ zs), x ≠ e := fun x hx hxe => he (hxe ▸ hx)
  have hl : ys.getLastD hd ∈ hd :: (ys ++ zs) := by
    have := getLastD_mem hd ys
    simp only [List.mem_cons, List.mem_append] at this ⊢; tauto
  have hh : zs.headD hd ∈ hd :: (ys ++ zs) := by
    have := headD_mem hd zs
    simp only [List.mem_cons, List.mem_append] at this ⊢; tauto
  refine hr.insert he ⟨by simp, ?_⟩ ⟨?_, by simp⟩ ?_ ?_
  · rw [Function.update_of_ne (Ne.symm (hne _ hh))]; simp
  · rw [Function.update_of_ne (Ne.symm (hne _ hl))]; simp
  · intro x hx hxl
    rw [Function.update_of_ne hxl, Function.update_of_ne (hne x hx)]
  · intro x hx hxl
    rw [Function.update_of_ne hxl, Function.update_of_ne (hne x hx)]

theorem insertTail_ok (hl : Holds h list xs) (hc : Constructed h e) (he : e ∉ list.self :: xs) :
    ∃ h' list', insertTail h list e = .ok (h', list') ∧ list'.self = list.self ∧ Holds h' list' (xs ++ [e]) ∧
      Relinked h h' (e :: list.self :: xs) := by
  have hr := hl.ring
  have hse : list.self ≠ e := fun hs => he (by simp [hs])
  have hself := hr.live (a := list.self) (by simp)
  have hlast := hr.live (getLastD_mem list.self xs)
  obtain ⟨h1, e1, f1, b1, r1⟩ := setBlink_ok (live_of_flinks hc.1) (xs.getLastD list.self)
  obtain ⟨h2, e2, f2, b2, r2⟩ := setFlink_ok ((r1.live e).trans (live_of_flinks hc.1)) list.self
  have r12 := r1.trans r2
  have hb2 : blinks h2 list.self = some (xs.getLastD list.self) := by
    rw [b2, b1, Function.update_of_ne hse]; exact hr.last_head.2
  obtain ⟨h3, e3, f3, b3, r3⟩ := setFlink_ok ((r12.live _).trans hlast) e
  obtain ⟨h4, e4, f4, b4, r4⟩ := setBlink_ok (((r12.trans r3).live _).trans hself) e
  have hw : IsRing (flinks h4) (blinks h4) list.self (xs ++ [e]) := by
    rw [f4, f3, f2, f1, b4, b3, b2, b1]
    exact splice_in xs [] (by rwa [List.append_nil]) (by rwa [List.append_nil])
  refine ⟨h4, { list with noElements := list.noElements + 1 }, ?_, rfl, ⟨hw, ?_⟩, ((r12.trans r3).trans r4).objects, ?_⟩
  · rw [insertTail, fastFailOnCorruption_ok hr hc.check, ok_bind, getBlink_ok hr.last_head.2, ok_bind, e1, ok_bind,
      e2, ok_bind, getBlink_ok hb2, ok_bind, e3, ok_bind, e4, ok_bind]
    rfl
  · have := hw.length_lt
    rw [List.length_append, List.length_singleton] at this ⊢
    exact count_add hl.count this
  · intro a ha
    refine ((r12.trans r3).trans r4).frame a fun ha' => ha ?_
    have := getLastD_mem list.self xs
    simp only [List.mem_cons, List.mem_append, List.not_mem_nil, or_false] at ha' this ⊢
    rcases ha' with ((rfl | rfl) | rfl) | rfl <;> tauto

theorem insertHead_ok (hl : Holds h list xs) (hc : Constructed h e) (he : e ∉ list.self :: xs) :
    ∃ h' list', insertHead h list e = .ok (h', list') ∧ list'.self = list.self ∧ Holds h' list' (e :: xs) ∧
      Relinked h h' (e :: list.self :: xs) := by
  have hr := hl.ring
  have hse : list.self ≠ e := fun hs => he (by simp [hs])
  have hself := hr.live (a := list.self) (by simp)
  have hfirst := hr.live (headD_mem list.self xs)
  obtain ⟨h1, e1, f1, b1, r1⟩ := setFlink_ok (live_of_flinks hc.1) (xs.headD list.self)
  obtain ⟨h2, e2, f2, b2, r2⟩ := setBlink_ok ((r1.live e).trans (live_of_flinks hc.1)) list.self
  have r12 := r1.trans r2
  have hf2 : flinks h2 list.self = some (xs.headD list.self) := by
    rw [f2, f1, Function.update_of_ne hse]; exact hr.next_head.1
  obtain ⟨h3, e3, f3, b3, r3⟩ := setBlink_ok ((r12.live _).trans hfirst) e
  obtain ⟨h4, e4, f4, b4, r4⟩ := setFlink_ok (((r12.trans r3).live _).trans hself) e
  have hw : IsRing (flinks h4) (blinks h4) list.self (e :: xs) := by
    rw [f4, f3, f2, f1, b4, b3, b2, b1]
    exact splice_in [] xs hr he
  refine ⟨h4, { list with noElements := list.noElements + 1 }, ?_, rfl, ⟨hw, ?_⟩,
    ((r12.trans r3).trans r4).objects, fun a ha => ?_⟩
  · rw [insertHead, fastFailOnCorruption_ok hr hc.check, ok_bind, getFlink_ok hr.next_head.1, ok_bind, e1, ok_bind,
      e2, ok_bind, getFlink_ok hf2, ok_bind, e3, ok_bind, e4, ok_bind]
    rfl
  · have := hw.length_lt
    rw [List.length_cons] at this ⊢
    exact count_add hl.count this
  · refine ((r12.trans r3).trans r4).frame a fun ha' => ha ?_
    have := headD_mem list.self xs
    simp only [List.mem_cons, List.mem_append, List.not_mem_nil, or_false] at ha' this ⊢
    rcases ha' with ((rfl | rfl) | rfl) | rfl <;> tauto

/-! ## Removing -/

theorem removeEntry_ok (ys zs : List (Addr w)) (hl : Holds h list (ys ++ e :: zs)) :
    ∃ h' list', removeEntry h list e = .ok (h', list') ∧ list'.self = list.self ∧ Holds h' list' (ys ++ zs) ∧
      Relinked h h' (list.self :: (ys ++ zs)) := by
  have hr := hl.ring
  obtain ⟨hprev, hnext⟩ := hr.elem
  have hmp : ys.getLastD list.self ∈ list.self :: (ys ++ zs) := by
    have := getLastD_mem list.self ys
    simp only [List.mem_cons, List.mem_append] at this ⊢; tauto
  have hmn : zs.headD list.self ∈ list.self :: (ys ++ zs) := by
    have := headD_mem list.self zs
    simp only [List.mem_cons, List.mem_append] at this ⊢; tauto
  have hsub : ∀ a ∈ list.self :: (ys ++ zs), a ∈ list.self :: (ys ++ e :: zs) := by
    intro a ha
    simp only [List.mem_cons, List.mem_append] at ha ⊢; tauto
  obtain ⟨h1, e1, f1, b1, r1⟩ := setBlink_ok (hr.live (hsub _ hmn)) (ys.getLastD list.self)
  obtain ⟨h2, e2, f2, b2, r2⟩ := setFlink_ok ((r1.live _).trans (hr.live (hsub _ hmp))) (zs.headD list.self)
  have hw : IsRing (flinks h2) (blinks h2) list.self (ys ++ zs) := by
    rw [f2, f1, b2, b1]
    exact hr.remove ⟨by simp, by simp⟩ (fun x _ hx => Function.update_of_ne hx _ _)
      (fun x _ hx => Function.update_of_ne hx _ _)
  refine ⟨h2, { list with noElements := list.noElements - 1 }, ?_, rfl, ⟨hw, ?_⟩, (r1.trans r2).objects,
    fun a ha => ?_⟩
  · rw [removeEntry, fastFailOnCorruption_ok hr (checkListEntry_node hr (by simp)), ok_bind, getFlink_ok hnext.1,
      ok_bind, getBlink_ok hprev.2, ok_bind, e1, ok_bind, e2, ok_bind]
    rfl
  · refine count_sub (hl.count.trans ?_)
    simp only [List.length_append, List.length_cons]; omega
  · refine (r1.trans r2).frame a fun ha' => ha ?_
    simp only [List.mem_append, List.mem_singleton] at ha'
    rcases ha' with rfl | rfl
    · exact hmn
    · exact hmp

theorem removeHead_ok (hl : Holds h list (e :: zs)) :
    ∃ h' list', removeHead h list = .ok ((h', list'), e) ∧ list'.self = list.self ∧ Holds h' list' zs ∧
      Relinked h h' (list.self :: zs) := by
  obtain ⟨h', list', he, hs⟩ := removeEntry_ok [] zs hl
  refine ⟨h', list', ?_, hs⟩
  rw [removeHead, getFlink_ok hl.ring.next_head.1, ok_bind, List.headD_cons, he, ok_bind]; rfl

theorem removeTail_ok (hl : Holds h list (ys ++ [e])) :
    ∃ h' list', removeTail h list = .ok ((h', list'), e) ∧ list'.self = list.self ∧ Holds h' list' ys ∧
      Relinked h h' (list.self :: ys) := by
  obtain ⟨h', list', he, hs⟩ := removeEntry_ok ys [] hl
  rw [List.append_nil] at hs
  refine ⟨h', list', ?_, hs⟩
  have hb := hl.ring.last_head.2
  rw [List.getLastD_concat] at hb
  rw [removeTail, getBlink_ok hb, ok_bind, he, ok_bind]; rfl

/-! ## Flushing -/

/-- `h'` is `h` without the entries `xs`, up to the links of `hd`. -/
structure Freed (h h' : Heap w β) (hd : Addr w) (xs : List (Addr w)) : Prop where
  gone : ∀ a ∈ xs, h' a = none
  head : objects h' hd = objects h hd
  frame : ∀ a ∉ hd :: xs, h' a = h a

theorem delete_ok {a : Addr w} (ha : (h a).isSome) : delete h a = .ok (Function.update h a none) := by
  obtain ⟨e, he⟩ := Option.isSome_iff_exists.mp ha
  rw [delete, load_ok he]; rfl

/-- One pass: the first entry is taken out and deleted. -/
theorem flush_pass (hl : Holds h list (e :: zs)) : e ∉ list.self :: zs ∧
    ∃ h₁ list₁, removeHead h list = .ok ((h₁, list₁), e) ∧ list₁.self = list.self ∧ (h₁ e).isSome ∧
      Holds (Function.update h₁ e none) list₁ zs ∧ Relinked h h₁ (list.self :: zs) := by
  obtain ⟨h₁, list₁, e₁, s₁, l₁, r₁⟩ := removeHead_ok hl
  have hnd := hl.ring.nodup
  have he : e ∉ list.self :: zs := by
    simp only [List.nodup_cons, List.mem_cons, not_or] at hnd ⊢
    exact ⟨Ne.symm hnd.1.1, hnd.2.1⟩
  refine ⟨he, h₁, list₁, e₁, s₁, (r₁.live e).trans (hl.ring.live (by simp)), l₁.frame ?_, r₁⟩
  intro a ha
  refine Function.update_of_ne (fun hae => he ?_) _ _
  rw [← s₁, ← hae]
  exact ha

theorem flushLoop_ok : ∀ {xs : List (Addr w)} {h : Heap w β} {list : LinkedList w}, Holds h list xs →
    ∃ h' list', flushLoop xs.length h list = .ok (h', list') ∧ list'.self = list.self ∧ Holds h' list' [] ∧
      Freed h h' list.self xs
  | [], h, list, hl => by
    refine ⟨h, list, ?_, rfl, hl, by simp, rfl, fun _ _ => rfl⟩
    rw [List.length_nil, flushLoop, if_pos ((isListEmpty_iff hl).mpr rfl)]
  | e :: xs, h, list, hl => by
    obtain ⟨he, h1, list1, e1, s1, hlive, l2, r1⟩ := flush_pass hl
    have hfr : ∀ a ≠ e, Function.update h1 e none a = h1 a := fun a ha => Function.update_of_ne ha _ _
    obtain ⟨h', list', e2, s2, l3, hg, ho, hf⟩ := flushLoop_ok l2
    rw [s1] at ho hf
    refine ⟨h', list', ?_, s2.trans s1, l3, ?_, ?_, ?_⟩
    · rw [List.length_cons, flushLoop, if_neg (by rw [isListEmpty_iff hl]; simp), e1, ok_bind]
      exact (congrArg (· >>= fun h => flushLoop xs.length h list1) (delete_ok hlive)).trans e2
    · intro a ha
      rcases List.mem_cons.mp ha with rfl | ha
      · exact (hf a he).trans (Function.update_self _ _ _)
      · exact hg a ha
    · refine ho.trans ((objects_congr (hfr _ ?_)).trans (congrFun r1.objects _))
      exact fun hs => he (by simp [hs])
    · intro a ha
      simp only [List.mem_cons, not_or] at ha
      rw [hf a (by simp [ha.1, ha.2.2]), hfr a ha.2.1]
      exact r1.frame a (by simp [ha.1, ha.2.2])

theorem flush_ok (hl : Holds h list xs) :
    ∃ h' list', flush h list = .ok (h', list') ∧ list'.self = list.self ∧ Holds h' list' [] ∧
      Freed h h' list.self xs := by
  rw [flush, hl.count]; exact flushLoop_ok hl

/-! ## Iterating -/

theorem iterateFrom_ok (body : Addr w → σ → Except Fault (ForInStep σ)) : ∀ {zs : List (Addr w)} {n : ℕ} (ys : List (Addr w)) (s : σ),
    Holds h list (ys ++ zs) → zs.length < n →
    iterateFrom h list body n (zs.headD list.self) s = forIn zs s body
  | [], n + 1, _, s, _, _ => by
    rw [List.headD_nil, iterateFrom, if_pos rfl]; rfl
  | e :: zs, n + 1, ys, s, hl, hn => by
    have hne : e ≠ list.self := fun he => hl.ring.head_notMem (by simp [he])
    rw [List.headD_cons, iterateFrom, if_neg hne, List.forIn_cons]
    refine congrArg (body e s >>= ·) (funext ?_)
    intro r
    cases r with
    | done s => rfl
    | yield s =>
      simp only [getFlink_ok hl.ring.elem.2.1, ok_bind]
      exact iterateFrom_ok body (ys ++ [e]) s (by rwa [List.append_assoc]) (by simpa using hn)

theorem iterate_eq (hl : Holds h list xs) (s : σ) (body : Addr w → σ → Except Fault (ForInStep σ)) :
    iterate h list s body = forIn xs s body := by
  rw [iterate, getFlink_ok hl.ring.next_head.1, ok_bind]
  exact iterateFrom_ok body [] s hl hl.ring.length_lt

theorem forIn_snoc : ∀ (xs acc : List (Addr w)),
    (forIn xs acc fun it s => (return .yield (s ++ [it]) : Except Fault _)) = .ok (acc ++ xs)
  | [], acc => by rw [List.append_nil]; rfl
  | x :: xs, acc => by
    rw [List.forIn_cons, pure_bind]
    simpa using forIn_snoc xs (acc ++ [x])

theorem elements_eq (hl : Holds h list xs) : elements h list = .ok xs := by
  rw [elements, iterate_eq hl]; exact forIn_snoc xs []

end Dmsk
