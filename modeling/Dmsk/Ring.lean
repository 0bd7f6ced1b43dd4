import Mathlib.Algebra.Group.Nat.Defs
import Mathlib.Data.List.Chain
import Mathlib.Data.List.Nodup
import Mathlib.Data.List.Basic

/-!
# Circular doubly linked rings

A ring has a head that is no element of it. Its links are two partial maps
(`none` is an address that is not allocated), so a ring may be part of a
larger heap. Inserting and removing are stated by what happens to the links
of the two neighbours, at any position of the ring; what lies elsewhere in the
heap does not matter (`IsRing.congr`).
-/

namespace Dmsk

variable {α : Type} {next prev next' prev' : α → Option α}

/-- `b` comes after `a`, by both links. -/
def Link (next prev : α → Option α) (a b : α) : Prop := next a = some b ∧ prev b = some a

/-- The ring through `hd` whose elements are `xs`, in order. -/
structure IsRing (next prev : α → Option α) (hd : α) (xs : List α) : Prop where
  nodup : (hd :: xs).Nodup
  chain : (hd :: (xs ++ [hd])).IsChain (Link next prev)

theorem chain_congr : ∀ {l : List α}, l.IsChain (Link next prev) → (∀ a ∈ l.dropLast, next' a = next a) →
    (∀ b ∈ l.tail, prev' b = prev b) → l.IsChain (Link next' prev')
  | [], _, _, _ => .nil
  | [a], _, _, _ => .singleton a
  | a :: b :: l, h, hn, hp => by
    rw [List.isChain_cons_cons] at h ⊢
    refine ⟨⟨(hn a (by simp)).trans h.1.1, (hp b (by simp)).trans h.1.2⟩, ?_⟩
    refine chain_congr h.2 (fun x hx => hn x ?_) (fun x hx => hp x ?_)
    · rw [List.dropLast_cons_of_ne_nil (by simp)]; exact List.mem_cons_of_mem _ hx
    · exact List.mem_cons_of_mem _ hx

/-! ## Splicing a chain -/

section
variable {as bs : List α} {a b e : α}

theorem dropLast_splice : (as ++ a :: b :: bs).dropLast = as ++ a :: (b :: bs).dropLast := by
  rw [List.dropLast_append_of_ne_nil (by simp), List.dropLast_cons_of_ne_nil (by simp)]

theorem tail_splice : (as ++ a :: b :: bs).tail = (as ++ [a]).tail ++ b :: bs := by
  cases as <;> simp

/-- Two chains keep their links when only those between them are redirected. -/
theorem chain_ends (hl : (as ++ [a]).IsChain (Link next prev)) (hr : (b :: bs).IsChain (Link next prev))
    (hd : (as ++ a :: b :: bs).dropLast.Nodup) (ht : (as ++ a :: b :: bs).tail.Nodup)
    (hn : ∀ x ∈ (as ++ a :: b :: bs).dropLast, x ≠ a → next' x = next x)
    (hp : ∀ x ∈ (as ++ a :: b :: bs).tail, x ≠ b → prev' x = prev x) :
    (as ++ [a]).IsChain (Link next' prev') ∧ (b :: bs).IsChain (Link next' prev') := by
  rw [dropLast_splice] at hd hn
  rw [tail_splice] at ht hp
  have hda := List.nodup_append.mp hd
  have htb := List.nodup_append.mp ht
  refine ⟨chain_congr hl ?_ ?_, chain_congr hr ?_ ?_⟩
  · intro x hx
    rw [List.dropLast_concat] at hx
    exact hn x (by simp [hx]) (fun e => hda.2.2 x hx a (by simp) e)
  · intro x hx
    exact hp x (List.mem_append_left _ hx) (fun e => htb.2.2 x hx b (by simp) e)
  · intro x hx
    refine hn x (by simp [hx]) ?_
    intro e
    subst e; exact (List.nodup_cons.mp hda.2.1).1 hx
  · intro x hx
    refine hp x (by simp [List.mem_of_mem_tail hx]) ?_
    intro e
    subst e; exact (List.nodup_cons.mp htb.2.1).1 hx

end

/-! ## Positions in a ring -/

section
variable {hd : α} {xs ys zs : List α} {e : α}

theorem ring_split (hd : α) (ys zs : List α) :
    ∃ as bs, hd :: ys = as ++ [ys.getLastD hd] ∧ zs ++ [hd] = zs.headD hd :: bs := by
  refine ⟨(hd :: ys).dropLast, (zs ++ [hd]).tail, ?_, ?_⟩
  · have := List.dropLast_append_getLast (List.cons_ne_nil hd ys)
    rw [List.getLast_eq_getLastD] at this
    exact this.symm
  · cases zs <;> rfl

theorem IsRing.nodup_xs (h : IsRing next prev hd xs) : xs.Nodup := (List.nodup_cons.mp h.nodup).2

theorem IsRing.head_notMem (h : IsRing next prev hd xs) : hd ∉ xs := (List.nodup_cons.mp h.nodup).1

theorem ring_dropLast (hd : α) (xs : List α) : (hd :: (xs ++ [hd])).dropLast = hd :: xs := by
  rw [← List.cons_append, List.dropLast_concat]

theorem IsRing.congr (h : IsRing next prev hd xs) (hn : ∀ a ∈ hd :: xs, next' a = next a)
    (hp : ∀ a ∈ hd :: xs, prev' a = prev a) : IsRing next' prev' hd xs where
  nodup := h.nodup
  chain := chain_congr h.chain (by rw [ring_dropLast]; exact hn) fun b hb => hp b (by
    simp only [List.tail_cons, List.mem_append, List.mem_singleton] at hb
    rcases hb with hb | hb
    · exact List.mem_cons_of_mem _ hb
    · simp [hb])

theorem IsRing.link (ys zs : List α) (h : IsRing next prev hd (ys ++ zs)) : Link next prev (ys.getLastD hd) (zs.headD hd) := by
  obtain ⟨as, bs, ha, hb⟩ := ring_split hd ys zs
  have hc := h.chain
  rw [List.append_assoc, hb, ← List.cons_append, ha, List.append_assoc, List.singleton_append,
    List.isChain_append_cons_cons] at hc
  exact hc.2.1

theorem IsRing.next_head (h : IsRing next prev hd xs) : Link next prev hd (xs.headD hd) :=
  IsRing.link [] xs h

theorem IsRing.last_head (h : IsRing next prev hd xs) : Link next prev (xs.getLastD hd) hd :=
  IsRing.link xs [] (by rwa [List.append_nil])

theorem IsRing.elem (h : IsRing next prev hd (ys ++ e :: zs)) :
    Link next prev (ys.getLastD hd) e ∧ Link next prev e (zs.headD hd) := by
  refine ⟨IsRing.link ys (e :: zs) h, ?_⟩
  have := IsRing.link (ys ++ [e]) zs (by rwa [List.append_assoc])
  rwa [List.getLastD_concat] at this

theorem headD_mem (hd : α) (zs : List α) : zs.headD hd ∈ hd :: zs := by cases zs <;> simp

theorem getLastD_mem (hd : α) (ys : List α) : ys.getLastD hd ∈ hd :: ys := by
  rw [← List.getLast_eq_getLastD (h := List.cons_ne_nil hd ys)]; exact List.getLast_mem _

/-- Every node's links come back to it, the head's too. -/
theorem IsRing.consistent (h : IsRing next prev hd xs) {a : α} (ha : a ∈ hd :: xs) :
    ∃ n ∈ hd :: xs, ∃ p ∈ hd :: xs, Link next prev a n ∧ Link next prev p a := by
  rcases List.mem_cons.mp ha with rfl | ha
  · exact ⟨_, headD_mem _ _, _, getLastD_mem _ _, h.next_head, h.last_head⟩
  · obtain ⟨ys, zs, rfl⟩ := List.append_of_mem ha
    refine ⟨_, ?_, _, ?_, h.elem.2, h.elem.1⟩
    · have := headD_mem hd zs
      simp only [List.mem_cons, List.mem_append] at this ⊢; tauto
    · have := getLastD_mem hd ys
      simp only [List.mem_cons, List.mem_append] at this ⊢; tauto

theorem IsRing.reverse (h : IsRing next prev hd xs) : IsRing prev next hd xs.reverse where
  nodup := by
    have := h.nodup
    simpa using this
  chain := by
    have he : hd :: (xs.reverse ++ [hd]) = (hd :: (xs ++ [hd])).reverse := by simp
    rw [he, List.isChain_reverse]
    exact h.chain.imp fun _ _ hl => ⟨hl.2, hl.1⟩

theorem isRing_nil (hn : next hd = some hd) (hp : prev hd = some hd) : IsRing next prev hd [] :=
  ⟨by simp, by simp [Link, hn, hp]⟩

/-! ## Following one link -/

def follow (next : α → Option α) : ℕ → α → Option (List α)
  | 0, _ => some []
  | n + 1, a => do
    let b ← next a
    let l ← follow next n b
    return b :: l

theorem follow_chain : ∀ {l : List α} {a : α}, (a :: l).IsChain (Link next prev) → follow next l.length a = some l
  | [], _, _ => rfl
  | b :: l, a, h => by
    rw [List.isChain_cons_cons] at h
    rw [List.length_cons, follow, h.1.1, Option.bind_eq_bind, Option.bind_some, follow_chain h.2]
    rfl

theorem IsRing.follow (h : IsRing next prev hd xs) : follow next (xs.length + 1) hd = some (xs ++ [hd]) := by
  have := follow_chain h.chain
  rwa [List.length_append, List.length_singleton] at this

/-! ## Inserting and removing -/

/-- The nodes of a ring around the position between `ys` and `zs`. -/
theorem ring_nodes (hd : α) (ys zs : List α) :
    ∃ as bs, hd :: ys = as ++ [ys.getLastD hd] ∧ zs ++ [hd] = zs.headD hd :: bs ∧
      hd :: (ys ++ zs ++ [hd]) = as ++ ys.getLastD hd :: zs.headD hd :: bs ∧
      ∀ e, hd :: (ys ++ e :: zs ++ [hd]) = as ++ ys.getLastD hd :: e :: zs.headD hd :: bs := by
  obtain ⟨as, bs, ha, hb⟩ := ring_split hd ys zs
  refine ⟨as, bs, ha, hb, ?_, ?_⟩
  · rw [List.append_assoc, hb, ← List.cons_append, ha, List.append_assoc, List.singleton_append]
  · intro e
    rw [List.append_assoc, List.cons_append, hb, ← List.cons_append, ha, List.append_assoc, List.singleton_append]

/-- The parts of a ring on both sides of a position keep their links when only
those at the position are redirected. -/
theorem ring_ends (h : (hd :: (ys ++ zs)).Nodup)
    (hl : (hd :: ys).IsChain (Link next prev)) (hr : (zs ++ [hd]).IsChain (Link next prev))
    (hn : ∀ x ∈ hd :: (ys ++ zs), x ≠ ys.getLastD hd → next' x = next x)
    (hp : ∀ x ∈ hd :: (ys ++ zs), x ≠ zs.headD hd → prev' x = prev x) :
    (hd :: ys).IsChain (Link next' prev') ∧ (zs ++ [hd]).IsChain (Link next' prev') := by
  obtain ⟨as, bs, ha, hb, hw, -⟩ := ring_nodes hd ys zs
  rw [ha] at hl ⊢
  rw [hb] at hr ⊢
  apply chain_ends hl hr
  · rw [← hw, ring_dropLast]; exact h
  · rw [← hw]; exact (List.perm_append_singleton hd _).nodup_iff.mpr h
  · rw [← hw, ring_dropLast]; exact hn
  · rw [← hw]
    exact fun x hx => hp x ((List.perm_append_singleton hd _).mem_iff.mp hx)

theorem IsRing.insert (h : IsRing next prev hd (ys ++ zs)) (he : e ∉ hd :: (ys ++ zs))
    (hae : Link next' prev' (ys.getLastD hd) e) (heb : Link next' prev' e (zs.headD hd))
    (hn : ∀ x ∈ hd :: (ys ++ zs), x ≠ ys.getLastD hd → next' x = next x)
    (hp : ∀ x ∈ hd :: (ys ++ zs), x ≠ zs.headD hd → prev' x = prev x) :
    IsRing next' prev' hd (ys ++ e :: zs) := by
  have hperm : (hd :: (ys ++ e :: zs)).Perm (e :: hd :: (ys ++ zs)) :=
    (List.perm_middle.cons hd).trans (List.Perm.swap e hd _)
  refine ⟨hperm.nodup_iff.mpr (List.nodup_cons.mpr ⟨he, h.nodup⟩), ?_⟩
  obtain ⟨as, bs, ha, hb, hw, hwe⟩ := ring_nodes hd ys zs
  have hc := h.chain
  rw [hw, List.isChain_append_cons_cons, ← ha, ← hb] at hc
  have hs := ring_ends h.nodup hc.1 hc.2.2 hn hp
  rw [ha, hb] at hs
  rw [hwe, List.isChain_append_cons_cons, List.isChain_cons_cons]
  exact ⟨hs.1, hae, heb, hs.2⟩

theorem IsRing.remove (h : IsRing next prev hd (ys ++ e :: zs))
    (hab : Link next' prev' (ys.getLastD hd) (zs.headD hd))
    (hn : ∀ x ∈ hd :: (ys ++ zs), x ≠ ys.getLastD hd → next' x = next x)
    (hp : ∀ x ∈ hd :: (ys ++ zs), x ≠ zs.headD hd → prev' x = prev x) :
    IsRing next' prev' hd (ys ++ zs) := by
  have hperm : (hd :: (ys ++ e :: zs)).Perm (e :: hd :: (ys ++ zs)) :=
    (List.perm_middle.cons hd).trans (List.Perm.swap e hd _)
  have hnd := (List.nodup_cons.mp (hperm.nodup_iff.mp h.nodup)).2
  refine ⟨hnd, ?_⟩
  obtain ⟨as, bs, ha, hb, hw, hwe⟩ := ring_nodes hd ys zs
  have hc := h.chain
  rw [hwe, List.isChain_append_cons_cons, List.isChain_cons_cons, ← ha, ← hb] at hc
  have hs := ring_ends hnd hc.1 hc.2.2.2 hn hp
  rw [ha, hb] at hs
  rw [hw, List.isChain_append_cons_cons]
  exact ⟨hs.1, hab, hs.2⟩

end

end Dmsk
