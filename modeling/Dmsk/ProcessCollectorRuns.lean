import Dmsk.ProcessCollector
import Dmsk.Refinement
import Mathlib.Data.List.Perm.Basic

/-!
# Runs of the process collector

What the collector is for is said by `Collection`: the records in the order of
their insertion, each with its number among all insertions, so that records of
one pid, and of one reused address, are told apart. Requests to the collector
do to its records what they do to a collection.
-/

namespace Dmsk

variable {w : ℕ}

namespace ProcessCollector

/-- The destructor, and after it the one of `activeProcesses`. -/
def destruct (c : ProcessCollector w) : Except Fault (ProcessCollector w) := do
  let (h, list) ← flush c.heap c.activeProcesses
  let (h, list) ← flush h list
  return ⟨h, list⟩

inductive Request (w : ℕ)
  | insertProcess (process : Option (Addr w)) (pid : Handle w)
  | terminateProcess (pid : Handle w)
  | getProcess (pid : Handle w)
  | setMainThreadCreated (pid : Handle w) (process : Addr w)
deriving DecidableEq, Repr

def Request.pid : Request w → Handle w
  | .insertProcess _ pid => pid
  | .terminateProcess pid => pid
  | .getProcess pid => pid
  | .setMainThreadCreated pid _ => pid

def step (c : ProcessCollector w) : Request w → Except Fault (ProcessCollector w × Option (Addr w))
  | .insertProcess process pid => return (← c.insertProcess process pid, none)
  | .terminateProcess pid => return (← c.terminateProcess pid, none)
  | .getProcess pid => return (c, ← c.getProcess pid)
  | .setMainThreadCreated _ process => return (← c.setMainThreadCreated process, none)

end ProcessCollector

/-! ## Collections -/

structure Record (w : ℕ) where
  number : ℕ
  address : Addr w
  process : Process w
deriving DecidableEq, Repr

def Record.entry (r : Record w) : Addr w × Process w := (r.address, r.process)

def Record.mark (a : Addr w) (r : Record w) : Record w :=
  if r.address = a then { r with process := { r.process with wasMainThreadCreated := true } } else r

/-- `live` tells the memory in use, by records or by others. -/
structure Collection (w : ℕ) where
  records : List (Record w)
  inserted : ℕ
  deleted : List ℕ
  live : Addr w → Bool

namespace Collection

open ProcessCollector (Request)

def oldest (A : Collection w) (pid : Handle w) : Option (Record w) := A.records.find? fun r => r.process.pid = pid

def numbers (A : Collection w) : List ℕ := A.records.map (·.number)

def others (A : Collection w) (pid : Handle w) : List (Record w) := A.records.filter fun r => r.process.pid ≠ pid

def insert (A : Collection w) (address : Addr w) (pid : Handle w) : Collection w where
  records := A.records ++ [⟨A.inserted, address, ⟨pid, false⟩⟩]
  inserted := A.inserted + 1
  deleted := A.deleted
  live := Function.update A.live address true

def delete (A : Collection w) (r : Record w) : Collection w where
  records := A.records.eraseP fun q => q.process.pid = r.process.pid
  inserted := A.inserted
  deleted := A.deleted ++ [r.number]
  live := Function.update A.live r.address false

def mark (A : Collection w) (a : Addr w) : Collection w := { A with records := A.records.map (Record.mark a) }

def terminate (A : Collection w) (pid : Handle w) : Collection w :=
  match A.oldest pid with
  | none => A
  | some r => A.delete r

/-- The allocator returns memory that is not in use. A flag is set through what
`GetProcess` returns; a pointer kept past the termination of its record is none
of the requests. -/
def valid (A : Collection w) : Request w → Prop
  | .insertProcess process _ => ∀ a ∈ process, A.live a = false
  | .terminateProcess _ => True
  | .getProcess _ => True
  | .setMainThreadCreated pid process => (A.oldest pid).map (·.address) = some process

def next (A : Collection w) : Request w → Collection w
  | .insertProcess none _ => A
  | .insertProcess (some a) pid => A.insert a pid
  | .terminateProcess pid => A.terminate pid
  | .getProcess _ => A
  | .setMainThreadCreated _ process => A.mark process

def out (A : Collection w) : Request w → Option (Addr w)
  | .insertProcess _ _ => none
  | .terminateProcess _ => none
  | .getProcess pid => (A.oldest pid).map (·.address)
  | .setMainThreadCreated _ _ => none

def spec : Spec (Collection w) (Request w) (Option (Addr w)) where
  valid := valid
  next := next
  out := out

instance (A : Collection w) (r : Request w) : Decidable (spec.valid A r) :=
  match r with
  | .insertProcess none _ => .isTrue fun _ h => nomatch h
  | .insertProcess (some a) _ => decidable_of_iff (A.live a = false) (by simp [spec, valid])
  | .terminateProcess _ => .isTrue trivial
  | .getProcess _ => .isTrue trivial
  | .setMainThreadCreated pid process =>
    inferInstanceAs (Decidable ((A.oldest pid).map (·.address) = some process))

/-! ### What holds of every collection -/

/-- Numbers grow along the list, and every number given is deleted or in the
list, and not both. -/
structure Accounted (A : Collection w) : Prop where
  sorted : A.numbers.Pairwise (· < ·)
  once : (A.deleted ++ A.numbers).Perm (List.range A.inserted)

theorem oldest_mem {A : Collection w} {pid : Handle w} {r : Record w} (h : A.oldest pid = some r) :
    r ∈ A.records ∧ r.process.pid = pid :=
  ⟨List.mem_of_find?_eq_some h, by simpa using List.find?_some h⟩

theorem oldest_split {A : Collection w} {pid : Handle w} {r : Record w} (h : A.oldest pid = some r) :
    ∃ ys zs, A.records = ys ++ r :: zs ∧ (A.delete r).records = ys ++ zs := by
  obtain ⟨hp, ys, zs, hrs, hys⟩ := List.find?_eq_some_iff_append.mp h
  have hpid := (oldest_mem h).2
  refine ⟨ys, zs, hrs, ?_⟩
  show A.records.eraseP (fun q => q.process.pid = r.process.pid) = ys ++ zs
  rw [hpid, hrs, List.eraseP_append_right _ (by simpa using hys)]
  exact congrArg (ys ++ ·) (List.eraseP_cons_of_pos hp)

theorem numbers_mark (A : Collection w) (a : Addr w) : (A.mark a).numbers = A.numbers := by
  unfold numbers mark
  rw [List.map_map]
  apply List.map_congr_left
  intro r _
  by_cases h : r.address = a <;> simp [Record.mark, h]

theorem Accounted.insert {A : Collection w} (hA : A.Accounted) (a : Addr w) (pid : Handle w) :
    (A.insert a pid).Accounted := by
  have hn : (A.insert a pid).numbers = A.numbers ++ [A.inserted] := by simp [numbers, Collection.insert]
  have hlt : ∀ n ∈ A.numbers, n < A.inserted := by
    intro n hm
    have := hA.once.mem_iff.mp (List.mem_append_right _ hm)
    exact List.mem_range.mp this
  constructor
  · rw [hn, List.pairwise_append]
    refine ⟨hA.sorted, List.pairwise_singleton _ _, ?_⟩
    intro n hm k hk
    rw [List.mem_singleton.mp hk]
    exact hlt n hm
  · rw [hn]
    show (A.deleted ++ (A.numbers ++ [A.inserted])).Perm (List.range (A.inserted + 1))
    rw [← List.append_assoc, List.range_succ]
    exact hA.once.append_right _

theorem Accounted.delete {A : Collection w} (hA : A.Accounted) {pid : Handle w} {r : Record w}
    (h : A.oldest pid = some r) : (A.delete r).Accounted := by
  obtain ⟨ys, zs, hrs, hdel⟩ := oldest_split h
  have hn : A.numbers = ys.map (·.number) ++ r.number :: zs.map (·.number) := by simp [numbers, hrs]
  have hn' : (A.delete r).numbers = ys.map (·.number) ++ zs.map (·.number) := by simp [numbers, hdel]
  constructor
  · have := hA.sorted
    rw [hn] at this
    rw [hn']
    exact this.sublist (List.Sublist.append_left (List.sublist_cons_self _ _) _)
  · rw [hn']
    show (A.deleted ++ [r.number] ++ (ys.map (·.number) ++ zs.map (·.number))).Perm (List.range A.inserted)
    refine List.Perm.trans ?_ hA.once
    rw [hn, List.append_assoc, List.singleton_append]
    apply List.Perm.append_left
    exact List.perm_middle.symm

theorem Accounted.terminate {A : Collection w} (hA : A.Accounted) (pid : Handle w) : (A.terminate pid).Accounted := by
  unfold Collection.terminate
  cases h : A.oldest pid with
  | none => exact hA
  | some r => exact hA.delete h

theorem Accounted.next {A : Collection w} (hA : A.Accounted) (r : Request w) : (A.next r).Accounted := by
  cases r with
  | insertProcess process pid =>
    cases process with
    | none => exact hA
    | some a => exact hA.insert a pid
  | terminateProcess pid => exact hA.terminate pid
  | getProcess pid => exact hA
  | setMainThreadCreated pid process =>
    constructor
    · show (A.mark process).numbers.Pairwise (· < ·)
      rw [numbers_mark]
      exact hA.sorted
    · show (A.deleted ++ (A.mark process).numbers).Perm (List.range A.inserted)
      rw [numbers_mark]
      exact hA.once

theorem Accounted.after : ∀ (rs : List (Request w)) {A : Collection w}, A.Accounted → (spec.after A rs).Accounted := by
  intro rs
  induction rs with
  | nil => intro A hA; exact hA
  | cons r rs ih => intro A hA; exact ih (hA.next r)

/-- What is in use beside `live₀` belongs to the records. -/
structure Owned (live₀ : Addr w → Bool) (A : Collection w) : Prop where
  others : ∀ a, live₀ a = true → A.live a = true ∧ ∀ r ∈ A.records, r.address ≠ a
  records : ∀ a, A.live a = true → live₀ a = true ∨ ∃ r ∈ A.records, r.address = a

section
variable {live₀ : Addr w → Bool} {A : Collection w}

theorem Owned.insert (hA : A.Owned live₀) {a : Addr w} (ha : A.live a = false) (pid : Handle w) :
    (A.insert a pid).Owned live₀ := by
  have hlive : ∀ b, b ≠ a → (A.insert a pid).live b = A.live b := fun b hb => Function.update_of_ne hb _ _
  constructor
  · intro b hb
    have hba : b ≠ a := by
      intro h
      subst h
      rw [(hA.others b hb).1] at ha
      cases ha
    refine ⟨(hlive b hba).trans (hA.others b hb).1, ?_⟩
    intro r hr
    rcases List.mem_append.mp hr with hr | hr
    · exact (hA.others b hb).2 r hr
    · rw [List.mem_singleton.mp hr]
      exact hba.symm
  · intro b hb
    by_cases hba : b = a
    · exact .inr ⟨_, List.mem_append_right _ (List.mem_singleton_self _), hba.symm⟩
    · rw [hlive b hba] at hb
      rcases hA.records b hb with h | ⟨r, hr, h⟩
      · exact .inl h
      · exact .inr ⟨r, List.mem_append_left _ hr, h⟩

theorem Owned.terminate (hA : A.Owned live₀) (pid : Handle w) : (A.terminate pid).Owned live₀ := by
  unfold Collection.terminate
  cases h : A.oldest pid with
  | none => exact hA
  | some r =>
    obtain ⟨ys, zs, hrs, hdel⟩ := oldest_split h
    have hmem := (oldest_mem h).1
    have hlive : ∀ b, b ≠ r.address → (A.delete r).live b = A.live b := fun b hb => Function.update_of_ne hb _ _
    constructor
    · intro b hb
      have hrb := (hA.others b hb).2
      refine ⟨(hlive b (hrb r hmem).symm).trans (hA.others b hb).1, ?_⟩
      intro q hq
      apply hrb q
      simp only [hdel, List.mem_append] at hq
      simp only [hrs, List.mem_append, List.mem_cons]
      tauto
    · intro b hb
      by_cases hbr : b = r.address
      · subst hbr
        rw [show (A.delete r).live r.address = false from Function.update_self _ _ _] at hb
        cases hb
      · rw [hlive b hbr] at hb
        rcases hA.records b hb with h' | ⟨q, hq, h'⟩
        · exact .inl h'
        · refine .inr ⟨q, ?_, h'⟩
          simp only [hrs, List.mem_append, List.mem_cons] at hq
          simp only [hdel, List.mem_append]
          rcases hq with hq | rfl | hq
          · exact .inl hq
          · exact absurd h'.symm hbr
          · exact .inr hq

theorem Owned.mark (hA : A.Owned live₀) (a : Addr w) : (A.mark a).Owned live₀ := by
  have haddr : ∀ q : Record w, (Record.mark a q).address = q.address := by
    intro q
    by_cases hq : q.address = a <;> simp [Record.mark, hq]
  constructor
  · intro b hb
    refine ⟨(hA.others b hb).1, ?_⟩
    intro q hq
    obtain ⟨r, hr, rfl⟩ := List.mem_map.mp hq
    rw [haddr]
    exact (hA.others b hb).2 r hr
  · intro b hb
    rcases hA.records b hb with h | ⟨q, hq, h⟩
    · exact .inl h
    · exact .inr ⟨_, List.mem_map_of_mem hq, (haddr q).trans h⟩

theorem Owned.next (hA : A.Owned live₀) (r : Request w) (hv : spec.valid A r) : (A.next r).Owned live₀ := by
  cases r with
  | insertProcess process pid =>
    cases process with
    | none => exact hA
    | some a => exact hA.insert (hv a rfl) pid
  | terminateProcess pid => exact hA.terminate pid
  | getProcess pid => exact hA
  | setMainThreadCreated pid process => exact hA.mark process

theorem Owned.after : ∀ (rs : List (Request w)) {A : Collection w}, A.Owned live₀ → spec.Admits A rs →
    (spec.after A rs).Owned live₀ := by
  intro rs
  induction rs with
  | nil => intro A hA _; exact hA
  | cons r rs ih => intro A hA hv; exact ih (hA.next r hv.1) hv.2

end

end Collection

/-! ## The collector represents a collection -/

open ProcessCollector (Request)

structure RepresentsCollection (c : ProcessCollector w) (A : Collection w) : Prop where
  records : Records c (A.records.map Record.entry)
  live : ∀ a, A.live a = (c.heap a).isSome

namespace RepresentsCollection

variable {c : ProcessCollector w} {A : Collection w}

theorem find_eq (A : Collection w) (pid : Handle w) :
    ((A.records.map Record.entry).find? fun e => e.2.pid = pid) = (A.oldest pid).map Record.entry :=
  List.find?_map

theorem unique (hR : RepresentsCollection c A) {r q : Record w} (hr : r ∈ A.records) (hq : q ∈ A.records)
    (h : r.address = q.address) : r = q := by
  have hnd := hR.records.nodup
  rw [List.map_map] at hnd
  exact List.inj_on_of_nodup_map hnd hr hq h

theorem free (hR : RepresentsCollection c A) {a : Addr w} (ha : A.live a = false) : c.heap a = none := by
  rw [hR.live a] at ha
  simpa using ha

theorem insert (hR : RepresentsCollection c A) {a : Addr w} (ha : A.live a = false) (pid : Handle w) :
    ∃ c', c.insertProcess (some a) pid = .ok c' ∧ RepresentsCollection c' (A.insert a pid) := by
  obtain ⟨c', he, hc, hl⟩ := hR.records.insertProcess_ok (hR.free ha) pid
  refine ⟨c', he, ?_, ?_⟩
  · simpa [Collection.insert, Record.entry] using hc
  · intro b
    by_cases hb : b = a
    · subst hb
      have hmem : (b, (⟨pid, false⟩ : Process w)) ∈ A.records.map Record.entry ++ [(b, ⟨pid, false⟩)] := by simp
      rw [hc.live hmem]
      exact Function.update_self _ _ _
    · rw [hl b hb, ← hR.live b]
      exact Function.update_of_ne hb _ _

theorem terminate (hR : RepresentsCollection c A) (pid : Handle w) :
    ∃ c', c.terminateProcess pid = .ok c' ∧ RepresentsCollection c' (A.terminate pid) := by
  obtain ⟨c', he, hc, hgone, hl⟩ := hR.records.terminateProcess_ok pid
  rw [find_eq] at hgone hl
  rw [List.eraseP_map] at hc
  refine ⟨c', he, ?_⟩
  unfold Collection.terminate
  cases h : A.oldest pid with
  | none =>
    rw [h] at hl
    have hnot : ∀ r ∈ A.records, ¬ r.process.pid = pid := by simpa [Collection.oldest] using h
    refine ⟨?_, ?_⟩
    · rw [List.eraseP_of_forall_not] at hc
      · exact hc
      · intro r hr hp
        exact hnot r hr (of_decide_eq_true hp)
    · intro a
      rw [hR.live a]
      exact (hl a (fun r hr => nomatch hr)).symm
  | some r =>
    rw [h] at hl hgone
    have hpid := (Collection.oldest_mem h).2
    refine ⟨?_, ?_⟩
    · show Records c' ((A.records.eraseP fun q => q.process.pid = r.process.pid).map Record.entry)
      rw [hpid]
      exact hc
    · intro a
      by_cases ha : a = r.address
      · subst ha
        have hnone : c'.heap r.address = none := hgone r.entry rfl
        rw [hnone]
        exact Function.update_self _ _ _
      · rw [hl a (by intro q hq; cases hq; exact ha), ← hR.live a]
        exact Function.update_of_ne ha _ _

theorem mark (hR : RepresentsCollection c A) {pid : Handle w} {a : Addr w} (h : (A.oldest pid).map (·.address) = some a) :
    ∃ c', c.setMainThreadCreated a = .ok c' ∧ RepresentsCollection c' (A.mark a) := by
  obtain ⟨r, hr, rfl⟩ := Option.map_eq_some_iff.mp h
  have hmem := (Collection.oldest_mem hr).1
  obtain ⟨c', he, hc, hl⟩ := hR.records.setMainThreadCreated_ok (List.mem_map_of_mem hmem)
  refine ⟨c', he, ?_, ?_⟩
  · have hmark : Records.setFlag (A.records.map Record.entry) r.address = (A.mark r.address).records.map Record.entry := by
      unfold Records.setFlag Collection.mark
      rw [List.map_map, List.map_map]
      apply List.map_congr_left
      intro q _
      by_cases hq : q.address = r.address <;> simp [Record.entry, Record.mark, hq]
    rw [← hmark]
    exact hc
  · intro b
    rw [hl b]
    exact hR.live b

/-- Every request does to the collector what it does to the collection. -/
theorem step (hR : RepresentsCollection c A) (r : Request w) (hv : Collection.spec.valid A r) :
    ∃ c', c.step r = .ok (c', Collection.spec.out A r) ∧ RepresentsCollection c' (Collection.spec.next A r) := by
  cases r with
  | insertProcess process pid =>
    cases process with
    | none => exact ⟨c, rfl, hR⟩
    | some a =>
      obtain ⟨c', he, hR'⟩ := hR.insert (hv a rfl) pid
      exact ⟨c', by rw [ProcessCollector.step, he]; rfl, hR'⟩
  | terminateProcess pid =>
    obtain ⟨c', he, hR'⟩ := hR.terminate pid
    exact ⟨c', by rw [ProcessCollector.step, he]; rfl, hR'⟩
  | getProcess pid =>
    refine ⟨c, ?_, hR⟩
    rw [ProcessCollector.step, hR.records.getProcess_eq, find_eq, Option.map_map]
    rfl
  | setMainThreadCreated pid process =>
    obtain ⟨c', he, hR'⟩ := hR.mark hv
    exact ⟨c', by rw [ProcessCollector.step, he]; rfl, hR'⟩

/-- Marking a record, which is the only one at its address, leaves those of other
pids as they are. -/
theorem mark_others (hR : RepresentsCollection c A) {r : Record w} (hr : r ∈ A.records) :
    (A.records.map (Record.mark r.address)).filter (fun q => q.process.pid ≠ r.process.pid) =
      A.records.filter fun q => q.process.pid ≠ r.process.pid := by
  have hother : ∀ q ∈ A.records, q.process.pid ≠ r.process.pid → Record.mark r.address q = q := by
    intro q hq hne
    apply if_neg
    intro ha
    rw [hR.unique hq hr ha] at hne
    exact hne rfl
  have hpids : ∀ q, (Record.mark r.address q).process.pid = q.process.pid := by
    intro q
    by_cases hq : q.address = r.address <;> simp [Record.mark, hq]
  rw [List.filter_map]
  simp only [Function.comp_def, hpids]
  calc (A.records.filter fun q => q.process.pid ≠ r.process.pid).map (Record.mark r.address)
      = (A.records.filter fun q => q.process.pid ≠ r.process.pid).map id := by
        apply List.map_congr_left
        intro q hq
        have hq' := List.mem_filter.mp hq
        exact hother q hq'.1 (of_decide_eq_true hq'.2)
    _ = A.records.filter fun q => q.process.pid ≠ r.process.pid := List.map_id _

/-- A request leaves the records of other pids as they are, in their order. -/
theorem others (hR : RepresentsCollection c A) (r : Request w) (hv : Collection.spec.valid A r) :
    (Collection.spec.next A r).others r.pid = A.others r.pid := by
  cases r with
  | insertProcess process pid =>
    cases process with
    | none => rfl
    | some a =>
      show (A.records ++ [_]).filter _ = _
      rw [List.filter_append]
      simp [Request.pid, Collection.others]
  | terminateProcess pid =>
    show (A.terminate pid).others pid = A.others pid
    unfold Collection.terminate
    cases h : A.oldest pid with
    | none => rfl
    | some r =>
      obtain ⟨ys, zs, hrs, hdel⟩ := Collection.oldest_split h
      simp only [Collection.others, hrs, hdel, List.filter_append]
      rw [List.filter_cons_of_neg (by simp [(Collection.oldest_mem h).2])]
  | getProcess pid => rfl
  | setMainThreadCreated pid a =>
    obtain ⟨r, hr, rfl⟩ := Option.map_eq_some_iff.mp hv
    obtain ⟨hmem, hpid⟩ := Collection.oldest_mem hr
    subst hpid
    exact mark_others hR hmem

/-- The destructor deletes the records that are left, and nothing else. -/
theorem destruct (hR : RepresentsCollection c A) :
    ∃ c', c.destruct = .ok c' ∧ Records c' [] ∧ (∀ r ∈ A.records, c'.heap r.address = none) ∧
      ∀ a, (∀ r ∈ A.records, a ≠ r.address) → (c'.heap a).isSome = A.live a := by
  have hl := hR.records.holds
  obtain ⟨h₁, list₁, e₁, s₁, l₁, f₁⟩ := flush_ok hl
  obtain ⟨h₂, list₂, e₂, s₂, l₂, f₂⟩ := flush_ok l₁
  rw [s₁] at f₂
  have hself : list₂.self = c.activeProcesses.self := s₂.trans s₁
  refine ⟨⟨h₂, list₂⟩, ?_, ⟨l₂, fun _ h => nomatch h⟩, ?_, ?_⟩
  · unfold ProcessCollector.destruct
    rw [e₁, ok_bind]
    show (flush h₁ list₁ >>= _) = _
    rw [e₂, ok_bind]
    rfl
  · intro r hr
    have hmem : r.address ∈ (A.records.map Record.entry).map Prod.fst :=
      List.mem_map_of_mem (List.mem_map_of_mem hr)
    have hne : r.address ∉ [c.activeProcesses.self] := by
      intro h
      rw [List.mem_singleton.mp h] at hmem
      exact hl.ring.head_notMem hmem
    exact (f₂.frame _ hne).trans (f₁.gone _ hmem)
  · intro a ha
    by_cases hs : a = c.activeProcesses.self
    · subst hs
      have h2 : (h₂ c.activeProcesses.self).isSome := by
        rw [← hself]
        exact l₂.ring.live (by simp)
      rw [hR.live, hl.ring.live (by simp)]
      exact h2
    · have hmem : a ∉ (A.records.map Record.entry).map Prod.fst := by
        intro h
        rw [List.map_map] at h
        obtain ⟨r, hr, hra⟩ := List.mem_map.mp h
        exact ha r hr hra.symm
      rw [hR.live]
      show (h₂ a).isSome = _
      rw [f₂.frame a (by simpa using hs), f₁.frame a (by simp only [List.mem_cons, not_or]; exact ⟨hs, hmem⟩)]

end RepresentsCollection

/-! ## Runs -/

theorem step_refines_collection :
    Refines ProcessCollector.step Collection.spec fun (c : ProcessCollector w) A => RepresentsCollection c A :=
  fun _ _ r hR hv => hR.step r hv

def Collection.initial (c : ProcessCollector w) : Collection w := ⟨[], 0, [], fun a => (c.heap a).isSome⟩

theorem Records.represents {c : ProcessCollector w} (h0 : Records c []) : RepresentsCollection c (Collection.initial c) :=
  ⟨h0, fun _ => rfl⟩

theorem Collection.initial_accounted (c : ProcessCollector w) : (Collection.initial c).Accounted :=
  ⟨List.Pairwise.nil, List.Perm.refl _⟩

theorem Collection.initial_owned (c : ProcessCollector w) :
    (Collection.initial c).Owned fun a => (c.heap a).isSome :=
  ⟨fun _ ha => ⟨ha, fun _ h => nomatch h⟩, fun _ ha => .inl ha⟩

/-- **The collector is a collection.** A run from an empty collector answers
what the collection answers and holds its records; the next request changes no
record of another pid; and with the destructor every record inserted has been
deleted, once. -/
theorem collector_refines_collection {c : ProcessCollector w} (h0 : Records c []) (rs : List (Request w))
    (hv : Collection.spec.Admits (Collection.initial c) rs) :
    ∃ c' d, execAll ProcessCollector.step c rs = .ok (c', Collection.spec.outs (Collection.initial c) rs) ∧
      RepresentsCollection c' (Collection.spec.after (Collection.initial c) rs) ∧
      (Collection.spec.after (Collection.initial c) rs).Accounted ∧
      (∀ r, Collection.spec.valid (Collection.spec.after (Collection.initial c) rs) r →
        (Collection.spec.next (Collection.spec.after (Collection.initial c) rs) r).others r.pid =
          (Collection.spec.after (Collection.initial c) rs).others r.pid) ∧
      c'.destruct = .ok d ∧ Records d [] ∧
      (∀ r ∈ (Collection.spec.after (Collection.initial c) rs).records, d.heap r.address = none) ∧
      ∀ a, (d.heap a).isSome = (c.heap a).isSome := by
  obtain ⟨c', he, hR⟩ := step_refines_collection.run rs h0.represents hv
  obtain ⟨d, hd, hnil, hgone, hrest⟩ := hR.destruct
  have hO := (Collection.initial_owned c).after rs hv
  refine ⟨c', d, he, hR, (Collection.initial_accounted c).after rs, fun r hr => hR.others r hr, hd, hnil, hgone, ?_⟩
  intro a
  by_cases ha : ∃ r ∈ (Collection.spec.after (Collection.initial c) rs).records, a = r.address
  · obtain ⟨r, hr, rfl⟩ := ha
    rw [hgone r hr]
    by_contra hne
    have hlive : (c.heap r.address).isSome = true := by simpa [← Option.ne_none_iff_isSome] using Ne.symm hne
    exact (hO.others r.address hlive).2 r hr rfl
  · push Not at ha
    rw [hrest a ha, Bool.eq_iff_iff]
    constructor
    · intro h
      rcases hO.records a h with h | ⟨r, hr, h⟩
      · exact h
      · exact absurd h.symm (ha r hr)
    · intro h
      exact (hO.others a h).1

def oneHead : ProcessCollector 8 := ⟨fun a => if a = 1 then some ⟨1, 1, none⟩ else none, ⟨1, 0⟩⟩

/-- Two records of the pid 5, a failed allocation, a miss, and an address that
is used again. -/
def oneHeadRun : List (Request 8) :=
  [.insertProcess (some 10) 5, .insertProcess none 6, .insertProcess (some 11) 6, .insertProcess (some 12) 5,
    .getProcess 5, .setMainThreadCreated 5 10, .terminateProcess 5, .terminateProcess 9, .getProcess 5,
    .insertProcess (some 10) 7]

theorem collector_refines_collection_oneHead : Records oneHead [] ∧
    Collection.spec.Admits (Collection.initial oneHead) oneHeadRun ∧
    ∃ c' d, execAll ProcessCollector.step oneHead oneHeadRun =
        .ok (c', [none, none, none, none, some 10, none, none, none, some 12, none]) ∧
      c'.destruct = .ok d ∧ ∀ a, (d.heap a).isSome = (oneHead.heap a).isSome := by
  have h0 : Records oneHead [] := ⟨⟨isRing_nil rfl rfl, rfl⟩, fun _ h => nomatch h⟩
  have hv : Collection.spec.Admits (Collection.initial oneHead) oneHeadRun := by decide
  obtain ⟨c', d, he, -, -, -, hd, -, -, hl⟩ := collector_refines_collection h0 oneHeadRun hv
  exact ⟨h0, hv, c', d, he, hd, hl⟩

end Dmsk
