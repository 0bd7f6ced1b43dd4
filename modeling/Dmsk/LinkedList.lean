import Dmsk.Nt
import Dmsk.Ring
import Mathlib.Logic.Function.Basic

/-!
# The kernel linked list

`LinkedList.hpp`: entries that hold their own links, and a list that is itself
an entry, the head, with a counter. Pointers and `size_t` are `w` bits wide. A
heap maps an address to the entry allocated there; what derives from
`LinkedListEntry` (the fields of `Process`, say) is its `object`, and a list
head has none. The code runs in `Except Fault`: a failed `NT_ASSERT`, an access
to memory that is not allocated, a loop that does not end and a call for which
the stack has no room are faults. The build is the checked one, in which
`NT_ASSERT` evaluates what it asserts; in the free build it is void.
-/

namespace Dmsk

inductive Fault
  | assertionFailure
  | accessViolation
  | endlessLoop
  | stackOverflow
deriving DecidableEq, Repr

structure LinkedListEntry (w : ℕ) (β : Type) where
  flink : Addr w
  blink : Addr w
  object : Option β
deriving DecidableEq, Repr

abbrev Heap (w : ℕ) (β : Type) := Addr w → Option (LinkedListEntry w β)

/-- The head's address and the counter; the head's links are in the heap. -/
structure LinkedList (w : ℕ) where
  self : Addr w
  noElements : BitVec w
deriving DecidableEq, Repr

variable {w : ℕ} {β σ : Type}

/-! ## Memory -/

def load (h : Heap w β) (a : Addr w) : Except Fault (LinkedListEntry w β) :=
  match h a with
  | some e => .ok e
  | none => .error .accessViolation

def store (h : Heap w β) (a : Addr w) (f : LinkedListEntry w β → LinkedListEntry w β) :
    Except Fault (Heap w β) := do
  let e ← load h a
  return Function.update h a (some (f e))

def getFlink (h : Heap w β) (a : Addr w) : Except Fault (Addr w) := return (← load h a).flink

def getBlink (h : Heap w β) (a : Addr w) : Except Fault (Addr w) := return (← load h a).blink

def setFlink (h : Heap w β) (a v : Addr w) : Except Fault (Heap w β) := store h a ({ · with flink := v })

def setBlink (h : Heap w β) (a v : Addr w) : Except Fault (Heap w β) := store h a ({ · with blink := v })

/-- The constructor of `LinkedListEntry`, at the address `a`. -/
def construct (h : Heap w β) (a : Addr w) (object : Option β) : Heap w β :=
  Function.update h a (some ⟨a, a, object⟩)

/-- Of an element: its virtual destructor leaves the lists alone. That of a head
does not (`destroy`). -/
def delete (h : Heap w β) (a : Addr w) : Except Fault (Heap w β) := do
  let _ ← load h a
  return Function.update h a none

/-- In the checked build. -/
def ntAssert (p : Prop) [Decidable p] : Except Fault Unit :=
  if p then .ok () else .error .assertionFailure

/-! ## The list -/

def checkListEntry (h : Heap w β) (entry : Addr w) : Except Fault Unit := do
  ntAssert ((← getBlink h (← getFlink h entry)) = entry)
  ntAssert ((← getFlink h (← getBlink h entry)) = entry)

def fastFailOnCorruption (h : Heap w β) (list : LinkedList w) (entry : Addr w) : Except Fault Unit := do
  checkListEntry h entry
  checkListEntry h (← getFlink h list.self)
  checkListEntry h (← getBlink h list.self)

def insertTail (h : Heap w β) (list : LinkedList w) (entry : Addr w) :
    Except Fault (Heap w β × LinkedList w) := do
  fastFailOnCorruption h list entry
  let h ← setBlink h entry (← getBlink h list.self)
  let h ← setFlink h entry list.self
  let h ← setFlink h (← getBlink h list.self) entry
  let h ← setBlink h list.self entry
  return (h, { list with noElements := list.noElements + 1 })

def insertHead (h : Heap w β) (list : LinkedList w) (entry : Addr w) :
    Except Fault (Heap w β × LinkedList w) := do
  fastFailOnCorruption h list entry
  let h ← setFlink h entry (← getFlink h list.self)
  let h ← setBlink h entry list.self
  let h ← setBlink h (← getFlink h list.self) entry
  let h ← setFlink h list.self entry
  return (h, { list with noElements := list.noElements + 1 })

def removeEntry (h : Heap w β) (list : LinkedList w) (entry : Addr w) :
    Except Fault (Heap w β × LinkedList w) := do
  fastFailOnCorruption h list entry
  let next ← getFlink h entry
  let prev ← getBlink h entry
  let h ← setBlink h next prev
  let h ← setFlink h prev next
  return (h, { list with noElements := list.noElements - 1 })

def removeTail (h : Heap w β) (list : LinkedList w) :
    Except Fault ((Heap w β × LinkedList w) × Addr w) := do
  let tail ← getBlink h list.self
  return (← removeEntry h list tail, tail)

def removeHead (h : Heap w β) (list : LinkedList w) :
    Except Fault ((Heap w β × LinkedList w) × Addr w) := do
  let head ← getFlink h list.self
  return (← removeEntry h list head, head)

def isListEmpty (list : LinkedList w) : Bool := list.noElements = 0

/-- The loop of `Flush` over elements. A pass takes one from the counter it
tests, so the counter bounds the passes. -/
def flushLoop : ℕ → Heap w β → LinkedList w → Except Fault (Heap w β × LinkedList w)
  | 0, h, list => if isListEmpty list then .ok (h, list) else .error .endlessLoop
  | n + 1, h, list =>
    if isListEmpty list then .ok (h, list)
    else do
      let ((h, list), head) ← removeHead h list
      let h ← delete h head
      flushLoop n h list

/-- Where the removals answer elements only; `destroy` is `Flush` for the others too. -/
def flush (h : Heap w β) (list : LinkedList w) : Except Fault (Heap w β × LinkedList w) :=
  flushLoop list.noElements.toNat h list

/-- `for (it = begin(); it != end(); ++it)`, from `it`. The body may leave the
loop. The links are not written meanwhile: a loop of more passes than there are
addresses comes back to a node and never ends. -/
def iterateFrom (h : Heap w β) (list : LinkedList w)
    (body : Addr w → σ → Except Fault (ForInStep σ)) : ℕ → Addr w → σ → Except Fault σ
  | 0, _, _ => .error .endlessLoop
  | n + 1, it, s =>
    if it = list.self then .ok s
    else do
      match ← body it s with
      | .done s => return s
      | .yield s => iterateFrom h list body n (← getFlink h it) s

def iterate (h : Heap w β) (list : LinkedList w) (s : σ)
    (body : Addr w → σ → Except Fault (ForInStep σ)) : Except Fault σ := do
  iterateFrom h list body (2 ^ w) (← getFlink h list.self) s

def elements (h : Heap w β) (list : LinkedList w) : Except Fault (List (Addr w)) :=
  iterate h list [] fun it xs => return .yield (xs ++ [it])

/-! ## The fields as maps -/

def flinks (h : Heap w β) (a : Addr w) : Option (Addr w) := (h a).map (·.flink)

def blinks (h : Heap w β) (a : Addr w) : Option (Addr w) := (h a).map (·.blink)

def objects (h : Heap w β) (a : Addr w) : Option (Option β) := (h a).map (·.object)

/-- `h'` differs from `h` in links only, of the entries `ws` only. -/
structure Relinked (h h' : Heap w β) (ws : List (Addr w)) : Prop where
  objects : objects h' = objects h
  frame : ∀ a ∉ ws, h' a = h a

@[simp] theorem ok_bind {γ δ : Type} (x : γ) (f : γ → Except Fault δ) : (Except.ok x >>= f) = f x := rfl

@[simp] theorem error_bind {γ δ : Type} (e : Fault) (f : γ → Except Fault δ) :
    (Except.error e >>= f) = .error e := rfl

theorem Relinked.trans {h h₁ h₂ : Heap w β} {ws vs : List (Addr w)} (h1 : Relinked h h₁ ws)
    (h2 : Relinked h₁ h₂ vs) : Relinked h h₂ (ws ++ vs) := by
  refine ⟨h2.objects.trans h1.objects, ?_⟩
  intro a ha
  rw [List.mem_append, not_or] at ha
  exact (h2.frame a ha.2).trans (h1.frame a ha.1)

theorem Relinked.live {h h' : Heap w β} {ws : List (Addr w)} (hr : Relinked h h' ws) (a : Addr w) :
    (h' a).isSome = (h a).isSome := by
  have := congrArg Option.isSome (congrFun hr.objects a)
  simpa [Dmsk.objects] using this

theorem load_ok {h : Heap w β} {a : Addr w} {e : LinkedListEntry w β} (ha : h a = some e) :
    load h a = .ok e := by rw [load, ha]

theorem getFlink_ok {h : Heap w β} {a n : Addr w} (ha : flinks h a = some n) : getFlink h a = .ok n := by
  obtain ⟨e, he, rfl⟩ := Option.map_eq_some_iff.mp ha
  rw [getFlink, load_ok he]; rfl

theorem getBlink_ok {h : Heap w β} {a n : Addr w} (ha : blinks h a = some n) : getBlink h a = .ok n := by
  obtain ⟨e, he, rfl⟩ := Option.map_eq_some_iff.mp ha
  rw [getBlink, load_ok he]; rfl

theorem live_of_flinks {h : Heap w β} {a n : Addr w} (ha : flinks h a = some n) : (h a).isSome := by
  obtain ⟨e, he, -⟩ := Option.map_eq_some_iff.mp ha
  simp [he]

theorem store_ok {h : Heap w β} {a : Addr w} {e : LinkedListEntry w β} (ha : h a = some e)
    (f : LinkedListEntry w β → LinkedListEntry w β) :
    store h a f = .ok (Function.update h a (some (f e))) := by
  rw [store, load_ok ha]; rfl

theorem map_update {γ : Type} (g : LinkedListEntry w β → γ) (h : Heap w β) (a : Addr w)
    (e : LinkedListEntry w β) :
    (fun x => (Function.update h a (some e) x).map g) = Function.update (fun x => (h x).map g) a (some (g e)) := by
  funext x
  by_cases hx : x = a
  · subst hx; simp
  · simp [hx]

theorem setFlink_ok {h : Heap w β} {a : Addr w} (ha : (h a).isSome) (v : Addr w) :
    ∃ h', setFlink h a v = .ok h' ∧ flinks h' = Function.update (flinks h) a (some v) ∧
      blinks h' = blinks h ∧ Relinked h h' [a] := by
  obtain ⟨e, he⟩ := Option.isSome_iff_exists.mp ha
  refine ⟨_, store_ok he _, map_update _ _ _ _, ?_, ?_, ?_⟩
  · exact (map_update _ _ _ _).trans (Function.update_eq_self_iff.mpr (by simp [he]))
  · exact (map_update _ _ _ _).trans (Function.update_eq_self_iff.mpr (by simp [he]))
  · intro x hx
    exact Function.update_of_ne (by simpa using hx) _ _

theorem setBlink_ok {h : Heap w β} {a : Addr w} (ha : (h a).isSome) (v : Addr w) :
    ∃ h', setBlink h a v = .ok h' ∧ flinks h' = flinks h ∧
      blinks h' = Function.update (blinks h) a (some v) ∧ Relinked h h' [a] := by
  obtain ⟨e, he⟩ := Option.isSome_iff_exists.mp ha
  refine ⟨_, store_ok he _, ?_, map_update _ _ _ _, ?_, fun x hx => ?_⟩
  · exact (map_update _ _ _ _).trans (Function.update_eq_self_iff.mpr (by simp [he]))
  · exact (map_update _ _ _ _).trans (Function.update_eq_self_iff.mpr (by simp [he]))
  · exact Function.update_of_ne (by simpa using hx) _ _

end Dmsk
