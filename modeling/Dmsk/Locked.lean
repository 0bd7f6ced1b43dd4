import Mathlib.Logic.Function.Basic
import Mathlib.Data.List.Nodup
import Dmsk.Refinement
import Dmsk.Transition

/-!
# Calls under a readers-writer lock

Threads call procedures that work on shared data, each under a guard: some take
the lock exclusively, and those that only read may share it. A procedure is a
program of single accesses, and between any two of them other threads run. What
the calls do and answer is what they do and answer one after the other, in the
order in which they were given the lock (`Serial`). A fault stops the system.
-/

namespace Dmsk

/-- A program: an access changes the data or fails, and goes on with what it saw. -/
inductive Prog (δ ε ρ : Type) where
  | ret (r : ρ)
  | fail (e : ε)
  | access (f : δ → Except ε δ) (k : δ → Prog δ ε ρ)

variable {δ ε ρ τ : Type}

namespace Prog

def run : Prog δ ε ρ → δ → Except ε (δ × ρ)
  | ret r, d => .ok (d, r)
  | fail e, _ => .error e
  | access f k, d =>
    match f d with
    | .ok d' => (k d).run d'
    | .error e => .error e

def bind : Prog δ ε ρ → (ρ → Prog δ ε τ) → Prog δ ε τ
  | ret r, g => g r
  | fail e, _ => fail e
  | access f k, g => access f fun d => (k d).bind g

instance : Monad (Prog δ ε) where
  pure := ret
  bind := bind

def ofExcept : Except ε ρ → Prog δ ε ρ
  | .ok r => ret r
  | .error e => fail e

def read (f : δ → Except ε ρ) : Prog δ ε ρ := access .ok fun d => ofExcept (f d)

def write (f : δ → Except ε δ) : Prog δ ε Unit := access f fun _ => ret ()

/-- No access changes the data. -/
def ReadOnly : Prog δ ε ρ → Prop
  | ret _ => True
  | fail _ => True
  | access f k => (∀ d d', f d = .ok d' → d' = d) ∧ ∀ d, (k d).ReadOnly

@[simp] theorem run_pure (r : ρ) (d : δ) : (pure r : Prog δ ε ρ).run d = .ok (d, r) := rfl

theorem run_bind (x : Prog δ ε ρ) (g : ρ → Prog δ ε τ) (d : δ) : (x >>= g).run d = x.run d >>= fun p => (g p.2).run p.1 := by
  show (x.bind g).run d = _
  induction x generalizing d with
  | ret r => rfl
  | fail e => rfl
  | access f k ih =>
    simp only [bind, run]
    cases f d with
    | error e => rfl
    | ok d' => exact ih d d'

@[simp] theorem run_read (f : δ → Except ε ρ) (d : δ) : (read f).run d = f d >>= fun r => .ok (d, r) := by
  simp only [read, run]
  cases f d <;> rfl

@[simp] theorem run_write (f : δ → Except ε δ) (d : δ) : (write f).run d = f d >>= fun d' => .ok (d', ()) := by
  simp only [write, run]
  cases f d <;> rfl

theorem readOnly_ofExcept (x : Except ε ρ) : (ofExcept x : Prog δ ε ρ).ReadOnly := by cases x <;> trivial

theorem readOnly_read (f : δ → Except ε ρ) : (read f).ReadOnly :=
  ⟨fun _ _ h => (Except.ok.inj h).symm, fun _ => readOnly_ofExcept _⟩

theorem ReadOnly.bind {x : Prog δ ε ρ} {g : ρ → Prog δ ε τ} (hx : x.ReadOnly) (hg : ∀ r, (g r).ReadOnly) :
    (x >>= g).ReadOnly := by
  show (x.bind g).ReadOnly
  induction x with
  | ret r => exact hg r
  | fail e => trivial
  | access f k ih => exact ⟨hx.1, fun d => ih d (hx.2 d)⟩

theorem ReadOnly.run_data {x : Prog δ ε ρ} (hx : x.ReadOnly) {d d' : δ} {r : ρ} (h : x.run d = .ok (d', r)) : d' = d := by
  induction x generalizing d with
  | ret r => cases h; rfl
  | fail e => cases h
  | access f k ih =>
    simp only [run] at h
    split at h
    · rename_i u hu
      cases hx.1 _ _ hu
      exact ih _ (hx.2 _) h
    · cases h

end Prog

/-! ## Threads -/

/-- The procedures that threads may call. -/
structure Procedures (α δ ε ρ : Type) where
  code : α → Prog δ ε ρ
  shares : α → Bool
  readOnly : ∀ a, shares a = true → (code a).ReadOnly

namespace Procedures

variable {α T : Type} (F : Procedures α δ ε ρ)

/-- A thread is outside, waits for the lock, or is inside with the number of its
call and what is left of the program. -/
inductive Pc (α δ ε ρ : Type) where
  | idle
  | acquire (a : α)
  | inside (k : ℕ) (a : α) (p : Prog δ ε ρ)

/-- `calls` lists the calls in the order in which they were given the lock, and
`answers` what those that returned have answered. -/
structure State (T α δ ε ρ : Type) where
  data : δ
  exclusive : Option T
  shared : List T
  pc : T → Pc α δ ε ρ
  fault : Option ε
  calls : List (T × α)
  answers : List (ℕ × ρ)

inductive Act (T α : Type) where
  | call (t : T) (a : α)
  | acquire (t : T)
  | access (t : T)
  | release (t : T)

variable [DecidableEq T]

def State.move (s : State T α δ ε ρ) (t : T) (p : Pc α δ ε ρ) : State T α δ ε ρ := { s with pc := Function.update s.pc t p }

/-- An access of a program that is inside. -/
def access (s : State T α δ ε ρ) (t : T) (k : ℕ) (a : α) : Prog δ ε ρ → Option (State T α δ ε ρ)
  | .ret _ => none
  | .fail e => some { s with fault := some e }
  | .access f g =>
    match f s.data with
    | .ok d => some { s.move t (.inside k a (g s.data)) with data := d }
    | .error e => some { s with fault := some e }

def step (s : State T α δ ε ρ) (act : Act T α) : Option (State T α δ ε ρ) :=
  if s.fault.isSome then none
  else match act with
  | .call t a =>
    match s.pc t with
    | .idle => some (s.move t (.acquire a))
    | _ => none
  | .acquire t =>
    match s.pc t with
    | .acquire a =>
      let s' := { s.move t (.inside s.calls.length a (F.code a)) with calls := s.calls ++ [(t, a)] }
      if F.shares a then
        if s.exclusive.isNone then some { s' with shared := t :: s.shared } else none
      else if s.exclusive.isNone && s.shared.isEmpty then some { s' with exclusive := some t } else none
    | _ => none
  | .access t =>
    match s.pc t with
    | .inside k a p => access s t k a p
    | _ => none
  | .release t =>
    match s.pc t with
    | .inside k a (.ret r) =>
      let s' := { s.move t .idle with answers := s.answers ++ [(k, r)] }
      some (if F.shares a then { s' with shared := s.shared.erase t } else { s' with exclusive := none })
    | _ => none

def start (d : δ) : State T α δ ε ρ where
  data := d
  exclusive := none
  shared := []
  pc _ := .idle
  fault := none
  calls := []
  answers := []

def system (T : Type) [DecidableEq T] (d : δ) : System (State T α δ ε ρ) (Act T α) where
  init s := s = start d
  step := F.step

/-! ## One after the other -/

def serial (d : δ) (as : List α) : Except ε (δ × List ρ) := execAll (fun d a => (F.code a).run d) d as

variable {F}

omit [DecidableEq T] in
theorem serial_append {d d₁ d₂ : δ} {as : List α} {os : List ρ} {a : α} {o : ρ} (h : F.serial d as = .ok (d₁, os))
    (ha : (F.code a).run d₁ = .ok (d₂, o)) : F.serial d (as ++ [a]) = .ok (d₂, os ++ [o]) := by
  unfold serial at h ⊢
  induction as generalizing d os with
  | nil =>
    cases h
    simp only [List.nil_append, execAll, ha, bind, Except.bind]
    rfl
  | cons b as ih =>
    simp only [execAll] at h
    cases hb : (F.code b).run d with
    | error e =>
      rw [hb] at h
      cases h
    | ok p =>
      rw [hb] at h
      cases hr : execAll (fun d a => (F.code a).run d) p.1 as with
      | error e =>
        simp only [bind, Except.bind, hr] at h
        cases h
      | ok q =>
        simp only [bind, Except.bind, hr] at h
        cases h
        simp only [List.cons_append, execAll, hb, bind, Except.bind, ih hr]
        rfl

theorem serial_length {d d₁ : δ} {as : List α} {os : List ρ} (h : F.serial d as = .ok (d₁, os)) : os.length = as.length := by
  unfold serial at h
  induction as generalizing d os with
  | nil => cases h; rfl
  | cons b as ih =>
    simp only [execAll] at h
    cases hb : (F.code b).run d with
    | error e =>
      rw [hb] at h
      cases h
    | ok p =>
      rw [hb] at h
      cases hr : execAll (fun d a => (F.code a).run d) p.1 as with
      | error e =>
        simp only [bind, Except.bind, hr] at h
        cases h
      | ok q =>
        simp only [bind, Except.bind, hr] at h
        cases h
        rw [List.length_cons, List.length_cons, ih hr]

variable (F) in
/-- Who is inside holds the lock, a writer alone. -/
structure Guarded (s : State T α δ ε ρ) : Prop where
  exclusive : ∀ t, s.exclusive = some t ↔ ∃ k a p, s.pc t = .inside k a p ∧ F.shares a = false
  shared : ∀ t, t ∈ s.shared ↔ ∃ k a p, s.pc t = .inside k a p ∧ F.shares a = true
  nodup : s.shared.Nodup
  alone : s.exclusive ≠ none → s.shared = []

variable (F) in
/-- `d` and `os` are what the calls leave and answer one after the other, and
what is left of a call that is inside still leaves and answers it. -/
structure Serial (d₀ : δ) (s : State T α δ ε ρ) (d : δ) (os : List ρ) : Prop where
  run : F.serial d₀ (s.calls.map Prod.snd) = .ok (d, os)
  data : s.exclusive = none → s.data = d
  inside : ∀ t k a p, s.pc t = .inside k a p →
    (∃ r, os[k]? = some r ∧ p.run s.data = .ok (d, r)) ∧ (F.shares a = true → p.ReadOnly)
  answers : ∀ q ∈ s.answers, os[q.1]? = some q.2
  fault : s.fault = none

section
variable {s s' : State T α δ ε ρ} {d₀ d : δ} {os : List ρ} {t : T}

@[simp] theorem move_pc (p : Pc α δ ε ρ) : (s.move t p).pc = Function.update s.pc t p := rfl

omit [DecidableEq T] in
/-- While a writer is inside, nobody else is. -/
theorem Guarded.only (h : Guarded F s) {k : ℕ} {a : α} {p : Prog δ ε ρ} (ht : s.pc t = .inside k a p)
    (ha : F.shares a = false) {u : T} {k' : ℕ} {a' : α} {p' : Prog δ ε ρ} (hu : s.pc u = .inside k' a' p') : u = t := by
  have he := (h.exclusive t).mpr ⟨k, a, p, ht, ha⟩
  cases ha' : F.shares a' with
  | false => exact (Option.some.inj (he.symm.trans ((h.exclusive u).mpr ⟨k', a', p', hu, ha'⟩))).symm
  | true =>
    have hm := (h.shared u).mpr ⟨k', a', p', hu, ha'⟩
    rw [h.alone (by simp [he])] at hm
    cases hm

omit [DecidableEq T] in
theorem Guarded.exclusive_none (h : Guarded F s) {k : ℕ} {a : α} {p : Prog δ ε ρ} (ht : s.pc t = .inside k a p)
    (ha : F.shares a = true) : s.exclusive = none := by
  by_contra hne
  have hm := (h.shared t).mpr ⟨k, a, p, ht, ha⟩
  rw [h.alone hne] at hm
  cases hm

/-- A step that leaves the lock to those who hold it. -/
theorem Guarded.keep (h : Guarded F s) {q : Pc α δ ε ρ} {s' : State T α δ ε ρ} (hpc : s'.pc = Function.update s.pc t q)
    (he : s'.exclusive = s.exclusive) (hsh : s'.shared = s.shared)
    (hq : ∀ b, (∃ k a p, q = .inside k a p ∧ F.shares a = b) ↔ ∃ k a p, s.pc t = .inside k a p ∧ F.shares a = b) :
    Guarded F s' := by
  refine ⟨fun u => ?_, fun u => ?_, hsh ▸ h.nodup, fun hn => hsh ▸ h.alone (he ▸ hn)⟩
  · rw [he, hpc, h.exclusive u]
    by_cases hu : u = t
    · subst hu
      rw [Function.update_self, hq]
    · rw [Function.update_of_ne hu]
  · rw [hsh, hpc, h.shared u]
    by_cases hu : u = t
    · subst hu
      rw [Function.update_self, hq]
    · rw [Function.update_of_ne hu]

/-! ## What a step can do -/

variable (F) in
inductive Moves (s : State T α δ ε ρ) : State T α δ ε ρ → Prop
  | call {t a} : s.pc t = .idle → Moves s (s.move t (.acquire a))
  | share {t a} : s.pc t = .acquire a → F.shares a = true → s.exclusive = none →
      Moves s { s.move t (.inside s.calls.length a (F.code a)) with calls := s.calls ++ [(t, a)], shared := t :: s.shared }
  | exclude {t a} : s.pc t = .acquire a → F.shares a = false → s.exclusive = none → s.shared = [] →
      Moves s { s.move t (.inside s.calls.length a (F.code a)) with calls := s.calls ++ [(t, a)], exclusive := some t }
  | access {t k a f g d} : s.pc t = .inside k a (.access f g) → f s.data = .ok d →
      Moves s { s.move t (.inside k a (g s.data)) with data := d }
  | fault {t k a p e} : s.pc t = .inside k a p → (∀ q, p.run s.data ≠ .ok q) → Moves s { s with fault := some e }
  | unshare {t k a r} : s.pc t = .inside k a (.ret r) → F.shares a = true →
      Moves s { s.move t .idle with answers := s.answers ++ [(k, r)], shared := s.shared.erase t }
  | leave {t k a r} : s.pc t = .inside k a (.ret r) → F.shares a = false →
      Moves s { s.move t .idle with answers := s.answers ++ [(k, r)], exclusive := none }

theorem moves_of_access {k : ℕ} {a : α} {p : Prog δ ε ρ} (hp : s.pc t = .inside k a p) (hs : access s t k a p = some s') :
    Moves F s s' := by
  cases p with
  | ret r => cases hs
  | fail e =>
    cases hs
    exact .fault hp fun q hq => by cases hq
  | access f g =>
    simp only [Procedures.access] at hs
    cases hf : f s.data with
    | ok d =>
      rw [hf] at hs
      cases hs
      exact .access hp hf
    | error e =>
      rw [hf] at hs
      cases hs
      refine .fault hp fun q hq => ?_
      simp only [Prog.run, hf] at hq
      cases hq

theorem step_moves {act : Act T α} (h : F.step s act = some s') : Moves F s s' := by
  unfold step at h
  split at h
  · cases h
  · cases act with
    | call t a =>
      simp only at h
      split at h
      · cases h; exact .call ‹_›
      · cases h
    | acquire t =>
      simp only at h
      split at h
      · rename_i a hp
        split at h
        · split at h
          · cases h; exact .share hp ‹_› (Option.isNone_iff_eq_none.mp ‹_›)
          · cases h
        · split at h
          · rename_i ha hfree
            cases h
            rw [Bool.and_eq_true] at hfree
            exact .exclude hp (by simpa using ha) (Option.isNone_iff_eq_none.mp hfree.1) (List.isEmpty_iff.mp hfree.2)
          · cases h
      · cases h
    | access t =>
      simp only at h
      split at h
      · exact moves_of_access ‹_› h
      · cases h
    | release t =>
      simp only at h
      split at h
      · rename_i hp
        cases h
        split
        · exact .unshare hp ‹_›
        · rename_i ha
          exact .leave hp (by simpa using ha)
      · cases h

omit [DecidableEq T] in
theorem guarded_start (d : δ) : Guarded F (start d : State T α δ ε ρ) where
  exclusive t := by simp [start]
  shared t := by simp [start]
  nodup := List.nodup_nil
  alone _ := rfl

theorem guarded_moves (h : Guarded F s) (hm : Moves F s s') : Guarded F s' := by
  cases hm with
  | call hp => exact h.keep rfl rfl rfl fun b => by simp [hp]
  | access hp _ => exact h.keep rfl rfl rfl fun b => by simp [hp]
  | fault hp _ => exact ⟨h.exclusive, h.shared, h.nodup, h.alone⟩
  | @share t a hp ha he =>
    refine ⟨fun u => ?_, fun u => ?_, ?_, fun hn => absurd he hn⟩
    · show s.exclusive = some u ↔ _
      rw [h.exclusive u, move_pc]
      by_cases hu : u = t
      · subst hu; simp [hp, ha]
      · simp [hu]
    · show u ∈ t :: s.shared ↔ _
      rw [List.mem_cons, h.shared u, move_pc]
      by_cases hu : u = t
      · subst hu; simp [ha]
      · simp [hu]
    · refine List.nodup_cons.mpr ⟨fun hm => ?_, h.nodup⟩
      obtain ⟨k, b, p, hin, -⟩ := (h.shared t).mp hm
      rw [hp] at hin
      cases hin
  | @exclude t a hp ha he hsh =>
    refine ⟨fun u => ?_, fun u => ?_, h.nodup, fun _ => hsh⟩
    · show some t = some u ↔ _
      rw [move_pc]
      by_cases hu : u = t
      · subst hu; simp [ha]
      · have := h.exclusive u
        rw [he] at this
        simpa [hu, Ne.symm hu] using this
    · show u ∈ s.shared ↔ _
      rw [h.shared u, move_pc]
      by_cases hu : u = t
      · subst hu; simp [hp, ha]
      · simp [hu]
  | @unshare t k a r hp ha =>
    have hex := h.exclusive_none hp ha
    refine ⟨fun u => ?_, fun u => ?_, h.nodup.erase t, fun hn => absurd hex hn⟩
    · show s.exclusive = some u ↔ _
      rw [h.exclusive u, move_pc]
      by_cases hu : u = t
      · subst hu; simp [hp, ha]
      · simp [hu]
    · show u ∈ s.shared.erase t ↔ _
      rw [h.nodup.mem_erase_iff, h.shared u, move_pc]
      by_cases hu : u = t
      · subst hu; simp
      · simp [hu]
  | @leave t k a r hp ha =>
    have hex := (h.exclusive t).mpr ⟨k, a, _, hp, ha⟩
    have hsh := h.alone (by simp [hex])
    refine ⟨fun u => ?_, fun u => ?_, h.nodup, fun hn => absurd rfl hn⟩
    · show none = some u ↔ _
      rw [move_pc]
      by_cases hu : u = t
      · subst hu; simp
      · have := h.exclusive u
        rw [hex] at this
        simpa [hu, Ne.symm hu] using this
    · show u ∈ s.shared ↔ _
      rw [h.shared u, move_pc]
      by_cases hu : u = t
      · subst hu; simp [hp, ha]
      · simp [hu]

/-! ## The order of the lock -/

/-- Every call comes to an end where the data is as it should be, and leaves it so. -/
def Sound (F : Procedures α δ ε ρ) (I : δ → Prop) : Prop := ∀ a d, I d → ∃ d' r, (F.code a).run d = .ok (d', r) ∧ I d'

variable {I : δ → Prop}

/-- A call is given the lock: what it does comes after all that was done. -/
theorem Serial.enter (h : Serial F d₀ s d os) {a : α} {d' : δ} {r : ρ} (hr : (F.code a).run d = .ok (d', r))
    (he : s.exclusive = none) {u : State T α δ ε ρ} (hu : u.pc = Function.update s.pc t (.inside s.calls.length a (F.code a)))
    (hc : u.calls = s.calls ++ [(t, a)]) (hd : u.data = s.data) (hdata : u.exclusive = none → u.data = d')
    (hothers : ∀ v ≠ t, ∀ k b p, s.pc v = .inside k b p → d' = d) (ha : u.answers = s.answers) (hf : u.fault = s.fault) :
    Serial F d₀ u d' (os ++ [r]) := by
  have hlen : os.length = s.calls.length := by simpa using serial_length h.run
  refine ⟨?_, hdata, fun v k b p hv => ?_, fun q hq => ?_, hf.trans h.fault⟩
  · rw [hc, List.map_append]
    exact serial_append h.run hr
  · by_cases hvt : v = t
    · subst hvt
      rw [hu, Function.update_self] at hv
      cases hv
      refine ⟨⟨r, ?_, ?_⟩, F.readOnly _⟩
      · rw [← hlen, List.getElem?_append_right (Nat.le_refl _), Nat.sub_self]
        rfl
      · rw [hd, h.data he]
        exact hr
    · rw [hu, Function.update_of_ne hvt] at hv
      obtain ⟨⟨o, ho, hrun⟩, hro⟩ := h.inside v k b p hv
      refine ⟨⟨o, ?_, ?_⟩, hro⟩
      · rw [List.getElem?_append_left (List.getElem?_eq_some_iff.mp ho).1]
        exact ho
      · rw [hd, hrun, hothers v hvt k b p hv]
  · rw [ha] at hq
    have ho := h.answers q hq
    rw [List.getElem?_append_left (List.getElem?_eq_some_iff.mp ho).1]
    exact ho

theorem serial_moves (hI : F.Sound I) (hg : Guarded F s) (h : Serial F d₀ s d os) (hd : I d) (hm : Moves F s s') :
    ∃ d' os', Serial F d₀ s' d' os' ∧ I d' := by
  cases hm with
  | @call t a hp =>
    refine ⟨d, os, ⟨h.run, h.data, fun u k b p hu => ?_, h.answers, h.fault⟩, hd⟩
    by_cases hut : u = t
    · subst hut
      simp at hu
    · exact h.inside u k b p (by simpa [hut] using hu)
  | @share t a hp ha he =>
    obtain ⟨d', r, hr, hI'⟩ := hI a d hd
    have hdd := (F.readOnly a ha).run_data hr
    exact ⟨d', _, h.enter hr he rfl rfl rfl (fun _ => (h.data he).trans hdd.symm) (fun _ _ _ _ _ _ => hdd) rfl rfl, hI'⟩
  | @exclude t a hp ha he hsh =>
    obtain ⟨d', r, hr, hI'⟩ := hI a d hd
    refine ⟨d', _, h.enter hr he rfl rfl rfl (fun hn => by cases hn) (fun v _ k b p hv => ?_) rfl rfl, hI'⟩
    cases hb : F.shares b with
    | true =>
      have := (hg.shared v).mpr ⟨k, b, p, hv, hb⟩
      rw [hsh] at this
      cases this
    | false =>
      have := (hg.exclusive v).mpr ⟨k, b, p, hv, hb⟩
      rw [he] at this
      cases this
  | @access t k a f g d' hp hf =>
    obtain ⟨⟨r, hr, hrun⟩, hro⟩ := h.inside t k a _ hp
    simp only [Prog.run, hf] at hrun
    refine ⟨d, os, ⟨h.run, fun he => ?_, fun u k' b p hu => ?_, h.answers, h.fault⟩, hd⟩
    · have he : s.exclusive = none := he
      have ha : F.shares a = true := by
        by_contra hna
        have := (hg.exclusive t).mpr ⟨k, a, _, hp, by simpa using hna⟩
        rw [he] at this
        cases this
      exact ((hro ha).1 _ _ hf).trans (h.data he)
    · by_cases hut : u = t
      · subst hut
        rw [move_pc, Function.update_self] at hu
        cases hu
        exact ⟨⟨r, hr, hrun⟩, fun ha => (hro ha).2 _⟩
      · have hu : s.pc u = .inside k' b p := by simpa [hut] using hu
        cases ha : F.shares a with
        | false => exact absurd (hg.only hp ha hu) hut
        | true =>
          rw [(hro ha).1 _ _ hf]
          exact h.inside u k' b p hu
  | @fault t k a p e hp hn =>
    obtain ⟨⟨r, -, hrun⟩, -⟩ := h.inside t k a p hp
    exact absurd hrun (hn _)
  | @unshare t k a r hp ha =>
    obtain ⟨⟨o, ho, hrun⟩, -⟩ := h.inside t k a _ hp
    cases hrun
    refine ⟨_, os, ⟨h.run, fun _ => rfl, fun u k' b p hu => ?_, fun q hq => ?_, h.fault⟩, hd⟩
    · by_cases hut : u = t
      · subst hut
        simp at hu
      · exact h.inside u k' b p (by simpa [hut] using hu)
    · rcases List.mem_append.mp hq with hq | hq
      · exact h.answers q hq
      · rw [List.mem_singleton.mp hq]
        exact ho
  | @leave t k a r hp ha =>
    obtain ⟨⟨o, ho, hrun⟩, -⟩ := h.inside t k a _ hp
    cases hrun
    refine ⟨_, os, ⟨h.run, fun _ => rfl, fun u k' b p hu => ?_, fun q hq => ?_, h.fault⟩, hd⟩
    · by_cases hut : u = t
      · subst hut
        simp at hu
      · exact h.inside u k' b p (by simpa [hut] using hu)
    · rcases List.mem_append.mp hq with hq | hq
      · exact h.answers q hq
      · rw [List.mem_singleton.mp hq]
        exact ho

theorem serial_reachable (hI : F.Sound I) (h₀ : I d₀) (hr : (F.system T d₀).Reachable s) :
    Guarded F s ∧ ∃ d os, Serial F d₀ s d os ∧ I d := by
  refine hr.invariant (I := fun s => Guarded F s ∧ ∃ d os, Serial F d₀ s d os ∧ I d) ?_ ?_
  · intro s hs
    subst hs
    refine ⟨guarded_start d₀, d₀, [], ⟨rfl, fun _ => rfl, fun t k a p hp => ?_, fun q hq => ?_, rfl⟩, h₀⟩
    · cases hp
    · cases hq
  · intro s a s' ⟨hg, d, os, h, hd⟩ hs
    have hm : Moves F s s' := step_moves hs
    exact ⟨guarded_moves hg hm, serial_moves hI hg h hd hm⟩

/-- Somebody can go on: whoever is inside, and if nobody is, whoever waits. -/
theorem goes_on (hg : Guarded F s) (hf : s.fault = none) (ht : s.pc t ≠ .idle) :
    ∃ act, (∀ u a, act ≠ .call u a) ∧ (F.step s act).isSome := by
  by_cases hin : ∃ u k a p, s.pc u = .inside k a p
  · obtain ⟨u, k, a, p, hu⟩ := hin
    cases p with
    | ret r => exact ⟨.release u, fun v b => by simp, by simp [step, hf, hu]⟩
    | fail e => exact ⟨.access u, fun v b => by simp, by simp [step, hf, hu, Procedures.access]⟩
    | access f g =>
      refine ⟨.access u, fun v b => by simp, ?_⟩
      simp only [step, hf, hu, Procedures.access]
      cases f s.data <;> rfl
  · have he : s.exclusive = none := by
      by_contra hne
      obtain ⟨u, hu⟩ := Option.ne_none_iff_exists'.mp hne
      obtain ⟨k, a, p, hp, -⟩ := (hg.exclusive u).mp hu
      exact hin ⟨u, k, a, p, hp⟩
    have hsh : s.shared = [] := by
      apply List.eq_nil_iff_forall_not_mem.mpr
      intro u hu
      obtain ⟨k, a, p, hp, -⟩ := (hg.shared u).mp hu
      exact hin ⟨u, k, a, p, hp⟩
    cases hp : s.pc t with
    | idle => exact absurd hp ht
    | inside k a p => exact absurd ⟨t, k, a, p, hp⟩ hin
    | acquire a =>
      refine ⟨.acquire t, fun v b => by simp, ?_⟩
      simp only [step, hf, hp, he, hsh]
      cases F.shares a <;> rfl

end

end Procedures

end Dmsk
