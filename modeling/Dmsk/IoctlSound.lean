import Dmsk.Ioctl

/-!
# Requests against the unload

A late request, one that asks for the remove lock of a device after the removal
has begun there, is answered as if it held a reference. Apart from these the
count of a lock is the number of its holders and no device goes away under one.

The notification driver takes `gDrvData.Lock` before it waits for the holders of
its remove lock, and a holder may still have to take `gDrvData.Lock`.
-/

namespace Dmsk.Ioctl

open Protection (thirdIoctlCode)
open Rundown

variable {R : Type}

/-! ## The discipline of the programs -/

theorem disciplined_mutex {code : Code} (h : disciplined code = true) :
    alternates mutex code = true ∧ inside mutex code = false := by
  unfold disciplined at h
  simp only [Bool.and_eq_true, Bool.not_eq_true'] at h
  exact h.1

theorem disciplined_refs {code : Code} (h : disciplined code = true) (d : Device) :
    (alternates (refs d) code = true ∧ inside (refs d) code = false) ∧
      guarded (.beginRemove d) (.await d) code = true ∧ guarded (.await d) (.delete d) code = true := by
  unfold disciplined at h
  simp only [Bool.and_eq_true, List.all_eq_true, Bool.not_eq_true'] at h
  obtain ⟨⟨hr, hb⟩, hw⟩ := h.2 d (by cases d <;> simp)
  exact ⟨hr, hb, hw⟩

theorem protocol_of {T : Type} {prog : T → Code} {remover : Device → T} (h : ∀ t, disciplined (prog t) = true)
    (sole : ∀ t d, .beginRemove d ∈ prog t → t = remover d) (once : ∀ d, (prog (remover d)).count (.beginRemove d) ≤ 1)
    (own : ∀ d, leads (.acquire d) (.beginRemove d) (prog (remover d)) = true) : Protocol prog remover where
  refs t d := (disciplined_refs (h t) d).1
  mutex t := disciplined_mutex (h t)
  begins t d := (disciplined_refs (h t) d).2.1
  waits t d := (disciplined_refs (h t) d).2.2
  sole := sole
  once := once
  own := own

/-! ## Any requests to the three drivers and their unloads -/

def programs (request : R → Device × Request) : R ⊕ Device → Code
  | .inl r => dispatch (request r).1 (request r).2
  | .inr d => unload d

theorem removes_own : ∀ d e, .beginRemove d ∈ unload e → e = d := by decide

theorem acquires_own : ∀ d e, .acquire d ∈ unload e → e = d := by decide

theorem removes_once : ∀ d, (unload d).count (.beginRemove d) ≤ 1 := by decide

theorem programs_protocol (request : R → Device × Request) : Protocol (programs request) .inr := by
  apply protocol_of
  · intro t
    cases t with
    | inl r => exact dispatch_disciplined _ _
    | inr d => exact unload_disciplined d
  · intro t d h
    cases t with
    | inl r => exact absurd h (dispatch_no_removal _ _ _)
    | inr e => rw [removes_own d e h]
  · exact removes_once
  · intro d
    cases d <;> rfl

/-- The request has called `IoAcquireRemoveLock` on `d` and has its release ahead. -/
def between (s : State Device Work (R ⊕ Device)) (r : R) (d : Device) : Bool := inside (refs d) (s.todo (.inl r))

structure Safe [Fintype R] (s : State Device Work (R ⊕ Device)) : Prop where
  acquired : ∀ r d, between s r d = true → s.held (.inl r) d = true
  count : ∀ d, s.count d = holders s d
  deleted : ∀ d rest, s.todo (.inr d) = .delete d :: rest → ∀ r, between s r d = false

section
variable [Fintype R] [DecidableEq R] {request : R → Device × Request} {s s' : State Device Work (R ⊕ Device)}

omit [DecidableEq R] in
theorem safe_of_sound (h : Sound (programs request) .inr s) : Safe s where
  acquired r d := (h.exact d).held (.inl r)
  count d := (h.exact d).count
  deleted d rest htodo r := by
    rw [← Bool.not_eq_true]
    intro hb
    have hnone := h.drained d (drained_of_delete h.inv htodo) (.inl r)
    rw [(h.exact d).held (.inl r) hb] at hnone
    cases hnone

/-- A late request goes on between its acquisition and its release without a reference. -/
theorem timely_of_safe (hi : Inv (programs request) .inr s) {t : R ⊕ Device} (h : step s t = some s') (hs : Safe s') :
    Timely .inr s t := by
  obtain ⟨op, rest, s₁, htodo, he, rfl⟩ := step_effect h
  intro d ht hhead
  rw [htodo, List.head?_cons, Option.some.injEq] at hhead
  subst hhead
  obtain r | e := t
  · have halt := alternates_suffix (hi.suffix (.inl r)) ((programs_protocol request).refs _ d).1
    rw [htodo] at halt
    have hopen : refs d (Op.acquire d : Op Device Work) = some true := by simp [refs]
    have hheld := hs.acquired r d (by simpa [between] using inside_of_open halt hopen)
    change s₁.held (.inl r) d = true at hheld
    rw [effect_held he, hopen, not_held_of_opens hi htodo hopen] at hheld
    simpa using hheld
  · have hmem : .acquire d ∈ unload e := (hi.suffix (.inr e)).subset (by rw [htodo]; exact List.mem_cons_self)
    exact absurd (congrArg Sum.inr (acquires_own d e hmem)) ht

/-- **Rundown.** In every run without late acquisitions a request works only with a
reference it has taken, the count is the number of holders, and no device is
deleted under a request. The first late acquisition breaks this. -/
theorem rundown_while_timely (request : R → Device × Request) (s : State Device Work (R ⊕ Device))
    (h : (system (programs request)).ReachUnder (Timely .inr) s) :
    Safe s ∧ ∀ t s', (system (programs request)).step s t = some s' → (Safe s' ↔ Timely .inr s t) := by
  have hsound := sound_of_timely (programs_protocol request) h
  refine ⟨safe_of_sound hsound, fun t s' hs => ⟨timely_of_safe hsound.inv hs, ?_⟩⟩
  intro ht
  exact safe_of_sound (sound_step (programs_protocol request) hsound ht hs)

end

/-- The removal begins between the start of a request and its acquisition. -/
def lateRun : List (Unit ⊕ Device) := [.inl (), .inr .second, .inr .second, .inl (), .inr .second]

def late : State Device Work (Unit ⊕ Device) :=
  ((system (programs fun _ => (.second, .create))).exec (fun _ _ => True) (begin (programs fun _ => (.second, .create)))
    lateRun).get (by decide)

theorem deleted_under_request :
    ¬ ∀ s, (system (programs fun _ : Unit => (.second, .create))).Reachable s → Safe s := by
  intro h
  have hs := h late (System.reach_of_exec rfl lateRun (Option.some_get _).symm)
  exact absurd (hs.deleted .second [] (by decide) ()) (by decide)

def timelyRun : List (Unit ⊕ Device) :=
  [.inl (), .inl (), .inr .first, .inr .first, .inl (), .inl (), .inl (), .inl (), .inl (), .inr .first]

def timely : State Device Work (Unit ⊕ Device) :=
  ((system (programs fun _ => (.first, .create))).exec (Timely .inr) (begin (programs fun _ => (.first, .create)))
    timelyRun).get (by decide)

theorem rundown_while_timely_passed :
    timely.todo (.inl ()) = [.release .second] ∧ timely.todo (.inr .first) = [.delete .first] ∧ Safe timely :=
  ⟨by decide, by decide, (rundown_while_timely (fun _ => (.first, .create)) timely
    (System.reach_of_exec rfl timelyRun (Option.some_get _).symm)).1⟩

/-! ## Requests to the notification driver and its unload -/

def notificationPrograms (request : R → Request) : R ⊕ Unit → Code
  | .inl r => Notification.dispatch (request r)
  | .inr () => Notification.gdrvUninitGlobalData

theorem notification_protocol (request : R → Request) : Protocol (notificationPrograms request) fun _ => .inr () := by
  apply protocol_of
  · intro t
    cases t with
    | inl r => exact dispatch_disciplined .notification _
    | inr => exact unload_disciplined .notification
  · intro t d h
    cases t with
    | inl r => exact absurd h (dispatch_no_removal .notification _ _)
    | inr => rfl
  · change ∀ d, (unload .notification).count (.beginRemove d) ≤ 1
    decide
  · intro d
    cases d <;> rfl

section
variable [DecidableEq R] (s : State Device Work (R ⊕ Unit))

/-- `GdrvUninitGlobalData` takes `gDrvData.Lock` when no holder of the remove lock
has yet to take it, and until the removal begins no request that has to take it
becomes a holder. -/
def Apart : R ⊕ Unit → Prop
  | .inl r => (s.todo (.inl r)).head? = some (.acquire .notification) → s.owner = some (.inr ()) →
      s.removed .notification = false → .lock ∉ s.todo (.inl r)
  | .inr () => (s.todo (.inr ())).head? = some .lock → ∀ r, s.held (.inl r) .notification = true → .lock ∉ s.todo (.inl r)

instance [Fintype R] : ∀ t, Decidable (Apart s t)
  | .inl _ => inferInstanceAs (Decidable (_ → _ → _ → _))
  | .inr () => inferInstanceAs (Decidable (_ → ∀ _, _ → _))

/-- The unload waits for a holder that waits for the lock of the unload. -/
def Deadlocked : Prop :=
  (∃ rest, s.todo (.inr ()) = .await .notification :: rest) ∧ 0 < s.count .notification ∧
    ∃ r rest, s.held (.inl r) .notification = true ∧ s.todo (.inl r) = .lock :: rest ∧ s.owner = some (.inr ())

/-- Some thread has begun or can still begin, and is not done. -/
def Unfinished : Prop :=
  ∃ t op rest, s.todo t = op :: rest ∧ ∀ d, op = .start d → s.deleted d = false

def NoCrossing : Prop :=
  s.owner = some (.inr ()) → ∀ r, s.held (.inl r) .notification = true → .lock ∉ s.todo (.inl r)

end

theorem request_next (request : Request) {code : Code} (hs : code <:+ Notification.dispatch request) :
    (∀ d rest, code ≠ .await d :: rest) ∧
      ∀ d rest, code = .start d :: rest → inside mutex code = false ∧ inside (refs .notification) code = false := by
  have h : ∀ code ∈ (Notification.dispatch request).tails, (∀ d rest, code ≠ .await d :: rest) ∧
      ∀ d rest, code = .start d :: rest → inside mutex code = false ∧ inside (refs .notification) code = false := by
    refine dispatch_cases (p := fun l => ∀ code ∈ l.tails, (∀ d rest, code ≠ .await d :: rest) ∧
      ∀ d rest, code = .start d :: rest → inside mutex code = false ∧ inside (refs .notification) code = false)
      .notification request ?_ ?_ ?_
    · intro status
      simp [inside, mutex, refs]
    · intro d status
      cases d <;> simp [inside, mutex, refs]
    · intro pid
      simp [inside, mutex, refs]
  exact h code ((List.mem_tails _ _).mpr hs)

theorem unload_next : ∀ code ∈ Notification.gdrvUninitGlobalData.tails,
    (∀ d, code.head? ≠ some (.start d)) ∧ ∀ d, code.head? = some (.await d) →
      d = .notification ∧ inside mutex code = true ∧ inside (refs .notification) code = false := by
  decide

section
variable [DecidableEq R] {request : R → Request} {s s' : State Device Work (R ⊕ Unit)}

theorem NoCrossing.rest (hx : NoCrossing s) {t : R ⊕ Unit} {op : Op Device Work} {rest : Code} (htodo : s.todo t = op :: rest)
    {r : R} (hheld : s.held (.inl r) .notification = true) (howner : s.owner = some (.inr ())) :
    .lock ∉ Function.update s.todo t rest (.inl r) := by
  intro hmem
  apply hx howner r hheld
  by_cases hrt : .inl r = t
  · rw [hrt, Function.update_self] at hmem
    rw [hrt, htodo]
    exact List.mem_cons_of_mem _ hmem
  · rwa [Function.update_of_ne hrt] at hmem

theorem crossing_request (hi : Inv (notificationPrograms request) (fun _ => .inr ()) s) (hx : NoCrossing s) {g : R}
    (ht : Apart s (.inl g)) {op : Op Device Work} {rest : Code} {s₁ : State Device Work (R ⊕ Unit)}
    (htodo : s.todo (.inl g) = op :: rest) (he : Effect s (.inl g) op s₁) :
    NoCrossing { s₁ with todo := Function.update s.todo (.inl g) rest } := by
  intro howner r hheld
  change s₁.owner = some (.inr ()) at howner
  change s₁.held (.inl r) .notification = true at hheld
  rw [effect_owner he] at howner
  have ho : s.owner = some (.inr ()) := by
    cases hm : mutex op with
    | none => simpa only [hm] using howner
    | some opens => cases opens <;> simp [hm] at howner
  by_cases hrg : r = g
  · subst hrg
    rw [effect_held he] at hheld
    cases hr : refs .notification op with
    | none =>
      rw [hr] at hheld
      exact hx.rest htodo hheld ho
    | some opens =>
      cases opens with
      | false =>
        rw [hr] at hheld
        cases hheld
      | true =>
        rw [hr, not_held_of_opens hi htodo hr] at hheld
        have hlock := ht (by rw [htodo, eq_acquire hr]; rfl) ho (by simpa using hheld)
        intro hmem
        apply hlock
        rw [htodo]
        apply List.mem_cons_of_mem _
        simpa only [Function.update_self] using hmem
  · rw [effect_held_other he fun h => hrg (Sum.inl.inj h)] at hheld
    exact hx.rest htodo hheld ho

theorem crossing_unload (hx : NoCrossing s) (ht : Apart s (.inr ())) {op : Op Device Work} {rest : Code}
    {s₁ : State Device Work (R ⊕ Unit)} (htodo : s.todo (.inr ()) = op :: rest) (he : Effect s (.inr ()) op s₁) :
    NoCrossing { s₁ with todo := Function.update s.todo (.inr ()) rest } := by
  intro howner r hheld
  change s₁.owner = some (.inr ()) at howner
  change s₁.held (.inl r) .notification = true at hheld
  rw [effect_owner he] at howner
  rw [effect_held_other he (by simp)] at hheld
  cases hm : mutex op with
  | none => exact hx.rest htodo hheld (by simpa only [hm] using howner)
  | some opens =>
    cases opens with
    | false => simp [hm] at howner
    | true =>
      intro hmem
      refine ht ?_ r hheld ?_
      · rw [htodo, eq_lock hm]
        rfl
      · simpa using hmem

theorem crossing_step (hi : Inv (notificationPrograms request) (fun _ => .inr ()) s) (hx : NoCrossing s) {t : R ⊕ Unit}
    (ht : Apart s t) (h : step s t = some s') : NoCrossing s' := by
  obtain ⟨op, rest, s₁, htodo, he, rfl⟩ := step_effect h
  cases t with
  | inl g => exact crossing_request hi hx ht htodo he
  | inr => exact crossing_unload hx ht htodo he

theorem holder_progress [Fintype R] (hi : Inv (notificationPrograms request) (fun _ => .inr ()) s) (hx : NoCrossing s)
    (howner : s.owner = some (.inr ())) {d : Device} {rest : Code} (htodo : s.todo (.inr ()) = .await d :: rest)
    (hpos : 0 < holders s .notification) : ∃ t s', step s t = some s' := by
  obtain ⟨t, ht⟩ := exists_holder hpos
  have hin := hi.held t .notification ht
  obtain r | u := t
  · have hreq := request_next (request r) (hi.suffix (.inl r))
    have hlock := hx howner r ht
    cases hr : s.todo (.inl r) with
    | nil =>
      rw [hr] at hin
      cases hin
    | cons op rest =>
      refine ⟨_, step_enabled hr ?_ ?_ ?_⟩
      · intro e hop
        subst hop
        rw [(hreq.2 e rest hr).2] at hin
        cases hin
      · intro hop
        subst hop
        rw [hr] at hlock
        exact absurd List.mem_cons_self hlock
      · intro e hop
        subst hop
        exact absurd hr (hreq.1 e rest)
  · have hunl := (unload_next _ ((List.mem_tails _ _).mpr (hi.suffix (.inr ())))).2 d (by rw [htodo]; rfl)
    rw [hunl.2.2] at hin
    cases hin

/-- Without the lock neither a request nor the unload waits for the references. -/
theorem progress_unowned (hi : Inv (notificationPrograms request) (fun _ => .inr ()) s) (howner : s.owner = none)
    (hu : Unfinished s) : ∃ t s', step s t = some s' := by
  obtain ⟨t, op, rest, htodo, hstart⟩ := hu
  refine ⟨t, step_enabled htodo hstart (fun _ => howner) ?_⟩
  intro d hop
  subst hop
  exfalso
  obtain r | u := t
  · exact (request_next (request r) (hi.suffix (.inl r))).1 d rest htodo
  · have hunl := unload_next (s.todo (.inr ())) ((List.mem_tails _ _).mpr (hi.suffix (.inr ())))
    have hin := (hunl.2 d (by rw [htodo]; rfl)).2.1
    rw [← hi.owner, howner] at hin
    cases hin

omit [DecidableEq R] in
/-- The owner of the lock is inside, so it has a next operation, which does not take the lock. -/
theorem owner_next (hi : Inv (notificationPrograms request) (fun _ => .inr ()) s) {t : R ⊕ Unit} (howner : s.owner = some t) :
    ∃ op rest, s.todo t = op :: rest ∧ op ≠ .lock ∧ inside mutex (op :: rest) = true := by
  have hin := (hi.owner t).mp howner
  cases htodo : s.todo t with
  | nil =>
    rw [htodo] at hin
    cases hin
  | cons op rest =>
    rw [htodo] at hin
    refine ⟨op, rest, rfl, ?_, hin⟩
    intro hop
    subst hop
    cases hin

theorem progress [Fintype R] (hi : Inv (notificationPrograms request) (fun _ => .inr ()) s)
    (hc : s.count .notification ≤ holders s .notification) (hx : NoCrossing s) (hu : Unfinished s) :
    ∃ t s', step s t = some s' := by
  cases howner : s.owner with
  | none => exact progress_unowned hi howner hu
  | some t =>
    obtain ⟨op, rest, htodo, hlock, hin⟩ := owner_next hi howner
    obtain r | u := t
    · have hreq := request_next (request r) (hi.suffix (.inl r))
      refine ⟨_, step_enabled htodo ?_ (fun h => absurd h hlock) ?_⟩
      · intro d hop
        subst hop
        rw [← htodo, (hreq.2 d rest htodo).1] at hin
        cases hin
      · intro d hop
        subst hop
        exact absurd htodo (hreq.1 d rest)
    · have hunl := unload_next (s.todo (.inr ())) ((List.mem_tails _ _).mpr (hi.suffix (.inr ())))
      by_cases hawait : ∀ d, op = .await d → s.count d ≤ 0
      · refine ⟨_, step_enabled htodo ?_ (fun h => absurd h hlock) hawait⟩
        intro d hop
        subst hop
        exact absurd (by rw [htodo]; rfl) (hunl.1 d)
      · simp only [not_forall, not_le] at hawait
        obtain ⟨d, rfl, hpos⟩ := hawait
        obtain ⟨rfl, -, -⟩ := hunl.2 d (by rw [htodo]; rfl)
        exact holder_progress hi hx howner htodo (by omega)

theorem crossing_reachable (h : (system (notificationPrograms request)).ReachUnder Apart s) :
    Inv (notificationPrograms request) (fun _ => .inr ()) s ∧ NoCrossing s := by
  apply h.invariant (I := fun s => Inv (notificationPrograms request) (fun _ => .inr ()) s ∧ NoCrossing s)
  · intro s hs
    exact hs ▸ ⟨inv_begin (notification_protocol request), fun ho => by cases ho⟩
  · intro s t s' hi ht hs
    exact ⟨inv_step (notification_protocol request) hi.1 hs, crossing_step hi.1 hi.2 ht hs⟩

/-! ## Crossing requests do deadlock -/

/-- The unload has yet to begin the removal, and until then the count counts the holders. -/
structure Before [Fintype R] (s : State Device Work (R ⊕ Unit)) : Prop where
  begun : s.removed .notification = true ∨ .beginRemove .notification ∈ s.todo (.inr ())
  exact : s.removed .notification = false → Exact s .notification

theorem before_step [Fintype R] (hi : Inv (notificationPrograms request) (fun _ => .inr ()) s) (hb : Before s) {t : R ⊕ Unit}
    (h : step s t = some s') : Before s' := by
  constructor
  · obtain ⟨op, rest, s₁, htodo, he, rfl⟩ := step_effect h
    change s₁.removed .notification = true ∨ _ ∈ Function.update s.todo t rest (.inr ())
    rw [effect_removed he]
    rcases hb.begun with hr | hmem
    · exact .inl (.inl hr)
    · by_cases ht : .inr () = t
      · subst ht
        rw [htodo, List.mem_cons] at hmem
        rw [Function.update_self]
        exact hmem.imp (fun hop => .inr hop.symm) id
      · rw [Function.update_of_ne ht]
        exact .inr hmem
  · intro hr
    have hold : s.removed .notification = false := by
      obtain ⟨op, rest, s₁, htodo, he, rfl⟩ := step_effect h
      rw [← Bool.not_eq_true] at hr ⊢
      exact fun hs => hr ((effect_removed he _).mpr (.inl hs))
    exact exact_step (notification_protocol request) hi (hb.exact hold) (fun _ => hold) h

theorem before_reachable [Fintype R] (h : (system (notificationPrograms request)).Reachable s) :
    Inv (notificationPrograms request) (fun _ => .inr ()) s ∧ Before s := by
  apply h.invariant (I := fun s => Inv (notificationPrograms request) (fun _ => .inr ()) s ∧ Before s)
  · intro s hs
    subst hs
    exact ⟨inv_begin (notification_protocol request),
      .inr (show _ ∈ Notification.gdrvUninitGlobalData by decide), fun _ => exact_begin (notification_protocol request) .notification⟩
  · intro s t s' hi hs
    exact ⟨inv_step (notification_protocol request) hi.1 hs, before_step hi.1 hi.2 hs⟩

theorem unload_ahead : ∀ code ∈ Notification.gdrvUninitGlobalData.tails, .beginRemove .notification ∈ code →
    inside mutex code = true →
      code = [.acquire .notification, .beginRemove .notification, .await .notification, .delete .notification, .unlock] ∨
      code = [.beginRemove .notification, .await .notification, .delete .notification, .unlock] := by
  decide

theorem unload_first : ∀ code ∈ Notification.gdrvUninitGlobalData.tails, code.head? = some .lock →
    .beginRemove .notification ∈ code := by
  decide

theorem request_waits (request : Request) {code : Code} (hs : code <:+ Notification.dispatch request)
    (hin : inside (refs .notification) code = true) (hmem : .lock ∈ code) : code.head? = some .lock := by
  have h : ∀ code ∈ (Notification.dispatch request).tails, inside (refs .notification) code = true → .lock ∈ code →
      code.head? = some .lock := by
    refine dispatch_cases (p := fun l => ∀ code ∈ l.tails, inside (refs .notification) code = true → .lock ∈ code →
      code.head? = some .lock) .notification request ?_ ?_ ?_
    · intro status
      simp
    · intro d status
      simp
    · intro pid
      simp [inside, refs]
  exact h code ((List.mem_tails _ _).mpr hs) hin hmem

structure Crossed (s : State Device Work (R ⊕ Unit)) (r : R) : Prop where
  owner : s.owner = some (.inr ())
  removed : s.removed .notification = false
  held : s.held (.inl r) .notification = true
  waits : .lock ∈ s.todo (.inl r)

theorem crossed_next {r : R} (hc : Crossed s r) {op : Op Device Work} {rest : Code} (htodo : s.todo (.inr ()) = op :: rest)
    (hs : step s (.inr ()) = some s') : s'.todo (.inr ()) = rest ∧ s'.held (.inl r) .notification = true ∧
      .lock ∈ s'.todo (.inl r) ∧ (mutex op = none → s'.owner = some (.inr ())) ∧
      (op ≠ .beginRemove .notification → s'.removed .notification = false) := by
  obtain ⟨op', rest', s₁, htodo', he, rfl⟩ := step_effect hs
  obtain ⟨rfl, rfl⟩ := List.cons.inj (htodo'.symm.trans htodo)
  refine ⟨by simp, ?_, ?_, ?_, ?_⟩
  · change s₁.held (.inl r) .notification = true
    rw [effect_held_other he (by simp)]
    exact hc.held
  · simpa using hc.waits
  · intro hm
    change s₁.owner = _
    rw [effect_owner he, hm]
    exact hc.owner
  · intro hop
    change s₁.removed _ = false
    rw [← Bool.not_eq_true, effect_removed he, hc.removed]
    simp [hop]

theorem deadlock_of_crossed [Fintype R] (hi : Inv (notificationPrograms request) (fun _ => .inr ()) s) (hb : Before s)
    {r : R} (hc : Crossed s r) {rest : Code}
    (htodo : s.todo (.inr ()) = .beginRemove .notification :: .await .notification :: rest) :
    ∃ s', step s (.inr ()) = some s' ∧ Deadlocked s' := by
  obtain ⟨s', hs⟩ := step_enabled htodo (by simp) (by simp) (by simp)
  obtain ⟨htodo', hheld, hwaits, howner, -⟩ := crossed_next hc htodo hs
  have hi' := inv_step (notification_protocol request) hi hs
  have hx := exact_step (notification_protocol request) hi (hb.exact hc.removed) (fun _ => hc.removed) hs
  refine ⟨s', hs, ⟨rest, htodo'⟩, ?_, r, ?_⟩
  · rw [hx.count]
    exact holders_pos hheld
  · have hhead := request_waits (request r) (hi'.suffix (.inl r)) (hi'.held _ _ hheld) hwaits
    obtain ⟨code, hcode⟩ := List.head?_eq_some_iff.mp hhead
    exact ⟨code, hheld, hcode, howner rfl⟩

theorem deadlock_follows [Fintype R] (hi : Inv (notificationPrograms request) (fun _ => .inr ()) s) (hb : Before s)
    {r : R} (hc : Crossed s r) :
    ∃ s', (system (notificationPrograms request)).Path (fun _ _ => True) s s' ∧ Deadlocked s' := by
  have hmem := hb.begun.resolve_left (by simp [hc.removed])
  rcases unload_ahead _ ((List.mem_tails _ _).mpr (hi.suffix (.inr ()))) hmem ((hi.owner _).mp hc.owner) with htodo | htodo
  · obtain ⟨s₁, hs₁⟩ := step_enabled htodo (by simp) (by simp) (by simp)
    obtain ⟨htodo₁, hheld, hwaits, howner, hremoved⟩ := crossed_next hc htodo hs₁
    have hc₁ : Crossed s₁ r := ⟨howner rfl, hremoved (by simp), hheld, hwaits⟩
    obtain ⟨s', hs', hd⟩ :=
      deadlock_of_crossed (inv_step (notification_protocol request) hi hs₁) (before_step hi hb hs₁) hc₁ htodo₁
    exact ⟨s', .snoc (.snoc .refl trivial hs₁) trivial hs', hd⟩
  · obtain ⟨s', hs', hd⟩ := deadlock_of_crossed hi hb hc htodo
    exact ⟨s', .snoc .refl trivial hs', hd⟩

theorem crossed_of_step [Fintype R] (hi : Inv (notificationPrograms request) (fun _ => .inr ()) s) {t : R ⊕ Unit}
    (h : step s t = some s') (ht : ¬ Apart s t) : ∃ r, Crossed s' r := by
  obtain ⟨op, rest, s₁, htodo, he, rfl⟩ := step_effect h
  obtain r | u := t
  · simp only [Apart, not_forall, not_not, htodo, List.head?_cons, Option.some.injEq] at ht
    obtain ⟨rfl, howner, hremoved, hmem⟩ := ht
    refine ⟨r, ?_, ?_, ?_, ?_⟩
    · change s₁.owner = _
      rw [effect_owner he]
      exact howner
    · change s₁.removed _ = false
      rw [← Bool.not_eq_true, effect_removed he, hremoved]
      simp
    · change s₁.held _ _ = true
      rw [effect_held he]
      simp [refs, hremoved]
    · simpa using hmem
  · simp only [Apart, not_forall, not_not, htodo, List.head?_cons, Option.some.injEq] at ht
    obtain ⟨rfl, r, hheld, hmem⟩ := ht
    have hahead := unload_first _ ((List.mem_tails _ _).mpr (hi.suffix (.inr ()))) (by rw [htodo]; rfl)
    refine ⟨r, ?_, ?_, ?_, ?_⟩
    · change s₁.owner = _
      rw [effect_owner he]
      rfl
    · change s₁.removed _ = false
      rw [← Bool.not_eq_true, effect_removed he]
      simpa using fun hr => hi.begun .notification hr hahead
    · change s₁.held _ _ = true
      rw [effect_held_other he (by simp)]
      exact hheld
    · simpa using hmem

/-- **No deadlock.** While the requests that take `gDrvData.Lock` are kept apart from
the unload, it never waits for a request that waits for it, and some thread can
always go on. A step that does not keep them apart leads to a deadlock. -/
theorem no_deadlock_while_apart [Fintype R] (request : R → Request) (s : State Device Work (R ⊕ Unit))
    (h : (system (notificationPrograms request)).ReachUnder Apart s) :
    (¬ Deadlocked s ∧ (Unfinished s → ∃ t s', (system (notificationPrograms request)).step s t = some s')) ∧
      ∀ t s', (system (notificationPrograms request)).step s t = some s' → ¬ Apart s t →
        ∃ s'', (system (notificationPrograms request)).Path (fun _ _ => True) s' s'' ∧ Deadlocked s'' := by
  obtain ⟨hi, hx⟩ := crossing_reachable h
  refine ⟨⟨?_, progress hi (count_le_holders (notification_protocol request) h.reachable _) hx⟩, ?_⟩
  · intro hex
    obtain ⟨-, -, r, rest, hheld, htodo, howner⟩ := hex
    apply hx howner r hheld
    rw [htodo]
    exact List.mem_cons_self
  · intro t s' hs ht
    have hb := (before_reachable h.reachable).2
    obtain ⟨r, hc⟩ := crossed_of_step hi hs ht
    exact deadlock_follows (inv_step (notification_protocol request) hi hs) (before_step hi hb hs) hc

end

/-- The request takes the remove lock, and the unload goes as far as its wait. -/
def crossedRun : List (Unit ⊕ Unit) := [.inl (), .inl (), .inr (), .inr (), .inr ()]

def protectRequest : Request := .deviceControl ⟨thirdIoctlCode, [4, 0, 0, 0]⟩

def crossed : State Device Work (Unit ⊕ Unit) :=
  ((system (notificationPrograms fun _ => protectRequest)).exec (fun _ _ => True)
    (begin (notificationPrograms fun _ => protectRequest)) crossedRun).get (by decide)

theorem unload_deadlock :
    ¬ ∀ s, (system (notificationPrograms fun _ : Unit => protectRequest)).Reachable s →
      ¬ Deadlocked s ∧ (Unfinished s → ∃ t s', (system (notificationPrograms fun _ : Unit => protectRequest)).step s t = some s') := by
  intro h
  apply (h crossed (System.reach_of_exec rfl crossedRun (Option.some_get _).symm)).1
  exact ⟨⟨[.delete .notification, .unlock], by decide⟩, by decide, (), (crossed.todo (.inl ())).tail, by decide, by decide, by decide⟩

/-- One request is served before the unload begins, and one arrives while the unload has the lock. -/
def apartRun : List (Bool ⊕ Unit) :=
  [.inl true, .inl true, .inl true, .inl true, .inl true, .inl false, .inr (), .inr (), .inr (), .inl false]

def apart : State Device Work (Bool ⊕ Unit) :=
  ((system (notificationPrograms fun _ => protectRequest)).exec Apart
    (begin (notificationPrograms fun _ => protectRequest)) apartRun).get (by decide)

theorem no_deadlock_while_apart_protect : (apart.todo (.inl false)).head? = some .lock ∧
    ¬ Deadlocked apart ∧ (Unfinished apart →
      ∃ t s', (system (notificationPrograms fun _ : Bool => protectRequest)).step apart t = some s') := by
  refine ⟨by decide, ?_⟩
  exact (no_deadlock_while_apart (fun _ : Bool => protectRequest) apart
    (System.reach_of_exec rfl apartRun (Option.some_get _).symm)).1

end Dmsk.Ioctl
