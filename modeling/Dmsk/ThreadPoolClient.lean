import Dmsk.ThreadPoolSchedule

/-!
# A pool with one client

A thread makes a pool, calls `EnqueueItem` for some callbacks one after the
other and then `Shutdown`, as the tests of the pool do. `Client` says when that
thread takes its next step; the workers are free. No call of it is refused, so
the pool runs those callbacks, and no others.
-/

namespace Dmsk.ThreadPool

variable {n : Nat} {κ σ : Type} {exec : κ → σ → σ} {shared : σ} {cs : List κ}

def Pc.isIdle : Pc κ → Bool
  | .user .idle => true
  | _ => false

/-- The client enqueues `cs` in order and then shuts the pool down. The destructor
of the pool calls `Shutdown` again. -/
def Client (cs : List κ) (s : Pool n Unit κ σ) : Act n Unit κ → Prop
  | .call t c => t = .producer () ∧ s.shutdownPc = .notCalled ∧ cs[s.accepted.length]? = some c
  | .shutdown => s.shutdownPc = .notCalled → (s.pc (.producer ())).isIdle = true ∧ s.accepted.length = cs.length
  | _ => True

instance [DecidableEq κ] (s : Pool n Unit κ σ) : (a : Act n Unit κ) → Decidable (Client cs s a)
  | .call t c => inferInstanceAs (Decidable (t = .producer () ∧ s.shutdownPc = .notCalled ∧ cs[s.accepted.length]? = some c))
  | .shutdown => inferInstanceAs
      (Decidable (s.shutdownPc = .notCalled → (s.pc (.producer ())).isIdle = true ∧ s.accepted.length = cs.length))
  | .enqueue _ | .work _ => inferInstanceAs (Decidable True)

/-- The callback of a call that has not pushed it yet. -/
def EnqueuePc.asked : EnqueuePc κ → Option κ
  | .lock c | .check c | .emplace c => some c
  | _ => none

def EnqueuePc.refused : EnqueuePc κ → Bool
  | .refuse => true
  | _ => false

/-- The client is at its call number `accepted.length`, or done. -/
structure Serving (cs : List κ) (s : Pool n Unit κ σ) : Prop where
  order : callbacks s = cs.take s.accepted.length
  within : s.accepted.length ≤ cs.length
  asked : ∀ e c, (s.pc (.producer ())).enqueue = some e → e.asked = some c → cs[s.accepted.length]? = some c
  unrefused : ∀ e, (s.pc (.producer ())).enqueue = some e → e.refused = false
  running : s.shutdownPc = .notCalled → s.pendingShutdown = false
  ended : s.shutdownPc ≠ .notCalled → (s.pc (.producer ())).isIdle = true ∧ s.accepted.length = cs.length
  workers : ∀ (w : Fin n) e, (s.pc (.worker w)).enqueue = some e → e = .idle

variable {s s' : Pool n Unit κ σ}

theorem enqueue_of_isIdle {p : Pc κ} (h : p.isIdle = true) : p.enqueue = some .idle := by
  cases p with
  | user e => cases e <;> first | rfl | cases h
  | _ => cases h

/-- What `DoWork` leaves alone, and that a callback of `cs` makes no calls. -/
theorem doWork_keeps {t : Thread n Unit} {d d' : PoolData n Unit κ σ} {p q : Pc κ} (h : doWork exec t d p = some (d', q)) :
    d'.accepted = d.accepted ∧ d'.pendingShutdown = d.pendingShutdown ∧ ∀ e, q.enqueue = some e → e = .idle := by
  cases p with
  | user e => cases h
  | test => cases h; exact ⟨rfl, rfl, fun e he => by cases he⟩
  | get m g =>
    cases g with
    | lock =>
      simp only [doWork, getWorkerItem] at h
      split at h
      · cases h; exact ⟨rfl, rfl, fun e he => by cases he⟩
      · cases h
    | take =>
      simp only [doWork, getWorkerItem] at h
      split at h <;> cases h <;> exact ⟨rfl, rfl, fun e he => by cases he⟩
    | reset x =>
      cases h
      refine ⟨?_, ?_, fun e he => by cases he⟩ <;> split <;> rfl
    | unlock r =>
      cases h
      refine ⟨rfl, rfl, fun e he => ?_⟩
      cases m <;> cases r <;> cases he <;> rfl
  | callback m x e =>
    cases e with
    | idle =>
      cases h
      refine ⟨rfl, rfl, fun e he => ?_⟩
      cases m <;> cases he
    | _ => cases h
  | wait =>
    simp only [doWork] at h
    split at h
    · cases h; exact ⟨rfl, rfl, fun e he => by cases he⟩
    · cases h
  | finished => cases h

theorem serving_start : Serving cs (start shared : Pool n Unit κ σ) where
  order := by simp [callbacks, start]
  within := Nat.zero_le _
  asked e c he hc := by
    cases he
    cases hc
  unrefused e he := by
    cases he
    rfl
  running _ := rfl
  ended h := absurd rfl h
  workers w e he := by cases he

theorem serving_call {t : Thread n Unit} {c : κ} (h : Serving cs s) (hc : Client cs s (.call t c))
    (hs : step exec s (.call t c) = some s') : Serving cs s' := by
  obtain ⟨rfl, hp, hcs⟩ := hc
  simp only [step] at hs
  split at hs
  · rename_i hidle
    cases hs
    have hen : ((s.pc (.producer ())).setEnqueue (.lock c)).enqueue = some (.lock c) := by
      cases hpc : s.pc (.producer ()) <;> rw [hpc] at hidle <;> first | rfl | cases hidle
    refine ⟨h.order, h.within, fun e d he hd => ?_, fun e he => ?_, h.running, fun hn => absurd hp hn, fun w e he => ?_⟩
    · rw [move_pc, Function.update_self, hen] at he
      cases he
      cases hd
      exact hcs
    · rw [move_pc, Function.update_self, hen] at he
      cases he
      rfl
    · exact h.workers w e (by simpa using he)
  · cases hs

theorem serving_enqueue {t : Thread n Unit} (h : Serving cs s) (hs : step exec s (.enqueue t) = some s') : Serving cs s' := by
  simp only [step, Option.bind_eq_some_iff, Option.map_eq_some_iff] at hs
  obtain ⟨e, he, ⟨d', e'⟩, hd, rfl⟩ := hs
  cases t with
  | worker w =>
    rw [h.workers w e he] at hd
    cases hd
  | producer u =>
    have hrun : s.shutdownPc = .notCalled := by
      by_contra hn
      rw [enqueue_of_isIdle (h.ended hn).1] at he
      cases he
      cases hd
    have hen : ((s.pc (.producer u)).setEnqueue e').enqueue = some e' := by
      cases hpc : s.pc (.producer u) <;> rw [hpc] at he <;> first | rfl | cases he
    -- all but the push leave the history as it is
    have keep : ∀ d'' : PoolData n Unit κ σ, d''.accepted = s.accepted → d''.pendingShutdown = s.pendingShutdown →
        (∀ c, e'.asked = some c → e.asked = some c) → e'.refused = false →
        Serving cs (s.move (.producer u) (d'', (s.pc (.producer u)).setEnqueue e')) := by
      intro d'' ha hf hask href
      refine ⟨?_, ?_, fun a c hac hc => ?_, fun a hac => ?_, fun _ => hf.trans (h.running hrun), fun hn => absurd hrun hn,
        fun w a hac => h.workers w a (by simpa using hac)⟩
      · simpa only [callbacks, move_data, ha] using h.order
      · simpa only [move_data, ha] using h.within
      · rw [move_pc, Function.update_self, hen] at hac
        cases hac
        simp only [move_data, ha]
        exact h.asked e c he (hask c hc)
      · rw [move_pc, Function.update_self, hen] at hac
        cases hac
        exact href
    cases e with
    | idle => cases hd
    | lock c =>
      simp only [enqueueItem] at hd
      split at hd
      · cases hd
        exact keep _ rfl rfl (fun _ hc => hc) rfl
      · cases hd
    | check c =>
      simp only [enqueueItem, h.running hrun] at hd
      cases hd
      exact keep _ rfl rfl (fun _ hc => hc) rfl
    | emplace c =>
      cases hd
      have hc := h.asked _ c he rfl
      obtain ⟨hlt, hget⟩ := List.getElem?_eq_some_iff.mp hc
      refine ⟨?_, ?_, fun a d hac hd => ?_, fun a hac => ?_, fun _ => h.running hrun, fun hn => absurd hrun hn,
        fun w a hac => h.workers w a (by simpa using hac)⟩
      · simp only [callbacks, move_data, List.map_append, List.map_cons, List.map_nil, List.length_append,
          List.length_singleton]
        rw [List.take_succ_eq_append_getElem hlt, hget, ← h.order, callbacks]
      · simpa [Nat.succ_le_iff] using hlt
      · rw [move_pc, Function.update_self, hen] at hac
        cases hac
        cases hd
      · rw [move_pc, Function.update_self, hen] at hac
        cases hac
        rfl
    | signal x =>
      cases hd
      exact keep _ (by split <;> rfl) (by split <;> rfl) (fun _ hc => hc) rfl
    | unlock x =>
      cases hd
      exact keep _ rfl rfl (fun _ hc => hc) rfl
    | refuse => cases h.unrefused _ he

theorem serving_work {w : Fin n} (h : Serving cs s) (hs : step exec s (.work w) = some s') : Serving cs s' := by
  simp only [step, Option.map_eq_some_iff] at hs
  obtain ⟨⟨d', q⟩, hw, rfl⟩ := hs
  obtain ⟨ha, hf, hq⟩ := doWork_keeps hw
  refine ⟨?_, ?_, fun e c he hc => ?_, fun e he => ?_, fun hr => hf.trans (h.running hr), fun hn => ?_, fun v e he => ?_⟩
  · simpa only [callbacks, move_data, ha] using h.order
  · simpa only [move_data, ha] using h.within
  · simp only [move_data, ha]
    exact h.asked e c (by simpa using he) hc
  · exact h.unrefused e (by simpa using he)
  · simp only [move_data, ha]
    simpa using h.ended hn
  · by_cases hv : v = w
    · subst hv
      rw [move_pc, Function.update_self] at he
      exact hq e he
    · exact h.workers v e (by simpa [hv] using he)

theorem serving_step {a : Act n Unit κ} (h : Serving cs s) (hc : Client cs s a) (hs : step exec s a = some s') :
    Serving cs s' := by
  cases a with
  | call t c => exact serving_call h hc hs
  | enqueue t => exact serving_enqueue h hs
  | work w => exact serving_work h hs
  | shutdown =>
    have hend : (s.pc (.producer ())).isIdle = true ∧ s.accepted.length = cs.length := by
      by_cases hn : s.shutdownPc = .notCalled
      · exact hc hn
      · exact h.ended hn
    cases shutdown_moves hs <;>
      exact ⟨h.order, h.within, h.asked, h.unrefused, (fun hn => by cases hn), fun _ => hend, h.workers⟩

/-- When `Shutdown` has returned, the pool was given the callbacks `cs`, in order. -/
theorem Serving.callbacks_of_returned (h : Serving cs s) (hret : s.shutdownPc = .returned) : callbacks s = cs := by
  rw [h.order, (h.ended (by rw [hret]; simp)).2, List.take_length]

theorem serving_reach (hr : (pool n Unit exec shared).ReachUnder (Client cs) s) : Serving cs s := by
  refine hr.invariant (I := Serving cs) ?_ fun s a s' h hc hs => serving_step h hc hs
  intro s hs
  subst hs
  exact serving_start

/-- The client's callbacks commute, so what they leave is what one thread leaves. -/
theorem shared_of_client (hn : 0 < n) (hr : (pool n Unit exec shared).ReachUnder (Client cs) s)
    (hret : s.shutdownPc = .returned) (hc : Commute exec cs) : s.shared = runInOrder exec cs shared := by
  have hcs := (serving_reach hr).callbacks_of_returned hret
  rw [← hcs]
  exact (inv_reachable hr.reachable).shared_of_returned hn hret (hcs ▸ hc)

end Dmsk.ThreadPool
