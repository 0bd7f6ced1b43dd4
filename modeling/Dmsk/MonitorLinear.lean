import Dmsk.FilterSound
import Dmsk.MonitorSound

/-!
# The notifications in one order

A thread-create notification takes effect at one of its steps: where it
compares the two pids, where it does not find the process, or where it reads
the flag. While no record is removed in use, no flag is read between another
handler's test and setting of it, and no pid is used twice at a time, each
notification is judged as if they had come one after the other, in the order in
which they took effect.
-/

namespace Dmsk.Monitor

variable {w : ℕ} {H : Type}

/-- A notification of a new thread comes with its handler. -/
abbrev Entry (w : ℕ) (H : Type) := Notification w × Option H

abbrev entry (notification : H → ThreadCreate w) (h : H) : Entry w H := (.threadCreate (notification h), some h)

/-- What a step adds to the history. -/
def effect (notification : H → ThreadCreate w) (s : State w H) : Act w H → List (Entry w H)
  | .insertProcess pid process => [(.processCreate pid process, none)]
  | .terminateProcess pid => [(.processTerminate pid, none)]
  | .handler h =>
    match s.pc h with
    | .start => if (notification h).currentProcessPid = (notification h).processId then [entry notification h] else []
    | .getProcess =>
      if s.d.processCollector.getProcess (notification h).processId = .ok none then [entry notification h] else []
    | .wasMainThreadCreated _ => [entry notification h]
    | _ => []

/-- A record is inserted for a pid that has none, and the allocation succeeds. -/
def Fresh (s : State w H) : Act w H → Prop
  | .insertProcess pid process => process.isSome ∧ s.d.processCollector.findProcessUnsafe pid = .ok none
  | _ => True

def Orderly (s : State w H) (a : Act w H) : Prop := Undisturbed s a ∧ OneAtATime s a ∧ Fresh s a

inductive Runs [DecidableEq H] (notification : H → ThreadCreate w) : List (Entry w H) → State w H → Prop
  | nil {s} : (monitor notification).init s → Runs notification [] s
  | snoc {hist s a t} : Runs notification hist s → Orderly s a → step notification s a = some t →
      Runs notification (hist ++ effect notification s a) t

/-! ## Flags to be set -/

section
variable {P Q : Addr w → Prop} {rs : List (Addr w × Process w)}

open Classical in
noncomputable def flagIf (P : Addr w → Prop) (rs : List (Addr w × Process w)) : List (Addr w × Process w) :=
  rs.map fun r => if P r.1 then (r.1, { r.2 with wasMainThreadCreated := true }) else r

theorem flagIf_pid : (flagIf P rs).map (·.2.pid) = rs.map (·.2.pid) := by
  rw [flagIf, List.map_map]
  apply List.map_congr_left
  intro r _
  by_cases h : P r.1 <;> simp [h]

open Classical in
theorem flagIf_congr (h : ∀ r ∈ rs, P r.1 ↔ Q r.1) : flagIf P rs = flagIf Q rs := by
  apply List.map_congr_left
  intro r hr
  dsimp only
  exact if_congr (h r hr) rfl rfl

theorem flagIf_append (rs rs' : List (Addr w × Process w)) : flagIf P (rs ++ rs') = flagIf P rs ++ flagIf P rs' :=
  List.map_append

theorem flagIf_eraseP (q : Handle w) :
    (flagIf P rs).eraseP (fun r => r.2.pid = q) = flagIf P (rs.eraseP fun r => r.2.pid = q) := by
  rw [flagIf, List.eraseP_map]
  congr 2
  funext r
  by_cases h : P r.1 <;> simp [h]

theorem mem_flagIf {r : Addr w × Process w} (h : r ∈ flagIf P rs) :
    ∃ p, (r.1, p) ∈ rs ∧ p.pid = r.2.pid ∧ (r.2.wasMainThreadCreated = true ↔ p.wasMainThreadCreated = true ∨ P r.1) := by
  obtain ⟨x, hx, rfl⟩ := List.mem_map.mp h
  by_cases hP : P x.1
  · refine ⟨x.2, ?_, ?_, ?_⟩ <;> simp [hP, hx]
  · refine ⟨x.2, ?_, ?_, ?_⟩ <;> simp [hP, hx]

theorem mem_flagIf_of {a : Addr w} {p : Process w} (h : (a, p) ∈ rs) :
    ∃ r ∈ flagIf P rs, r.1 = a ∧ r.2.pid = p.pid ∧
      (r.2.wasMainThreadCreated = true ↔ p.wasMainThreadCreated = true ∨ P a) := by
  refine ⟨_, List.mem_map_of_mem h, ?_⟩
  by_cases hP : P a <;> simp [hP]

theorem setFlag_flagIf {a : Addr w} : Records.setFlag (flagIf P rs) a = flagIf (fun b => P b ∨ b = a) rs := by
  rw [Records.setFlag, flagIf, List.map_map]
  apply List.map_congr_left
  intro r _
  by_cases ha : r.1 = a
  · subst ha
    by_cases h : P r.1 <;> simp [h]
  · by_cases h : P r.1 <;> simp [h, ha]

theorem flagIf_setFlag {a : Addr w} : flagIf P (Records.setFlag rs a) = flagIf (fun b => P b ∨ b = a) rs := by
  rw [Records.setFlag, flagIf, List.map_map]
  apply List.map_congr_left
  intro r _
  by_cases ha : r.1 = a
  · subst ha
    by_cases h : P r.1 <;> simp [h]
  · by_cases h : P r.1 <;> simp [h, ha]

/-- Some collector holds the records with these flags set. -/
theorem records_flagIf {c : ProcessCollector w} (hc : Records c rs) : ∃ c', Records c' (flagIf P rs) := by
  have hall : ∀ l : List (Addr w), ∃ c', Records c' (flagIf (fun b => b ∈ l ∧ P b) rs) := by
    intro l
    induction l with
    | nil =>
      refine ⟨c, ?_⟩
      rwa [show flagIf (fun b => b ∈ ([] : List (Addr w)) ∧ P b) rs = rs by simp [flagIf]]
    | cons a l ih =>
      obtain ⟨c', hc'⟩ := ih
      by_cases ha : P a ∧ ∃ p, (a, p) ∈ rs
      · obtain ⟨hP, p, hp⟩ := ha
        obtain ⟨r, hr, rfl, -, -⟩ := mem_flagIf_of (P := fun b => b ∈ l ∧ P b) hp
        obtain ⟨c'', -, hc'', -⟩ := hc'.setMainThreadCreated_ok hr
        have hset : flagIf (fun b => b ∈ r.1 :: l ∧ P b) rs = flagIf (fun b => (b ∈ l ∧ P b) ∨ b = r.1) rs := by
          refine flagIf_congr fun x _ => ?_
          rw [List.mem_cons]
          constructor
          · rintro ⟨hx | hm, hx'⟩
            · exact .inr hx
            · exact .inl ⟨hm, hx'⟩
          · rintro (⟨hm, hx⟩ | hx)
            · exact ⟨.inr hm, hx⟩
            · exact ⟨.inl hx, hx ▸ hP⟩
        exact ⟨c'', hset ▸ setFlag_flagIf ▸ hc''⟩
      · have hsame : flagIf (fun b => b ∈ a :: l ∧ P b) rs = flagIf (fun b => b ∈ l ∧ P b) rs := by
          refine flagIf_congr fun x hx => ?_
          rw [List.mem_cons]
          exact ⟨fun h => ⟨h.1.resolve_left fun hxa => ha ⟨hxa ▸ h.2, x.2, hxa ▸ hx⟩, h.2⟩, fun h => ⟨.inr h.1, h.2⟩⟩
        exact ⟨c', hsame ▸ hc'⟩
  obtain ⟨c', hc'⟩ := hall (rs.map Prod.fst)
  have heq : flagIf P rs = flagIf (fun b => b ∈ rs.map Prod.fst ∧ P b) rs :=
    flagIf_congr fun x hx => ⟨fun h => ⟨List.mem_map_of_mem hx, h⟩, And.right⟩
  exact ⟨c', heq ▸ hc'⟩

end

/-! ## Places in the history -/

/-- The notification took effect where the history was such. -/
def At (hist : List (Entry w H)) (n : ThreadCreate w) (h : H) (Q : List (Notification w) → Prop) : Prop :=
  ∃ pre post, hist = pre ++ (.threadCreate n, some h) :: post ∧ Q (pre.map Prod.fst)

/-- The thread is the first one that another process creates in the target. -/
structure Due (n : ThreadCreate w) (ns : List (Notification w)) : Prop where
  foreign : n.currentProcessPid ≠ n.processId
  alive : Alive (marks n.processId ns)
  unseen : ¬ MainSeen (marks n.processId ns)

/-- The verdict is the one called for, or there was no baseline to compare with
and none could be allocated. -/
def Decided (ns : List (Notification w)) (n : ThreadCreate w) (v : Verdict) : Prop :=
  Judged ns n v ∨ v = .noBaseline ∧ n.baseline = none ∧ Due n ns

/-- What is known of a handler at a position. -/
def Placed (hist : List (Entry w H)) (n : ThreadCreate w) (h : H) (rs : List (Addr w × Process w)) (baseline : Bool) :
    Pc w → Prop
  | .start => h ∉ hist.filterMap Prod.snd
  | .getProcess => h ∉ hist.filterMap Prod.snd ∧ n.currentProcessPid ≠ n.processId
  | .wasMainThreadCreated r => h ∉ hist.filterMap Prod.snd ∧ n.currentProcessPid ≠ n.processId ∧
      ∀ p, (r.process, p) ∈ rs → p.pid = n.processId
  | .setMainThreadCreated r => At hist n h (Due n) ∧ ∀ p, (r.process, p) ∈ rs → p.pid = n.processId
  | .checkAndSetGlobalStackTrace _ => At hist n h (Due n)
  | .compare _ => At hist n h (Due n) ∧ (n.baseline.isSome → baseline = true)
  | .done _ v => At hist n h fun ns => Decided ns n v

/-- A handler is about to set the flag of the record there. -/
def Abs.Pending (A : Abs w H) (a : Addr w) : Prop := ∃ h i, A.pc h = .setMainThreadCreated ⟨a, i⟩

/-- The records with the flags that are set and those that are about to be are what the history says. -/
structure Linear (notification : H → ThreadCreate w) (hist : List (Entry w H)) (s : State w H) (A : Abs w H) : Prop where
  sim : Simulates s A
  safe : Safe s
  follows : ∃ d, Follows d (hist.map Prod.fst) (flagIf A.Pending A.records)
  placed : ∀ h, Placed hist (notification h) h A.records s.d.processCreateGoodStackTrace.isSome (A.pc h)
  once : (hist.filterMap Prod.snd).Nodup

section
variable {hist es : List (Entry w H)} {n : ThreadCreate w} {h : H} {rs rs' : List (Addr w × Process w)} {b b' : Bool}
  {Q : List (Notification w) → Prop} {ns : List (Notification w)} {q : Pc w}

theorem At.append (hat : At hist n h Q) (es : List (Entry w H)) : At (hist ++ es) n h Q := by
  obtain ⟨pre, post, rfl, hQ⟩ := hat
  exact ⟨pre, post ++ es, by rw [List.append_assoc, List.cons_append], hQ⟩

theorem At.mono {R : List (Notification w) → Prop} (hat : At hist n h Q) (hQR : ∀ ns, Q ns → R ns) : At hist n h R := by
  obtain ⟨pre, post, he, hQ⟩ := hat
  exact ⟨pre, post, he, hQR _ hQ⟩

theorem at_last (hQ : Q (hist.map Prod.fst)) : At (hist ++ [(.threadCreate n, some h)]) n h Q := ⟨hist, [], rfl, hQ⟩

theorem Due.judged (hd : Due n ns) (hollow : Bool) : Judged ns n (.checked hollow) := by
  constructor <;> simp [hd.foreign, hd.alive, hd.unseen]

theorem not_mem_append (hh : h ∉ hist.filterMap Prod.snd) (hes : h ∉ es.filterMap Prod.snd) :
    h ∉ (hist ++ es).filterMap Prod.snd := by
  rw [List.filterMap_append, List.mem_append, not_or]
  exact ⟨hh, hes⟩

/-- What others do leaves a handler where it is. -/
theorem Placed.mono (hp : Placed hist n h rs b q) (hes : h ∉ es.filterMap Prod.snd)
    (hrs : ∀ r ∈ q.uses, ∀ p', (r.process, p') ∈ rs' → ∃ p, (r.process, p) ∈ rs ∧ p.pid = p'.pid)
    (hb : b = true → b' = true) : Placed (hist ++ es) n h rs' b' q := by
  have hpid : ∀ r ∈ q.uses, (∀ p, (r.process, p) ∈ rs → p.pid = n.processId) →
      ∀ p', (r.process, p') ∈ rs' → p'.pid = n.processId := by
    intro r hr hp p' hp'
    obtain ⟨p, hmem, he⟩ := hrs r hr p' hp'
    exact he ▸ hp p hmem
  cases q with
  | start => exact not_mem_append hp hes
  | getProcess => exact ⟨not_mem_append hp.1 hes, hp.2⟩
  | wasMainThreadCreated r => exact ⟨not_mem_append hp.1 hes, hp.2.1, hpid r rfl hp.2.2⟩
  | setMainThreadCreated r => exact ⟨hp.1.append es, hpid r rfl hp.2⟩
  | checkAndSetGlobalStackTrace r => exact hp.append es
  | compare r => exact ⟨hp.1.append es, fun h => hb (hp.2 h)⟩
  | done r v => exact At.append (Q := fun ns => Decided ns n v) hp es

end

section
variable [DecidableEq H] {notification : H → ThreadCreate w} {hist es : List (Entry w H)} {s s' : State w H} {A : Abs w H}
  {h : H} {rs : List (Addr w × Process w)} {q : Pc w}

theorem pending_move {a : Addr w} : (A.move h rs q).Pending a ↔
    (∃ i, q = .setMainThreadCreated ⟨a, i⟩) ∨ ∃ g i, g ≠ h ∧ A.pc g = .setMainThreadCreated ⟨a, i⟩ := by
  constructor
  · rintro ⟨g, i, hg⟩
    by_cases hgh : g = h
    · subst hgh
      rw [Abs.move_self] at hg
      exact .inl ⟨i, hg⟩
    · rw [A.move_of_ne hgh] at hg
      exact .inr ⟨g, i, hgh, hg⟩
  · rintro (⟨i, hq⟩ | ⟨g, i, hgh, hg⟩)
    · exact ⟨h, i, by rw [Abs.move_self, hq]⟩
    · exact ⟨g, i, by rw [A.move_of_ne hgh, hg]⟩

/-- A handler that is not about to set a flag, and is not then either, changes nothing that is pending. -/
theorem pending_move_same (h₁ : ∀ r, A.pc h ≠ .setMainThreadCreated r) (h₂ : ∀ r, q ≠ .setMainThreadCreated r)
    {a : Addr w} : (A.move h rs q).Pending a ↔ A.Pending a := by
  rw [pending_move]
  constructor
  · rintro (⟨i, hq⟩ | ⟨g, i, -, hg⟩)
    · exact absurd hq (h₂ _)
    · exact ⟨g, i, hg⟩
  · rintro ⟨g, i, hg⟩
    exact .inr ⟨g, i, fun hgh => h₁ _ (hgh ▸ hg), hg⟩

/-- A step of a handler, which may take effect. -/
theorem Linear.move (hl : Linear notification hist s A) (hsim : Simulates s' (A.move h rs q)) (hsafe : Safe s')
    (hrs : ∀ a p', (a, p') ∈ rs → ∃ p, (a, p) ∈ A.records ∧ p.pid = p'.pid)
    (hb : s.d.processCreateGoodStackTrace.isSome = true → s'.d.processCreateGoodStackTrace.isSome = true)
    (hes : es = [] ∨ es = [entry notification h] ∧ h ∉ hist.filterMap Prod.snd)
    (hfollows : ∃ d, Follows d ((hist ++ es).map Prod.fst) (flagIf (A.move h rs q).Pending rs))
    (hplaced : Placed (hist ++ es) (notification h) h rs s'.d.processCreateGoodStackTrace.isSome q) :
    Linear notification (hist ++ es) s' (A.move h rs q) where
  sim := hsim
  safe := hsafe
  follows := hfollows
  placed g := by
    by_cases hgh : g = h
    · subst hgh
      rw [Abs.move_self]
      exact hplaced
    · rw [A.move_of_ne hgh]
      refine (hl.placed g).mono ?_ (fun r _ p' hp' => hrs _ p' hp') hb
      rcases hes with rfl | ⟨rfl, -⟩
      · simp
      · simpa using hgh
  once := by
    rcases hes with rfl | ⟨rfl, hh⟩
    · rw [List.append_nil]
      exact hl.once
    · rw [List.filterMap_append, List.nodup_append]
      refine ⟨hl.once, by simp, fun g hg g' hg' hgg => hh ?_⟩
      have : g' = h := by simpa using hg'
      exact this ▸ hgg ▸ hg

omit [DecidableEq H] in
/-- The record of a pointer in use is the only one with its pid. -/
theorem Linear.current (hl : Linear notification hist s A) {r : Ref w} (hr : r ∈ (A.pc h).uses) :
    (∃ p, (r.process, p) ∈ A.records) ∧ A.incarnation r.process = r.incarnation := by
  have := hl.sim.safe.mp hl.safe h r hr
  exact ⟨mem_fst.mp this.1, this.2⟩

omit [DecidableEq H] in
theorem Linear.alive (hl : Linear notification hist s A) {a : Addr w} {p : Process w} (hp : (a, p) ∈ A.records) :
    Alive (marks p.pid (hist.map Prod.fst)) := by
  obtain ⟨d, hd⟩ := hl.follows
  obtain ⟨r, hr, -, hpid, -⟩ := mem_flagIf_of (P := A.Pending) hp
  exact (hd.alive _).mp ⟨r, hr, hpid⟩

omit [DecidableEq H] in
theorem Linear.mainSeen (hl : Linear notification hist s A) {a : Addr w} {p : Process w} (hp : (a, p) ∈ A.records) :
    p.wasMainThreadCreated = true ∨ A.Pending a ↔ MainSeen (marks p.pid (hist.map Prod.fst)) := by
  obtain ⟨d, hd⟩ := hl.follows
  obtain ⟨r, hr, -, hpid, hflag⟩ := mem_flagIf_of (P := A.Pending) hp
  rw [← hflag, hd.flag r hr, hpid]

omit [DecidableEq H] in
theorem Linear.record_of_alive (hl : Linear notification hist s A) {q : Handle w}
    (hq : Alive (marks q (hist.map Prod.fst))) : ∃ x : Addr w × Process w, x ∈ A.records ∧ x.2.pid = q := by
  obtain ⟨d, hd⟩ := hl.follows
  obtain ⟨r, hr, hpid⟩ := (hd.alive q).mpr hq
  obtain ⟨p, hp, he, -⟩ := mem_flagIf hr
  exact ⟨_, hp, he.trans hpid⟩

omit [DecidableEq H] in
theorem Linear.pids (hl : Linear notification hist s A) : (A.records.map (·.2.pid)).Nodup := by
  obtain ⟨d, hd⟩ := hl.follows
  exact flagIf_pid ▸ hd.pids

omit [DecidableEq H] in
/-- The reader of a flag: nobody is about to set it. -/
theorem Linear.not_pending (hl : Linear notification hist s A) (ho : OneAtATime s (.handler h)) {r : Ref w}
    (hq : A.pc h = .wasMainThreadCreated r) : ¬ A.Pending r.process := by
  rintro ⟨g, i, hg⟩
  have hi := (hl.current (h := g) (r := ⟨r.process, i⟩) (by rw [hg]; rfl)).2
  have hr := (hl.current (h := h) (r := r) (by rw [hq]; rfl)).2
  have heq : i = r.incarnation := hi.symm.trans hr
  subst heq
  exact ho r (by rw [hl.sim.pc]; exact hq) g (by rw [hl.sim.pc]; exact hg)

/-- A notification that sets no flag. -/
theorem Linear.follows_thread (hl : Linear notification hist s A) (h₁ : ∀ r, A.pc h ≠ .setMainThreadCreated r)
    (h₂ : ∀ r, q ≠ .setMainThreadCreated r) (hdue : ¬ Due (notification h) (hist.map Prod.fst)) :
    ∃ d, Follows d ((hist ++ [entry notification h]).map Prod.fst)
      (flagIf (A.move h A.records q).Pending A.records) := by
  obtain ⟨d, hd⟩ := hl.follows
  refine ⟨d, ?_⟩
  rw [flagIf_congr fun r _ => pending_move_same h₁ h₂, List.map_append]
  refine hd.thread (notification h) hd.records rfl fun r hr => ?_
  rw [hd.flag r hr]
  refine ⟨.inl, fun hor => hor.elim id fun ⟨hpid, hforeign⟩ => ?_⟩
  have halive := (hd.alive _).mp ⟨r, hr, rfl⟩
  rw [← hpid] at halive ⊢
  by_contra hunseen
  exact hdue ⟨hforeign, halive, hunseen⟩

/-- The notification of a main thread: the flag of its record is about to be set. -/
theorem Linear.follows_first (hl : Linear notification hist s A) {r : Ref w} {p : Process w}
    (hq : A.pc h = .wasMainThreadCreated r) (hp : (r.process, p) ∈ A.records) (hpid : p.pid = (notification h).processId)
    (hforeign : (notification h).currentProcessPid ≠ (notification h).processId) :
    ∃ d, Follows d ((hist ++ [entry notification h]).map Prod.fst)
      (flagIf (A.move h A.records (.setMainThreadCreated r)).Pending A.records) := by
  obtain ⟨d, hd⟩ := hl.follows
  obtain ⟨c, hc⟩ := records_flagIf (P := (A.move h A.records (.setMainThreadCreated r)).Pending) hl.sim.records
  have hpending : ∀ a, (A.move h A.records (.setMainThreadCreated r)).Pending a ↔ A.Pending a ∨ a = r.process := by
    intro a
    rw [pending_move]
    constructor
    · rintro (⟨i, hi⟩ | ⟨g, i, -, hg⟩)
      · cases hi
        exact .inr rfl
      · exact .inl ⟨g, i, hg⟩
    · rintro (⟨g, i, hg⟩ | rfl)
      · refine .inr ⟨g, i, fun hgh => ?_, hg⟩
        subst hgh
        rw [hq] at hg
        cases hg
      · exact .inl ⟨r.incarnation, rfl⟩
  rw [List.map_append]
  refine ⟨{ d with processCollector := c }, ?_⟩
  refine hd.thread (notification h) hc (flagIf_pid.trans flagIf_pid.symm) fun x hx => ?_
  obtain ⟨px, hpx, hpidx, hflag⟩ := mem_flagIf hx
  rw [hflag, hpending, ← or_assoc, hl.mainSeen hpx, hpidx]
  refine or_congr Iff.rfl ⟨fun hxr => ⟨?_, hforeign⟩, fun hxr => ?_⟩
  · have heq : px = p := congrArg Prod.snd (hl.sim.records.unique hpx hp hxr)
    rw [← hpidx, heq, hpid]
  · have := List.inj_on_of_nodup_map hl.pids hpx hp (hpidx.trans (hxr.1.symm.trans hpid.symm))
    exact congrArg Prod.fst this

omit [DecidableEq H] in
theorem handlerStep_baseline {incarnation : Addr w → ℕ} {n : ThreadCreate w} {d d' : DrvData w} {p : Pc w}
    (he : handlerStep incarnation n d p = .ok (d', q)) (hb : d.processCreateGoodStackTrace.isSome = true) :
    d'.processCreateGoodStackTrace.isSome = true := by
  cases p with
  | start =>
    cases he
    exact hb
  | getProcess =>
    rw [handlerStep] at he
    cases hg : d.processCollector.getProcess n.processId with
    | error e =>
      rw [hg] at he
      cases he
    | ok o =>
      rw [hg, ok_bind] at he
      cases o <;> cases he <;> exact hb
  | wasMainThreadCreated r =>
    rw [handlerStep] at he
    cases hg : d.processCollector.wasMainThreadCreated r.process with
    | error e =>
      rw [hg] at he
      cases he
    | ok o =>
      rw [hg, ok_bind] at he
      cases o <;> cases he <;> exact hb
  | setMainThreadCreated r =>
    rw [handlerStep] at he
    cases hg : d.processCollector.setMainThreadCreated r.process with
    | error e =>
      rw [hg] at he
      cases he
    | ok c =>
      rw [hg, ok_bind] at he
      cases he
      exact hb
  | checkAndSetGlobalStackTrace r =>
    cases he
    obtain ⟨good, hg⟩ := Option.isSome_iff_exists.mp hb
    rw [fltpCheckAndSetGlobalStackTrace, hg]
    exact hb
  | compare r =>
    cases he
    exact hb
  | done r v =>
    cases he
    exact hb

omit [DecidableEq H] in
theorem HandlerMoves.kept {incarnation : Addr w → ℕ} {pid : Handle w} {rs rs' : List (Addr w × Process w)} {q q' : Pc w}
    (hm : HandlerMoves incarnation pid rs q rs' q') (a : Addr w) (p' : Process w) (hp' : (a, p') ∈ rs') :
    ∃ p, (a, p) ∈ rs ∧ p.pid = p'.pid := by
  cases hm with
  | @set r p hr =>
    obtain ⟨x, hx, he⟩ := List.mem_map.mp hp'
    by_cases hxr : x.1 = r.process
    · rw [if_pos hxr] at he
      cases he
      exact ⟨x.2, hxr ▸ hx, rfl⟩
    · rw [if_neg hxr] at he
      exact ⟨p', he ▸ hx, rfl⟩
  | _ => exact ⟨p', hp', rfl⟩

/-- A step that takes no effect. -/
theorem Linear.silent (hl : Linear notification hist s A) (hsim : Simulates s' (A.move h A.records q))
    (hsafe : Safe s') (h₁ : ∀ r, A.pc h ≠ .setMainThreadCreated r) (h₂ : ∀ r, q ≠ .setMainThreadCreated r)
    (hb : s.d.processCreateGoodStackTrace.isSome = true → s'.d.processCreateGoodStackTrace.isSome = true)
    (hplaced : Placed hist (notification h) h A.records s'.d.processCreateGoodStackTrace.isSome q) :
    Linear notification (hist ++ []) s' (A.move h A.records q) := by
  refine hl.move hsim hsafe (fun a p' hp' => ⟨p', hp', rfl⟩) hb (.inl rfl) ?_ ?_
  · rw [flagIf_congr fun r _ => pending_move_same h₁ h₂, List.append_nil]
    exact hl.follows
  · rwa [List.append_nil]

/-- A step of a handler that takes effect without a change of the records. -/
theorem Linear.judge (hl : Linear notification hist s A) {r : Option (Ref w)} {v : Verdict}
    (hb : s.d.processCreateGoodStackTrace.isSome = true → s'.d.processCreateGoodStackTrace.isSome = true)
    (hsim : Simulates s' (A.move h A.records (.done r v))) (hsafe : Safe s') (h₁ : ∀ r, A.pc h ≠ .setMainThreadCreated r)
    (hh : h ∉ hist.filterMap Prod.snd) (hj : Judged (hist.map Prod.fst) (notification h) v)
    (hdue : ¬ Due (notification h) (hist.map Prod.fst)) :
    Linear notification (hist ++ [entry notification h]) s' (A.move h A.records (.done r v)) :=
  hl.move hsim hsafe (fun a p' hp' => ⟨p', hp', rfl⟩) hb (.inr ⟨rfl, hh⟩)
    (hl.follows_thread h₁ (fun r => by simp) hdue) (at_last (Q := fun ns => Decided ns (notification h) v) (.inl hj))

/-- A handler that is about to set a flag sets it. -/
theorem Linear.set (hl : Linear notification hist s A) {r : Ref w} (hq : A.pc h = .setMainThreadCreated r) :
    ∃ d, Follows d ((hist ++ []).map Prod.fst)
      (flagIf (A.move h (Records.setFlag A.records r.process) (.checkAndSetGlobalStackTrace r)).Pending
        (Records.setFlag A.records r.process)) := by
  rw [List.append_nil, flagIf_setFlag, flagIf_congr (Q := A.Pending)]
  · exact hl.follows
  · intro x _
    rw [pending_move]
    constructor
    · rintro ((⟨i, hi⟩ | ⟨g, i, -, hg⟩) | hx)
      · cases hi
      · exact ⟨g, i, hg⟩
      · exact ⟨h, r.incarnation, by rw [hq, hx]⟩
    · rintro ⟨g, i, hg⟩
      by_cases hgh : g = h
      · subst hgh
        rw [hq] at hg
        cases hg
        exact .inr rfl
      · exact .inl (.inr ⟨g, i, hgh, hg⟩)

/-- One step of a handler. -/
theorem Linear.handler (hl : Linear notification hist s A) (ho : OneAtATime s (.handler h))
    (he : handlerStep A.incarnation (notification h) s.d (A.pc h) = .ok (s'.d, q))
    (hm : HandlerMoves A.incarnation (notification h).processId A.records (A.pc h) rs q)
    (hsim : Simulates s' (A.move h rs q)) (hsafe : Safe s') :
    Linear notification (hist ++ effect notification s (.handler h)) s' (A.move h rs q) := by
  have hplaced := hl.placed h
  have hkeep := handlerStep_baseline he
  simp only [effect, hl.sim.pc]
  cases hq : A.pc h with
  | start =>
    have h₁ : ∀ r, A.pc h ≠ .setMainThreadCreated r := fun r => by simp [hq]
    rw [hq] at he hm hplaced
    obtain rfl := congrArg Prod.snd (Except.ok.inj he)
    by_cases hown : (notification h).currentProcessPid = (notification h).processId
    · simp only [if_pos hown] at hm hsim ⊢
      cases hm
      refine hl.judge hkeep hsim hsafe h₁ hplaced ?_ fun hdue => hdue.foreign hown
      constructor <;> simp [hown]
    · simp only [if_neg hown] at hm hsim ⊢
      cases hm
      exact hl.silent hsim hsafe h₁ (fun r => by simp) hkeep ⟨hplaced, hown⟩
  | getProcess =>
    have h₁ : ∀ r, A.pc h ≠ .setMainThreadCreated r := fun r => by simp [hq]
    rw [hq] at hm hplaced
    simp only [hl.sim.records.getProcess_eq]
    cases hm with
    | missed hfind =>
      have hdead : ¬ Alive (marks (notification h).processId (hist.map Prod.fst)) := by
        intro halive
        obtain ⟨p, hp, hpid⟩ := hl.record_of_alive halive
        exact absurd (decide_eq_true hpid) (List.find?_eq_none.mp hfind _ hp)
      rw [hfind]
      refine hl.judge hkeep hsim hsafe h₁ hplaced.1 ?_ fun hdue => hdead hdue.alive
      constructor <;> simp [hplaced.2, hdead]
    | @found r hfind =>
      rw [hfind]
      refine hl.silent hsim hsafe h₁ (fun r => by simp) hkeep ⟨hplaced.1, hplaced.2, fun p hp => ?_⟩
      have := hl.sim.records.unique hp (List.mem_of_find?_eq_some hfind) rfl
      rw [show p = r.2 from congrArg Prod.snd this]
      simpa using List.find?_some hfind
  | wasMainThreadCreated r =>
    have h₁ : ∀ r, A.pc h ≠ .setMainThreadCreated r := fun r => by simp [hq]
    have hpending := hl.not_pending ho hq
    rw [hq] at hm hplaced
    obtain ⟨hh, hforeign, hpids⟩ := hplaced
    cases hm with
    | remote hp hflag =>
      have halive := hpids _ hp ▸ hl.alive hp
      have hseen := hpids _ hp ▸ (hl.mainSeen hp).mp (.inl hflag)
      refine hl.judge hkeep hsim hsafe h₁ hh ?_ fun hdue => hdue.unseen hseen
      constructor <;> simp [hforeign, halive, hseen]
    | first hp hflag =>
      have halive := hpids _ hp ▸ hl.alive hp
      have hunseen : ¬ MainSeen (marks (notification h).processId (hist.map Prod.fst)) := by
        rw [← hpids _ hp, ← hl.mainSeen hp]
        rintro (hset | hset)
        · rw [hflag] at hset
          cases hset
        · exact hpending hset
      exact hl.move hsim hsafe (fun a p' hp' => ⟨p', hp', rfl⟩) hkeep (.inr ⟨rfl, hh⟩)
        (hl.follows_first hq hp (hpids _ hp) hforeign) ⟨at_last ⟨hforeign, halive, hunseen⟩, hpids⟩
  | setMainThreadCreated r =>
    have hkept := hm.kept
    rw [hq] at hm hplaced
    cases hm with
    | set hp => exact hl.move hsim hsafe hkept hkeep (.inl rfl) (hl.set hq) (hplaced.1.append [])
  | checkAndSetGlobalStackTrace r =>
    have h₁ : ∀ r, A.pc h ≠ .setMainThreadCreated r := fun r => by simp [hq]
    rw [hq] at he hm hplaced
    have hbase : (notification h).baseline.isSome → s'.d.processCreateGoodStackTrace.isSome = true := by
      intro hb
      obtain ⟨good, hg⟩ := baseline_isSome s.d hb
      have hd : fltpCheckAndSetGlobalStackTrace s.d (notification h).baseline = s'.d :=
        congrArg Prod.fst (Except.ok.inj he)
      rw [← hd, hg]
      rfl
    cases hm with
    | baseline => exact hl.silent hsim hsafe h₁ (fun r => by simp) hkeep ⟨hplaced, hbase⟩
  | compare r =>
    have h₁ : ∀ r, A.pc h ≠ .setMainThreadCreated r := fun r => by simp [hq]
    rw [hq] at he hm hplaced
    obtain ⟨hat, hbase⟩ := hplaced
    obtain rfl : Pc.done (some r) (hollowCheck s.d (StackTrace.new s.d.nt (notification h).frames)) = q :=
      congrArg Prod.snd (Except.ok.inj he)
    have hj : ∀ ns, Due (notification h) ns →
        Decided ns (notification h) (hollowCheck s.d (StackTrace.new s.d.nt (notification h).frames)) := by
      intro ns hdue
      rw [hollowCheck]
      cases hg : s.d.processCreateGoodStackTrace with
      | some good => exact .inl (hdue.judged _)
      | none =>
        refine .inr ⟨rfl, ?_, hdue⟩
        rw [← Option.not_isSome_iff_eq_none]
        intro hb
        have := hbase hb
        rw [hg] at this
        cases this
    cases hm with
    | compare _ => exact hl.silent hsim hsafe h₁ (fun r => by simp) hkeep (hat.mono hj)
  | done r v =>
    have h₁ : ∀ r, A.pc h ≠ .setMainThreadCreated r := fun r => by simp [hq]
    rw [hq] at hm hplaced
    cases hm
    exact hl.silent hsim hsafe h₁ (fun r => by simp) hkeep hplaced

omit [DecidableEq H] in
theorem notifyRoutine_baseline {d d' : DrvData w} {pid : Handle w} {info : Option (Option (Addr w))}
    (he : fltCreateProcessNotifyRoutine d pid info = .ok d') :
    d'.processCreateGoodStackTrace = d.processCreateGoodStackTrace := by
  cases info with
  | none =>
    simp only [fltCreateProcessNotifyRoutine, fltpHandleProcessTerminate] at he
    cases hc : d.processCollector.terminateProcess pid with
    | error e =>
      rw [hc] at he
      cases he
    | ok c =>
      rw [hc] at he
      cases he
      rfl
  | some process =>
    simp only [fltCreateProcessNotifyRoutine, fltpHandleProcessCreate] at he
    cases hc : d.processCollector.insertProcess process pid with
    | error e =>
      rw [hc] at he
      cases he
    | ok c =>
      rw [hc] at he
      cases he
      rfl

omit [DecidableEq H] in
theorem Linear.insert (hl : Linear notification hist s A) {pid : Handle w} {a : Addr w} {i : Addr w → ℕ}
    (hnew : a ∉ A.records.map Prod.fst) (hfind : s.d.processCollector.findProcessUnsafe pid = .ok none)
    (hb : s'.d.processCreateGoodStackTrace = s.d.processCreateGoodStackTrace)
    (hsim : Simulates s' ⟨A.records ++ [(a, ⟨pid, false⟩)], i, A.pc⟩) (hsafe : Safe s') :
    Linear notification (hist ++ [(.processCreate pid (some a), none)]) s'
      ⟨A.records ++ [(a, ⟨pid, false⟩)], i, A.pc⟩ where
  sim := hsim
  safe := hsafe
  follows := by
    obtain ⟨d, hd⟩ := hl.follows
    obtain ⟨c, hc⟩ := records_flagIf (P := A.Pending) hsim.records
    have hpending : ¬ A.Pending a := by
      rintro ⟨g, k, hg⟩
      exact hnew (mem_fst.mpr (hl.current (h := g) (r := ⟨a, k⟩) (by rw [hg]; rfl)).1)
    have hlast : flagIf A.Pending [(a, ⟨pid, false⟩)] = [(a, ⟨pid, false⟩)] := by simp [flagIf, hpending]
    rw [hl.sim.records.findProcessUnsafe_eq] at hfind
    have hnone : A.records.find? (fun r => r.2.pid = pid) = none := by simpa using hfind
    have hdead : ¬ Alive (marks pid (hist.map Prod.fst)) := by
      intro halive
      obtain ⟨p, hp, hpid⟩ := hl.record_of_alive halive
      exact absurd (decide_eq_true hpid) (List.find?_eq_none.mp hnone _ hp)
    refine ⟨{ d with processCollector := c }, ?_⟩
    rw [flagIf_append, hlast] at hc
    change Follows _ _ (flagIf A.Pending (A.records ++ [(a, ⟨pid, false⟩)]))
    rw [List.map_append, flagIf_append, hlast]
    exact hd.create hdead hc (some a)
  placed g := by
    refine (hl.placed g).mono (by simp) (fun r hr p' hp' => ?_) (by rw [hb]; exact id)
    rcases List.mem_append.mp hp' with hp' | hp'
    · exact ⟨p', hp', rfl⟩
    · have hra : r.process = a := congrArg Prod.fst (List.mem_singleton.mp hp')
      exact absurd (mem_fst.mpr (hl.current hr).1) (hra ▸ hnew)
  once := by
    rw [List.filterMap_append]
    simpa using hl.once

omit [DecidableEq H] in
theorem Linear.terminate (hl : Linear notification hist s A) {pid : Handle w}
    (hb : s'.d.processCreateGoodStackTrace = s.d.processCreateGoodStackTrace)
    (hsim : Simulates s' ⟨A.records.eraseP fun r => r.2.pid = pid, A.incarnation, A.pc⟩) (hsafe : Safe s') :
    Linear notification (hist ++ [(.processTerminate pid, none)]) s'
      ⟨A.records.eraseP fun r => r.2.pid = pid, A.incarnation, A.pc⟩ where
  sim := hsim
  safe := hsafe
  follows := by
    obtain ⟨d, hd⟩ := hl.follows
    obtain ⟨c, hc⟩ := records_flagIf (P := A.Pending) hsim.records
    refine ⟨{ d with processCollector := c }, ?_⟩
    change Follows _ _ (flagIf A.Pending (A.records.eraseP fun r => r.2.pid = pid))
    rw [← flagIf_eraseP] at hc ⊢
    rw [List.map_append]
    exact hd.terminate hc
  placed g := by
    refine (hl.placed g).mono (by simp) (fun r _ p' hp' => ?_) (by rw [hb]; exact id)
    exact ⟨p', List.mem_of_mem_eraseP hp', rfl⟩
  once := by
    rw [List.filterMap_append]
    simpa using hl.once

theorem Linear.step (hl : Linear notification hist s A) {a : Act w H}
    (ho : Orderly s a) (hst : step notification s a = some s') :
    ∃ A', Linear notification (hist ++ effect notification s a) s' A' := by
  obtain ⟨A', hm, hsim⟩ := hl.sim.step hst
  have hsafe := safe_step hl.sim hl.safe ho.1 hst
  cases hm with
  | refuse => cases ho.2.2.1
  | insert hnew =>
    have hfind := ho.2.2.2
    simp only [Monitor.step] at hst
    split at hst
    swap
    · cases hst
    obtain ⟨d, hd, rfl⟩ := Option.map_eq_some_iff.mp hst
    exact ⟨_, hl.insert hnew hfind (notifyRoutine_baseline (toOption_some hd)) hsim hsafe⟩
  | terminate =>
    obtain ⟨d, hd, rfl⟩ := Option.map_eq_some_iff.mp hst
    exact ⟨_, hl.terminate (notifyRoutine_baseline (toOption_some hd)) hsim hsafe⟩
  | handler hm =>
    rename_i h rs q
    obtain ⟨⟨d, q'⟩, hd, rfl⟩ := Option.map_eq_some_iff.mp hst
    have hq : q' = q := by
      have := congrFun hsim.pc h
      rw [Abs.move_self] at this
      exact (Function.update_self h q' s.pc).symm.trans this
    have he := toOption_some hd
    rw [hl.sim.pc, hl.sim.incarnation, hq] at he
    exact ⟨_, hl.handler ho.2.1 he hm hsim hsafe⟩

/-- No handler faults. -/
theorem Linear.goes_on (hl : Linear notification hist s A) (h : H) :
    (Monitor.step notification s (.handler h)).isSome := by
  have hok : ∃ r, handlerStep s.incarnation (notification h) s.d (s.pc h) = .ok r := by
    rw [hl.sim.pc]
    cases hq : A.pc h with
    | getProcess =>
      rw [handlerStep, hl.sim.records.getProcess_eq, ok_bind]
      cases A.records.find? fun r => r.2.pid = (notification h).processId with
      | none => exact ⟨_, rfl⟩
      | some r => exact ⟨_, rfl⟩
    | wasMainThreadCreated r =>
      obtain ⟨p, hp⟩ := (hl.current (h := h) (r := r) (by rw [hq]; rfl)).1
      rw [handlerStep, hl.sim.records.wasMainThreadCreated_eq hp, ok_bind]
      cases p.wasMainThreadCreated with
      | true => exact ⟨_, rfl⟩
      | false => exact ⟨_, rfl⟩
    | setMainThreadCreated r =>
      obtain ⟨p, hp⟩ := (hl.current (h := h) (r := r) (by rw [hq]; rfl)).1
      obtain ⟨c, hc, -, -⟩ := hl.sim.records.setMainThreadCreated_ok hp
      rw [handlerStep, hc]
      exact ⟨_, rfl⟩
    | _ => exact ⟨_, rfl⟩
  obtain ⟨r, hr⟩ := hok
  simp only [Monitor.step, hr]
  rfl

theorem Runs.linear (hr : Runs notification hist s) :
    ∃ A, Linear notification hist s A := by
  induction hr with
  | nil h0 =>
    refine ⟨_, Simulates.init h0, ?_, ⟨_, h0.1.follows⟩, fun h => by simp [Placed], by simp⟩
    rw [(Simulates.init h0).safe]
    intro h r hr
    cases hr
  | snoc _ ho hst ih =>
    obtain ⟨A, hl⟩ := ih
    exact hl.step ho hst

instance (s : State w H) : ∀ a, Decidable (Fresh s a)
  | .insertProcess _ process => inferInstanceAs (Decidable (process.isSome = true ∧ _))
  | .terminateProcess _ | .handler _ => isTrue trivial

instance [Fintype H] (s : State w H) (a : Act w H) : Decidable (Orderly s a) :=
  inferInstanceAs (Decidable (Undisturbed s a ∧ OneAtATime s a ∧ Fresh s a))

def history (notification : H → ThreadCreate w) : State w H → List (Act w H) → List (Entry w H)
  | _, [] => []
  | s, a :: as => effect notification s a ++ (step notification s a).elim [] fun t => history notification t as

theorem Runs.exec [Fintype H] (hr : Runs notification hist s) {as : List (Act w H)}
    (he : (monitor notification).exec Orderly s as = some s') :
    Runs notification (hist ++ history notification s as) s' := by
  induction as generalizing s hist with
  | nil =>
    cases he
    rwa [history, List.append_nil]
  | cons a as ih =>
    simp only [System.exec] at he
    split at he
    swap
    · cases he
    rename_i ho
    obtain ⟨t, hst, he⟩ := Option.bind_eq_some_iff.mp he
    have hst : step notification s a = some t := hst
    have := ih (hr.snoc ho hst) he
    rw [List.append_assoc] at this
    rw [history, hst]
    exact this

/-- **One order.** In an orderly run no handler faults, each notification takes effect once, after it
began and before it is done, and its verdict is the one that the notifications that took effect before
call for; one that they call to be compared and that cannot allocate a baseline may find none. While no
flag is about to be set, the records are what the history says. -/
theorem monitor_linearizable (notification : H → ThreadCreate w) {hist : List (Entry w H)} {s : State w H} (hr : Runs notification hist s) :
    (∀ h, (step notification s (.handler h)).isSome) ∧ (hist.filterMap Prod.snd).Nodup ∧
    (∀ h, s.pc h = .start → h ∉ hist.filterMap Prod.snd) ∧
    (∀ h r v, s.pc h = .done r v → ∃ pre post, hist = pre ++ entry notification h :: post ∧
      Decided (pre.map Prod.fst) (notification h) v) ∧
    ((∀ h r, s.pc h ≠ .setMainThreadCreated r) → ∃ rs, Follows s.d (hist.map Prod.fst) rs) := by
  obtain ⟨A, hl⟩ := hr.linear
  refine ⟨hl.goes_on, hl.once, fun h hh => ?_, fun h r v hh => ?_, fun hquiet => ?_⟩
  · have hplaced := hl.placed h
    rwa [← hl.sim.pc, hh] at hplaced
  · have hplaced := hl.placed h
    rwa [← hl.sim.pc, hh] at hplaced
  · obtain ⟨d, hd⟩ := hl.follows
    have hnone : flagIf A.Pending A.records = A.records := by
      rw [flagIf_congr (Q := fun _ => False)]
      · simp [flagIf]
      · intro x _
        refine ⟨?_, False.elim⟩
        rintro ⟨h, i, hh⟩
        exact hquiet h _ (by rw [hl.sim.pc]; exact hh)
    rw [hnone] at hd
    exact ⟨A.records, hl.sim.records, hd.pids, hd.alive, hd.flag⟩

end

def linear : State 8 Bool :=
  ((monitor fun _ => remoteThread).exec Orderly started orderedRun).get (by decide)

/-- The thread that takes effect second is the remote one. -/
theorem monitor_linearizable_ordered : linear.pc false = .done (some ⟨10, 1⟩) .remoteThread ∧
    ∃ pre post, history (fun _ => remoteThread) started orderedRun = pre ++ entry (fun _ => remoteThread) false :: post ∧
      Decided (pre.map Prod.fst) remoteThread .remoteThread := by
  have hr : Runs (fun _ => remoteThread) ([] ++ history (fun _ => remoteThread) started orderedRun) linear :=
    (Runs.nil started_init).exec (Option.some_get _).symm
  have hpc : linear.pc false = .done (some ⟨10, 1⟩) .remoteThread := by decide
  exact ⟨hpc, (monitor_linearizable (fun _ => remoteThread) hr).2.2.2.1 false _ _ hpc⟩

end Dmsk.Monitor
