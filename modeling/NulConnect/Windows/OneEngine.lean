import NulConnect.Windows.Cancel

/-! At most one live engine: the invariant of the status, the engine slot and the starts
that may still publish. -/
namespace NulConnect.Windows
open Transition

variable {ι κ : Type*}

/-- The start has a way to `publish` with no further step of another thread. -/
def MayPublish (s : State ι κ) (t : ι) : Prop :=
  s.start t = .accepted ∨ ((s.start t).checks ∧ s.token t = s.generation) ∨
    s.start t = .confirmed

/-- The phases in which the worker counts on an empty engine slot. -/
@[simp] def StartPhase.prepares : StartPhase → Bool
  | .cleaning | .planning | .starting | .started | .installing | .installed | .confirmed => true
  | _ => false

namespace StartPhase

theorem prepares_of_ownsEngine {p : StartPhase} (h : p.ownsEngine) : p.prepares := by
  cases p <;> simp_all

theorem holds_of_prepares {p : StartPhase} (h : p.prepares) : p.holds := by
  cases p <;> simp_all

theorem prepares_succ (p : StartPhase) :
    ∀ q ∈ p.succ, q.prepares → p.prepares ∨ p = .locked ∧ q = .cleaning := by
  cases p <;> decide

end StartPhase

/-- Which thread, or the slot, is to stop the engine `t`. -/
inductive Owned (s : State ι κ) (t : ι) : Prop where
  | slot (h : s.engine = some t)
  | worker (h : (s.start t).ownsEngine)
  | monitor (h : s.monitor t = .cleared)
  | stop (u : κ) (h : s.stop u = .taken) (ht : s.taken u = some t)

@[simp] def TunStatus.busy : TunStatus → Bool
  | .running | .stopping => true
  | _ => false

/-- No start is admitted while another may still publish, a late failure report and a
monitor find no engine of another start, and no stop wraps the generation round. -/
def NoOverlap (s : State ι κ) : Action ι κ → Prop
  | .beginStart _ => (admitStart s.status).isOk → ∀ t, ¬ MayPublish s t
  | .failWrite _ => s.engine = none
  | .monitorClear t => ∀ e, s.engine = some e → e = t
  | .stopCount _ => ∀ t, (s.start t).checks → s.token t ≠ s.generation + 1
  | _ => True

instance [Fintype ι] [DecidableEq ι] (s : State ι κ) (t : ι) : Decidable (MayPublish s t) :=
  inferInstanceAs (Decidable (_ ∨ _))

instance [Fintype ι] [DecidableEq ι] (s : State ι κ) (a : Action ι κ) :
    Decidable (NoOverlap s a) := by
  rcases a with ⟨⟩
  all_goals
    unfold NoOverlap
    infer_instance

/-- One engine at a time, none behind the back of a worker that
prepares the next one, and a status that tells whether the slot is filled. -/
structure OneEngine (s : State ι κ) : Prop where
  unique : ∀ t t', s.live t → s.live t' → t = t'
  prepared : ∀ t, s.start t = .cleaning ∨ s.start t = .starting → s.engine = none
  running : s.operation = none → s.status = .running → s.engine ≠ none
  busy : s.operation = none → s.engine ≠ none → s.status = .running ∨ s.status = .stopping

structure Invariant (s : State ι κ) : Prop where
  exclusive : Exclusive s
  emptied : Emptied s
  quiet : s.engine ≠ none → s.status.busy
  pending : ∀ t, MayPublish s t → s.engine = none
  alone : ∀ t t', MayPublish s t → MayPublish s t' → t = t'
  held : s.status = .running → s.engine = none → ∃ p, Emptying s p
  owned : ∀ t, s.live t → Owned s t
  prepared : ∀ t, (s.start t).prepares → s.engine = none

theorem invariant_initial : Invariant (initial : State ι κ) where
  exclusive := exclusive_initial
  emptied := emptied_initial
  quiet h := absurd rfl h
  pending _ _ := rfl
  alone := by simp [MayPublish, initial]
  held := by simp [initial]
  owned := by simp [initial]
  prepared _ _ := rfl

/-- The engine that a thread inside `operation` is to stop, where it is to stop one. -/
def State.toStop (s : State ι κ) : Thread ι κ → Option ι
  | .worker t | .monitor t => some t
  | .stop r => s.taken r

namespace Invariant

variable {s : State ι κ}

/-- An engine is in the slot, or the slot is empty and the thread that is to stop the
engine holds `operation`. -/
private theorem holder (hs : Invariant s) {t : ι} (ht : Owned s t) :
    s.engine = some t ∨ s.engine = none ∧ ∃ p, Inside s p ∧ s.toStop p = some t := by
  cases ht with
  | slot h => exact .inl h
  | worker h =>
    have hp : (s.start t).prepares := StartPhase.prepares_of_ownsEngine h
    exact .inr ⟨hs.prepared t hp, .worker t, StartPhase.holds_of_prepares hp, rfl⟩
  | monitor h =>
    have hp : Emptying s (.monitor t) := .inl h
    exact .inr ⟨hs.emptied _ hp, .monitor t, hp.inside, rfl⟩
  | stop r h ht =>
    have hp : Emptying s (.stop r) := .inl h
    exact .inr ⟨hs.emptied _ hp, .stop r, hp.inside, ht⟩

theorem oneEngine (hs : Invariant s) : OneEngine s where
  unique t t' ht ht' := by
    obtain h | ⟨hn, p, hp, h⟩ := hs.holder (hs.owned t ht)
    all_goals obtain h' | ⟨hn', p', hp', h'⟩ := hs.holder (hs.owned t' ht')
    · exact Option.some.inj (h.symm.trans h')
    · simp [hn'] at h
    · simp [hn] at h'
    · obtain rfl := hs.exclusive.guarded.unique hp hp'
      exact Option.some.inj (h.symm.trans h')
  prepared t ht := by
    refine hs.prepared t ?_
    obtain ht | ht := ht <;> simp [ht]
  running ho hr he := by
    obtain ⟨p, hp⟩ := hs.held hr he
    have hg := hs.exclusive.guarded
    rw [ho] at hg
    exact hg.outside_of_free p hp.inside
  busy _ he := by
    have hb := hs.quiet he
    cases hst : s.status <;> simp_all

end Invariant

variable [DecidableEq ι] [DecidableEq κ] {s u : State ι κ} {a : Action ι κ} {t : ι}

/-- No step but the admission of a start makes one that may publish. -/
theorem mayPublish_of_step (hok : NoOverlap s a) (h : step s a = some u) (hu : MayPublish u t) :
    MayPublish s t ∨ a = .beginStart t ∧ (admitStart s.status).isOk := by
  obtain hu | ⟨hc, htok⟩ | hu := hu
  · obtain hs | hs := accepted_of_step h hu
    · exact .inl (.inl hs)
    · exact .inr hs
  · left
    obtain ht | ⟨ht, -⟩ := token_of_step h t
    · have hs : s.start t = .accepted ∨ (s.start t).checks := by
        obtain hst | ⟨hst, -⟩ := start_of_step h t
        · exact .inr (hst ▸ hc)
        · exact or_iff_not_imp_left.mpr (StartPhase.checks_succ _ _ hst hc)
      refine hs.imp_right fun hs => .inl ⟨hs, ?_⟩
      obtain hg | ⟨r, rfl, hg⟩ := generation_of_step h
      · rw [← ht, htok, hg]
      · exact absurd (ht ▸ hg ▸ htok) (hok t hs)
    · exact .inl ht
  · left
    obtain hst | ⟨hst, hg, -⟩ := start_of_step h t
    · exact .inr (.inr (hst ▸ hu))
    · refine .inr (.inl ⟨?_, hg (.inr hu)⟩)
      rw [hu] at hst
      cases hp : s.start t <;> simp_all

/-- A monitor or a stop that emptied the slot ends with a report. -/
theorem emptying_left_of_step (hx : Exclusive s) {p : Thread ι κ} (hp : Emptying s p)
    (h : step s a = some u) (hr : u.status = .running) : Emptying u p := by
  cases p with
  | worker t => exact hp
  | monitor t =>
    obtain hm | ⟨hm, -, -, hn⟩ | ⟨hd, -⟩ := monitor_of_step h t
    · simpa [hm] using hp
    · obtain hp | hp := hp
      · simp [hp] at hm
        exact .inr hm
      · exact absurd hr (hn hp)
    · have hi := hx.fresh t (by simp [hd])
      simp [hi] at hp
  | stop r =>
    obtain hm | ⟨hm, -, -, hn⟩ := stop_of_step h r
    · simpa [hm] using hp
    · obtain hp | hp := hp
      · simp [hp] at hm
        exact .inr hm
      · exact absurd hr (hn hp)

theorem Invariant.quiet_step (hs : Invariant s) (hok : NoOverlap s a) (h : step s a = some u)
    (he : u.engine ≠ none) : u.status.busy := by
  obtain ⟨t, ht⟩ := Option.ne_none_iff_exists'.mp he
  obtain hs' | rfl := engine_of_step h ht
  · have hb : s.status.busy := hs.quiet (by simp [hs'])
    obtain hu | ⟨m, -, hadm, -⟩ | ⟨m, -, hu⟩ | ⟨m, rfl, -⟩ | ⟨m, rfl, -⟩ | ⟨r, -, hu⟩ |
      ⟨r, rfl, -⟩ := status_of_step h
    · rw [hu]
      exact hb
    · cases hst : s.status <;> simp_all [admitStart, Except.isOk, Except.toBool]
    · rw [hu]
      rfl
    · exact absurd (hok.symm.trans hs') (by simp)
    · have hn := hs.emptied (.monitor m) (.inr (when_eq_some.mp h).1)
      simp [hn] at hs'
    · rw [hu]
      rfl
    · have hn := hs.emptied (.stop r) (.inr (when_eq_some.mp h).1)
      simp [hn] at hs'
  · obtain ⟨-, rfl⟩ := when_eq_some.mp h
    rfl

omit [DecidableEq ι] [DecidableEq κ] in
theorem Invariant.admitted_quiet (hs : Invariant s) (hadm : (admitStart s.status).isOk) :
    s.engine = none := by
  by_contra he
  have hb := hs.quiet he
  cases hst : s.status <;> simp_all [admitStart, Except.isOk, Except.toBool]

theorem Invariant.pending_step (hs : Invariant s) (hok : NoOverlap s a) (h : step s a = some u)
    (ht : MayPublish u t) : u.engine = none := by
  by_contra he
  obtain ⟨e, he⟩ := Option.ne_none_iff_exists'.mp he
  have hpub := mayPublish_of_step hok h ht
  obtain hs' | rfl := engine_of_step h he
  · obtain hm | ⟨-, hadm⟩ := hpub
    · simp [hs.pending t hm] at hs'
    · simp [hs.admitted_quiet hadm] at hs'
  · obtain ⟨hc, rfl⟩ := when_eq_some.mp h
    obtain hm | ⟨hm, -⟩ := hpub
    · obtain rfl := hs.alone e t (.inr (.inr hc)) hm
      simp [MayPublish] at ht
    · cases hm

theorem Invariant.alone_step (hs : Invariant s) (hok : NoOverlap s a) (h : step s a = some u)
    {t' : ι} (ht : MayPublish u t) (ht' : MayPublish u t') : t = t' := by
  obtain hm | ⟨rfl, hadm⟩ := mayPublish_of_step hok h ht
  all_goals obtain hm' | ⟨ha, hadm'⟩ := mayPublish_of_step hok h ht'
  · exact hs.alone t t' hm hm'
  · subst a
    exact absurd hm (hok hadm' t)
  · exact absurd hm' (hok hadm t')
  · exact Action.beginStart.inj ha

theorem Invariant.held_step (hs : Invariant s) (h : step s a = some u)
    (hr : u.status = .running) (hn : u.engine = none) : ∃ p, Emptying u p := by
  obtain hu | ⟨m, -, -, hu⟩ | ⟨m, rfl, -⟩ | ⟨m, -, hu⟩ | ⟨m, -, hu | hu⟩ | ⟨r, -, hu⟩ |
    ⟨r, -, hu⟩ := status_of_step h
  all_goals try simp [hr] at hu
  · cases he : s.engine with
    | none =>
      obtain ⟨p, hp⟩ := hs.held (hu ▸ rfl) he
      exact ⟨p, emptying_left_of_step hs.exclusive hp h hr⟩
    | some t =>
      obtain he | ⟨m, rfl⟩ | ⟨m, rfl⟩ | ⟨r, rfl⟩ := engine_left_of_step h he
      · simp [he] at hn
      · obtain ⟨-, rfl⟩ := when_eq_some.mp h
        simp at hn
      · obtain ⟨-, rfl⟩ := when_eq_some.mp h
        exact ⟨.monitor m, by simp⟩
      · obtain ⟨-, rfl⟩ := when_eq_some.mp h
        exact ⟨.stop r, by simp⟩
  · obtain ⟨-, rfl⟩ := when_eq_some.mp h
    simp at hn

theorem Invariant.prepared_step (hs : Invariant s) (h : step s a = some u)
    (ht : (u.start t).prepares) : u.engine = none := by
  by_contra he
  obtain ⟨e, he⟩ := Option.ne_none_iff_exists'.mp he
  have hbefore : (s.start t).prepares ∨ MayPublish s t := by
    obtain hst | ⟨hst, hg, -⟩ := start_of_step h t
    · exact .inl (hst ▸ ht)
    · obtain hp | ⟨hl, hc⟩ := StartPhase.prepares_succ _ _ hst ht
      · exact .inl hp
      · exact .inr (.inr (.inl ⟨by simp [hl], hg (.inl hc)⟩))
  have hnone : s.engine = none := hbefore.elim (hs.prepared t) (hs.pending t)
  obtain hs' | rfl := engine_of_step h he
  · simp [hnone] at hs'
  · obtain ⟨hc, rfl⟩ := when_eq_some.mp h
    by_cases hte : t = e
    · subst t
      simp at ht
    · have hin : Inside s (.worker t) := by
        refine StartPhase.holds_of_prepares ?_
        simpa [hte] using ht
      have hin' : Inside s (.worker e) := by simp [Inside, hc]
      exact hte (Thread.worker.inj (hs.exclusive.guarded.unique hin hin'))

theorem Invariant.owned_slot (hs : Invariant s) (hok : NoOverlap s a) (h : step s a = some u)
    (ht : s.engine = some t) : Owned u t := by
  obtain he | ⟨m, rfl⟩ | ⟨m, rfl⟩ | ⟨r, rfl⟩ := engine_left_of_step h ht
  · exact .slot he
  · have hc : s.start m = .confirmed := (when_eq_some.mp h).1
    simp [hs.prepared m (by simp [hc])] at ht
  · obtain rfl := hok t ht
    obtain ⟨-, rfl⟩ := when_eq_some.mp h
    exact .monitor (by simp)
  · obtain ⟨-, rfl⟩ := when_eq_some.mp h
    exact .stop r (by simp) (by simpa using ht)

theorem Invariant.owned_step (hs : Invariant s) (hok : NoOverlap s a) (h : step s a = some u)
    (hlive : u.live t) : Owned u t := by
  have hdead : u.live t ≠ false := by simp [hlive]
  obtain ht | ht := live_of_step h hlive
  · cases hs.owned t ht with
    | slot ht => exact hs.owned_slot hok h ht
    | worker ht =>
      obtain hst | ⟨-, -, hown⟩ := start_of_step h t
      · exact .worker (hst ▸ ht)
      · obtain hu | hu | hu := hown ht
        · exact .worker hu
        · exact absurd hu hdead
        · exact .slot hu
    | monitor ht =>
      obtain hm | ⟨hm, -, hn, -⟩ | ⟨hd, -⟩ := monitor_of_step h t
      · exact .monitor (hm.trans ht)
      · simp only [ht, MonitorPhase.succ, List.mem_singleton] at hm
        exact absurd (hn hm) hdead
      · have hi := hs.exclusive.fresh t (by simp [hd])
        simp [hi] at ht
    | stop r hr ht =>
      obtain hm | ⟨hm, -, hn, -⟩ := stop_of_step h r
      · exact .stop r (hm.trans hr) ((taken_of_step h hr).trans ht)
      · simp only [hr, StopPhase.succ, List.mem_singleton] at hm
        exact absurd (hn hm t ht) hdead
  · exact .worker (by simp [ht])

theorem Invariant.step (hs : Invariant s) (hok : NoOverlap s a) (h : step s a = some u) :
    Invariant u where
  exclusive := hs.exclusive.step h
  emptied := hs.emptied.step hs.exclusive h
  quiet := hs.quiet_step hok h
  pending _ := hs.pending_step hok h
  alone _ _ := hs.alone_step hok h
  held := hs.held_step h
  owned _ := hs.owned_step hok h
  prepared _ := hs.prepared_step h

theorem invariant_of_noOverlap (h : (system ι κ).ReachUnder NoOverlap s) : Invariant s :=
  h.invariant (fun _ hi => hi ▸ invariant_initial) fun _ _ _ _ hs hok hu => hs.step hok hu

/-- In every run without an overlap of starts there is at most one live engine. -/
theorem oneEngine_of_noOverlap (h : (system ι κ).ReachUnder NoOverlap s) : OneEngine s :=
  (invariant_of_noOverlap h).oneEngine

/-- A worker from its admission to the hand-over of its engine. -/
private def startActions (t : Bool) : List (Action Bool Unit) :=
  [.beginStart t, .readGeneration t, .spawnWorker t true, .workerLock t, .checkGeneration t,
    .cleanPersisted t, .buildPlan t true, .engineStart t true, .adapterLuid t true,
    .installPlan t {} true, .recheckGeneration t, .publish t, .spawnMonitor t true]

/-- A start, a stop and a second start that follow each other. -/
theorem oneEngine_restarted : ∃ s : State Bool Unit,
    s.status = .running ∧ s.engine = some true ∧ OneEngine s := by
  have h0 : (system Bool Unit).ReachUnder NoOverlap initial := .init rfl
  have h1 := h0.run (startActions false) (by decide) rfl
  have h2 := h1.run (stopActions ()) (by decide) rfl
  have h3 := h2.run (startActions true) (by decide) rfl
  refine ⟨_, ?_, ?_, oneEngine_of_noOverlap h3⟩
  · rfl
  · rfl

/-- A start admitted between the increment of a stop and its mark survives the stop; the
final `Stopped` of the stop admits a second start with the same generation, and both
engines run. -/
theorem two_engines : ∃ s : State Bool Unit, (system Bool Unit).Reachable s ∧
    s.live false ∧ s.live true ∧ ¬ OneEngine s := by
  have h0 : (system Bool Unit).Reachable initial := .init rfl
  have h1 := System.Reachable.run h0 [.stopCount (), .beginStart false, .readGeneration false,
    .stopMark (), .stopLock (), .stopTake (), .stopUndo (), .stopReport (),
    .spawnWorker false true] rfl
  have h2 := System.Reachable.run h1 (startActions true) rfl
  have h3 := System.Reachable.run h2 [.workerLock false, .checkGeneration false,
    .cleanPersisted false, .buildPlan false true, .engineStart false true] rfl
  exact ⟨_, h3, rfl, rfl, fun h => Bool.false_ne_true (h.unique false true rfl rfl)⟩

end NulConnect.Windows
