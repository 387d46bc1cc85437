import NulConnect.Windows.Steps

/-! The `operation` lock of `WindowsRuntime`: which thread is inside which section. -/
namespace NulConnect.Windows
open Transition

/-- The phases in which the worker holds the guard of `operation`. -/
@[simp] def StartPhase.holds : StartPhase → Bool
  | .locked | .cleaning | .planning | .starting | .started | .installing | .installed
  | .confirmed | .published => true
  | _ => false

@[simp] def MonitorPhase.holds : MonitorPhase → Bool
  | .locked | .confirmed | .taken | .cleared | .undone => true
  | _ => false

@[simp] def StopPhase.holds : StopPhase → Bool
  | .locked | .taken | .undone | .leftovers => true
  | _ => false

variable {ι κ : Type*}

def Inside (s : State ι κ) : Thread ι κ → Prop
  | .worker t => (s.start t).holds
  | .monitor t => (s.monitor t).holds
  | .stop u => (s.stop u).holds

/-- Every thread inside a section of `operation` owns the lock, and conversely. -/
structure Exclusive (s : State ι κ) : Prop where
  guarded : Guarded s.operation (Inside s)
  /-- The monitor is spawned in the last step of the worker. -/
  fresh : ∀ t, s.start t ≠ .done → s.monitor t = .idle

theorem exclusive_initial : Exclusive (initial : State ι κ) := by
  refine ⟨?_, fun _ _ => rfl⟩
  rintro (t | t | u) <;>
    simp [Inside, initial]

variable [DecidableEq ι] [DecidableEq κ] {s u : State ι κ}

omit [DecidableEq κ] in
theorem Exclusive.startStep {t : ι} {p : StartPhase} (hs : Exclusive s)
    (hu : u.start = Function.update s.start t p) (hm : u.monitor = s.monitor)
    (hst : u.stop = s.stop) (hne : s.start t ≠ .done)
    (hop : (u.operation = s.operation ∧ p.holds = (s.start t).holds) ∨
      (s.operation = none ∧ u.operation = some (.worker t) ∧ p.holds) ∨
      ((s.start t).holds ∧ u.operation = none ∧ ¬ p.holds)) : Exclusive u := by
  constructor
  · refine hs.guarded.step (.worker t) ?_ ?_
    · rintro (m | m | m) hmt
      · have : m ≠ t := fun he => hmt (he ▸ rfl)
        simp [Inside, hu, this]
      · simp [Inside, hm]
      · simp [Inside, hst]
    · simpa [Inside, hu] using hop
  · intro m hd
    rw [hm]
    by_cases hmt : m = t
    · exact hs.fresh m (hmt ▸ hne)
    · exact hs.fresh m (by simpa [hu, hmt] using hd)

omit [DecidableEq κ] in
theorem Exclusive.monitorStep {t : ι} {p : MonitorPhase} (hs : Exclusive s)
    (hu : u.monitor = Function.update s.monitor t p) (hst : u.start = s.start)
    (hsp : u.stop = s.stop) (hd : s.start t = .done)
    (hop : (u.operation = s.operation ∧ p.holds = (s.monitor t).holds) ∨
      (s.operation = none ∧ u.operation = some (.monitor t) ∧ p.holds) ∨
      ((s.monitor t).holds ∧ u.operation = none ∧ ¬ p.holds)) : Exclusive u := by
  constructor
  · refine hs.guarded.step (.monitor t) ?_ ?_
    · rintro (m | m | m) hmt
      · simp [Inside, hst]
      · have : m ≠ t := fun he => hmt (he ▸ rfl)
        simp [Inside, hu, this]
      · simp [Inside, hsp]
    · simpa [Inside, hu] using hop
  · intro m hm
    rw [hst] at hm
    have hmt : m ≠ t := fun he => hm (he ▸ hd)
    simpa [hu, hmt] using hs.fresh m hm

omit [DecidableEq ι] in
theorem Exclusive.stopStep {r : κ} {p : StopPhase} (hs : Exclusive s)
    (hu : u.stop = Function.update s.stop r p) (hst : u.start = s.start)
    (hm : u.monitor = s.monitor)
    (hop : (u.operation = s.operation ∧ p.holds = (s.stop r).holds) ∨
      (s.operation = none ∧ u.operation = some (.stop r) ∧ p.holds) ∨
      ((s.stop r).holds ∧ u.operation = none ∧ ¬ p.holds)) : Exclusive u := by
  constructor
  · refine hs.guarded.step (.stop r) ?_ ?_
    · rintro (m | m | m) hmr
      · simp [Inside, hst]
      · simp [Inside, hm]
      · have : m ≠ r := fun he => hmr (he ▸ rfl)
        simp [Inside, hu, this]
    · simpa [Inside, hu] using hop
  · intro m hd
    rw [hst] at hd
    rw [hm]
    exact hs.fresh m hd

omit [DecidableEq ι] [DecidableEq κ] in
/-- A monitor that runs belongs to a worker that is done. -/
theorem Exclusive.worker_done (hs : Exclusive s) {t : ι} (hm : s.monitor t ≠ .idle) :
    s.start t = .done := by
  by_contra hd
  exact hm (hs.fresh t hd)

theorem Exclusive.step {a : Action ι κ} (hs : Exclusive s) (h : step s a = some u) :
    Exclusive u := by
  cases a with
  | beginStart t =>
    obtain ⟨hp, rfl⟩ := when_eq_some.mp h
    cases admitStart s.status
    all_goals exact hs.startStep rfl rfl rfl (by simp [hp]) (by simp [hp])
  | readGeneration t | cleanPersisted t | publish t | failWrite t =>
    obtain ⟨hp, rfl⟩ := when_eq_some.mp h
    exact hs.startStep rfl rfl rfl (by simp [hp]) (by simp [hp])
  | workerLock t =>
    obtain ⟨⟨hp, ho⟩, rfl⟩ := when_eq_some.mp h
    exact hs.startStep rfl rfl rfl (by simp [hp]) (by simp [ho])
  | spawnWorker t ok | buildPlan t ok | engineStart t ok | adapterLuid t ok =>
    obtain ⟨hp, rfl⟩ := when_eq_some.mp h
    cases ok
    all_goals exact hs.startStep rfl rfl rfl (by simp [hp]) (by simp [hp])
  | installPlan t network ok =>
    obtain ⟨hp, rfl⟩ := when_eq_some.mp h
    cases ok
    all_goals exact hs.startStep rfl rfl rfl (by simp [hp]) (by simp [hp])
  | checkGeneration t | recheckGeneration t | failCheck t =>
    obtain ⟨hp, rfl⟩ := when_eq_some.mp h
    split_ifs
    all_goals exact hs.startStep rfl rfl rfl (by simp [hp]) (by simp [hp])
  | spawnMonitor t ok =>
    obtain ⟨hp, rfl⟩ := when_eq_some.mp h
    have hw : Exclusive (workerReturns s t .done) :=
      hs.startStep rfl rfl rfl (by simp [hp]) (by simp [hp])
    have hi : s.monitor t = .idle := hs.fresh t (by simp [hp])
    cases ok
    all_goals exact hw.monitorStep rfl rfl rfl (by simp) (by simp [hi])
  | engineEnds t r =>
    obtain ⟨-, rfl⟩ := when_eq_some.mp h
    exact ⟨hs.guarded, hs.fresh⟩
  | monitorWake t | monitorStatus t | monitorRecheck t =>
    obtain ⟨hp, rfl⟩ := when_eq_some.mp h
    have hd := hs.worker_done (t := t) (by simp [hp])
    split_ifs
    all_goals exact hs.monitorStep rfl rfl rfl hd (by simp [hp])
  | monitorLock t =>
    obtain ⟨⟨hp, ho⟩, rfl⟩ := when_eq_some.mp h
    exact hs.monitorStep rfl rfl rfl (hs.worker_done (by simp [hp])) (by simp [ho])
  | monitorTakeResult t | monitorClear t | monitorUndo t | monitorReport t =>
    obtain ⟨hp, rfl⟩ := when_eq_some.mp h
    exact hs.monitorStep rfl rfl rfl (hs.worker_done (by simp [hp])) (by simp [hp])
  | stopLock r | leftoverLock r =>
    obtain ⟨⟨hp, ho⟩, rfl⟩ := when_eq_some.mp h
    exact hs.stopStep rfl rfl rfl (by simp [ho])
  | stopCount r | stopMark r | stopTake r | stopUndo r | stopReport r | leftoverClean r =>
    obtain ⟨hp, rfl⟩ := when_eq_some.mp h
    exact hs.stopStep rfl rfl rfl (by simp [hp])

/-- The sections in which a monitor or a stop has emptied the engine slot. -/
@[simp] def Emptying (s : State ι κ) : Thread ι κ → Prop
  | .worker _ => False
  | .monitor t => s.monitor t = .cleared ∨ s.monitor t = .undone
  | .stop r => s.stop r = .taken ∨ s.stop r = .undone

omit [DecidableEq ι] [DecidableEq κ] in
theorem Emptying.inside {p : Thread ι κ} (hp : Emptying s p) : Inside s p := by
  cases p with
  | worker t => exact hp.elim
  | monitor t => rcases hp with hp | hp <;> simp [Inside, hp]
  | stop r => rcases hp with hp | hp <;> simp [Inside, hp]

theorem emptying_of_step {p : Thread ι κ} {a : Action ι κ} (h : step s a = some u)
    (hp : Emptying u p) : Inside s p ∧ (Emptying s p ∨ u.engine = none) := by
  cases p with
  | worker t => exact hp.elim
  | monitor t =>
    obtain he | ⟨hm, hc, -, -⟩ | ⟨-, hi⟩ := monitor_of_step h t
    · have hs : Emptying s (.monitor t) := by simpa [he] using hp
      exact ⟨hs.inside, .inl hs⟩
    · obtain hp | hp := hp
      all_goals
        rw [hp] at hm hc
        cases hs : s.monitor t
        all_goals simp_all [Inside]
    · rcases hp with hp | hp <;> simp [hp] at hi
  | stop r =>
    obtain he | ⟨hm, hc, -, -⟩ := stop_of_step h r
    · have hs : Emptying s (.stop r) := by simpa [he] using hp
      exact ⟨hs.inside, .inl hs⟩
    · obtain hp | hp := hp
      all_goals
        rw [hp] at hm hc
        cases hs : s.stop r
        all_goals simp_all [Inside]

/-- The engine slot is empty while a thread that emptied it holds `operation`. -/
def Emptied (s : State ι κ) : Prop := ∀ p, Emptying s p → s.engine = none

omit [DecidableEq ι] [DecidableEq κ] in
theorem emptied_initial : Emptied (initial : State ι κ) := fun _ _ => rfl

theorem Emptied.step {a : Action ι κ} (hs : Emptied s) (hx : Exclusive s)
    (h : step s a = some u) : Emptied u := by
  intro p hp
  obtain ⟨hin, hs' | hn⟩ := emptying_of_step h hp
  · by_contra he
    obtain ⟨t, ht⟩ := Option.ne_none_iff_exists'.mp he
    obtain ho | rfl := engine_of_step h ht
    · simp [hs p hs'] at ho
    · have hw : Inside s (.worker t) := by simp [Inside, (when_eq_some.mp h).1]
      obtain rfl := hx.guarded.unique hin hw
      exact hs'
  · exact hn

end NulConnect.Windows
