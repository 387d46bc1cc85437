import NulConnect.Macos.Steps

/-! The `tun_operation` lock of `HelperRuntime`: which thread is inside which section, and
the sections in which the engine slot is empty. -/
namespace NulConnect.Macos
open Transition

variable {ι κ : Type*}

/-- The phases in which `start_tun_worker` holds its guard. -/
@[simp] def StartPhase.holds : StartPhase → Bool
  | .locked | .snapshotting | .decoding | .starting | .started | .routing | .probing | .publishing
  | .published | .aborting => true
  | _ => false

@[simp] def MonitorPhase.holds : MonitorPhase ι → Bool
  | .locked | .taken _ | .ending _ | .restored => true
  | _ => false

@[simp] def StopPhase.holds : StopPhase ι → Bool
  | .locked | .cleared | .taken _ | .restored => true
  | _ => false

def Inside (s : State ι κ) : Thread ι κ → Prop
  | .worker t => (s.start t).holds
  | .monitor t => (s.monitor t).holds
  | .stop c => (s.stop c).holds

/-- The worker may have called `stop_tun` itself. -/
@[simp] def StartPhase.mayStop : StartPhase → Bool
  | .stopping | .done => true
  | _ => false

/-- Every thread inside a section of `tun_operation` owns the lock, and conversely. -/
structure Exclusive (s : State ι κ) : Prop where
  guarded : Guarded s.tunOperation (Inside s)
  /-- The monitor is spawned in the last step of the worker. -/
  unmonitored : ∀ t, s.start t ≠ .done → s.monitor t = .idle
  unstopped : ∀ t, ¬ (s.start t).mayStop → s.stop (.worker t) = .idle

theorem exclusive_initial : Exclusive (initial : State ι κ) := by
  refine ⟨?_, fun _ _ => rfl, fun _ _ => rfl⟩
  rintro (t | t | c) <;> simp [Inside, initial]

variable {s u : State ι κ} {t : ι}

namespace Exclusive

/-- A step that moves no thread across the border of a section. -/
theorem frame (hs : Exclusive s) (ho : u.tunOperation = s.tunOperation)
    (hst : u.start = s.start) (hm : u.monitor = s.monitor) (hsp : u.stop = s.stop) :
    Exclusive u := by
  refine ⟨?_, ?_, ?_⟩
  · rw [ho]
    refine hs.guarded.stay fun p => ?_
    cases p <;> simp [Inside, hst, hm, hsp]
  · rw [hst, hm]
    exact hs.unmonitored
  · rw [hst, hsp]
    exact hs.unstopped

theorem worker_done (hs : Exclusive s) (hm : s.monitor t ≠ .idle) : s.start t = .done := by
  by_contra hd
  exact hm (hs.unmonitored t hd)

theorem worker_mayStop (hs : Exclusive s) (hc : s.stop (.worker t) ≠ .idle) :
    (s.start t).mayStop := by
  by_contra hd
  exact hc (hs.unstopped t hd)

variable [DecidableEq ι] [DecidableEq κ]

omit [DecidableEq κ] in
theorem startStep {p : StartPhase} (hs : Exclusive s)
    (hu : u.start = Function.update s.start t p) (hm : u.monitor = s.monitor)
    (hsp : u.stop = s.stop) (hne : s.start t ≠ .done) (hst : s.start t = .stopping → p = .done)
    (hop : (u.tunOperation = s.tunOperation ∧ p.holds = (s.start t).holds) ∨
      (s.tunOperation = none ∧ u.tunOperation = some (.worker t) ∧ p.holds) ∨
      ((s.start t).holds ∧ u.tunOperation = none ∧ ¬ p.holds)) : Exclusive u := by
  refine ⟨hs.guarded.step (.worker t) ?_ (by simpa [Inside, hu] using hop), ?_, ?_⟩
  · rintro (m | m | m) hmt
    · have hne' : m ≠ t := fun he => hmt (he ▸ rfl)
      simp [Inside, hu, hne']
    · simp [Inside, hm]
    · simp [Inside, hsp]
  · intro m hd
    rw [hm]
    by_cases hmt : m = t
    · exact hs.unmonitored m (hmt ▸ hne)
    · exact hs.unmonitored m (by simpa [hu, hmt] using hd)
  · intro m hd
    rw [hsp]
    by_cases hmt : m = t
    · subst m
      refine hs.unstopped t fun hms => hd ?_
      cases hp : s.start t <;> simp_all
    · exact hs.unstopped m (by simpa [hu, hmt] using hd)

omit [DecidableEq κ] in
theorem monitorStep {p : MonitorPhase ι} (hs : Exclusive s)
    (hu : u.monitor = Function.update s.monitor t p) (hst : u.start = s.start)
    (hsp : u.stop = s.stop) (hd : s.start t = .done)
    (hop : (u.tunOperation = s.tunOperation ∧ p.holds = (s.monitor t).holds) ∨
      (s.tunOperation = none ∧ u.tunOperation = some (.monitor t) ∧ p.holds) ∨
      ((s.monitor t).holds ∧ u.tunOperation = none ∧ ¬ p.holds)) : Exclusive u := by
  refine ⟨hs.guarded.step (.monitor t) ?_ (by simpa [Inside, hu] using hop), ?_, ?_⟩
  · rintro (m | m | m) hmt
    · simp [Inside, hst]
    · have hne' : m ≠ t := fun he => hmt (he ▸ rfl)
      simp [Inside, hu, hne']
    · simp [Inside, hsp]
  · intro m hm
    rw [hst] at hm
    have hmt : m ≠ t := fun he => hm (he ▸ hd)
    simpa [hu, hmt] using hs.unmonitored m hm
  · rw [hst, hsp]
    exact hs.unstopped

theorem stopStep {c : Caller ι κ} {p : StopPhase ι} (hs : Exclusive s)
    (hu : u.stop = Function.update s.stop c p) (hst : u.start = s.start)
    (hm : u.monitor = s.monitor) (hc : ∀ t, c = .worker t → (s.start t).mayStop)
    (hop : (u.tunOperation = s.tunOperation ∧ p.holds = (s.stop c).holds) ∨
      (s.tunOperation = none ∧ u.tunOperation = some (.stop c) ∧ p.holds) ∨
      ((s.stop c).holds ∧ u.tunOperation = none ∧ ¬ p.holds)) : Exclusive u := by
  refine ⟨hs.guarded.step (.stop c) ?_ (by simpa [Inside, hu] using hop), ?_, ?_⟩
  · rintro (m | m | m) hmc
    · simp [Inside, hst]
    · simp [Inside, hm]
    · have hne : m ≠ c := fun he => hmc (he ▸ rfl)
      simp [Inside, hu, hne]
  · rw [hst, hm]
    exact hs.unmonitored
  · intro m hd
    rw [hst] at hd
    have hne : Caller.worker m ≠ c := fun he => hd (hc m he.symm)
    simpa [hu, hne] using hs.unstopped m hd

omit [DecidableEq ι] [DecidableEq κ] in
/-- A worker inside `stop_tun` has called it at its end. -/
theorem caller_mayStop (hs : Exclusive s) {c : Caller ι κ} (hc : s.stop c ≠ .idle) (t : ι)
    (ht : c = .worker t) : (s.start t).mayStop := by
  subst c
  exact hs.worker_mayStop hc

theorem step {a : Action ι κ} (hs : Exclusive s) (h : step s a = some u) : Exclusive u := by
  cases a with
  | writeStarting m ok | spawnWorker m ok | snapshotNetwork m ok | decodeConfig m ok
  | engineStart m ok | interfaceName m ok | setupRoutes m ok | waitSetup m ok
  | writeRunning m ok =>
    obtain ⟨hp, rfl⟩ := when_eq_some.mp h
    cases ok
    all_goals exact hs.startStep rfl rfl rfl (by simp [hp]) (by simp [hp]) (by simp [hp])
  | beginStart m | checkEngine m =>
    obtain ⟨hp, rfl⟩ := when_eq_some.mp h
    split_ifs
    all_goals exact hs.startStep rfl rfl rfl (by simp [hp]) (by simp [hp]) (by simp [hp])
  | workerLock m =>
    obtain ⟨⟨hp, ho⟩, rfl⟩ := when_eq_some.mp h
    exact hs.startStep rfl rfl rfl (by simp [hp]) (by simp [hp]) (by simp [ho])
  | abort m | publish m | reportFailure m =>
    obtain ⟨hp, rfl⟩ := when_eq_some.mp h
    exact hs.startStep rfl rfl rfl (by simp [hp]) (by simp [hp]) (by simp [hp])
  | clearStarting m =>
    obtain ⟨hp, rfl⟩ := when_eq_some.mp h
    obtain hp | hp := hp
    all_goals exact hs.startStep rfl rfl rfl (by simp [hp]) (by simp [hp]) (by simp [hp])
  | workerStopped m =>
    obtain ⟨⟨hp, -⟩, rfl⟩ := when_eq_some.mp h
    exact hs.startStep rfl rfl rfl (by simp [hp]) (by simp) (by simp [hp])
  | spawnMonitor m =>
    obtain ⟨hp, rfl⟩ := when_eq_some.mp h
    have hw : Exclusive (s.setStart m .done) :=
      hs.startStep rfl rfl rfl (by simp [hp]) (by simp) (by simp [hp])
    have hi : s.monitor m = .idle := hs.unmonitored m (by simp [hp])
    exact hw.monitorStep rfl rfl rfl (by simp) (by simp [hi])
  | monitorNotSpawned m message =>
    obtain ⟨hp, rfl⟩ := when_eq_some.mp h
    have hw : Exclusive (s.setStart m .stopping) :=
      hs.startStep rfl rfl rfl (by simp [hp]) (by simp [hp]) (by simp [hp])
    have hi : s.stop (.worker m) = .idle := hs.unstopped m (by simp [hp])
    exact hw.stopStep rfl rfl rfl (by simp) (by simp [hi])
  | monitorCheck m =>
    obtain ⟨hp, rfl⟩ := when_eq_some.mp h
    have hd := hs.worker_done (t := m) (by simp [hp])
    refine hs.monitorStep rfl rfl rfl hd (.inl ⟨rfl, ?_⟩)
    rw [hp]
    split
    · rfl
    · split_ifs <;> rfl
  | monitorLock m =>
    obtain ⟨⟨hp, ho⟩, rfl⟩ := when_eq_some.mp h
    exact hs.monitorStep rfl rfl rfl (hs.worker_done (by simp [hp])) (by simp [ho])
  | monitorTake m =>
    obtain ⟨hp, rfl⟩ := when_eq_some.mp h
    have hd := hs.worker_done (t := m) (by simp [hp])
    cases s.tunEngine
    all_goals exact hs.monitorStep rfl rfl rfl hd (by simp [hp])
  | monitorTakeResult m | monitorStop m =>
    simp only [Macos.step] at h
    split at h
    · next hp =>
      obtain rfl := Option.some.inj h
      exact hs.monitorStep rfl rfl rfl (hs.worker_done (by simp [hp])) (by simp [hp])
    · cases h
  | monitorReport m =>
    obtain ⟨hp, rfl⟩ := when_eq_some.mp h
    exact hs.monitorStep rfl rfl rfl (hs.worker_done (by simp [hp])) (by simp [hp])
  | stopRequest r =>
    obtain ⟨hp, rfl⟩ := when_eq_some.mp h
    exact hs.stopStep rfl rfl rfl (by simp) (by simp [hp])
  | stopLock c =>
    obtain ⟨⟨hp, ho⟩, rfl⟩ := when_eq_some.mp h
    exact hs.stopStep rfl rfl rfl (hs.caller_mayStop (by simp [hp])) (by simp [ho])
  | stopClearFailure c | stopTake c | stopWrite c ok =>
    obtain ⟨hp, rfl⟩ := when_eq_some.mp h
    exact hs.stopStep rfl rfl rfl (hs.caller_mayStop (by simp [hp])) (by simp [hp])
  | stopEngine c =>
    simp only [Macos.step] at h
    split at h
    · next hp =>
      obtain rfl := Option.some.inj h
      exact hs.stopStep rfl rfl rfl (hs.caller_mayStop (by simp [hp])) (by simp [hp])
    · cases h
  | startReturns | engineEnds | queryStarting | queryFailure | queryEngine =>
    obtain ⟨-, rfl⟩ := when_eq_some.mp h
    exact hs.frame rfl rfl rfl rfl

end Exclusive

/-- The phases in which a monitor or a stop has emptied the engine slot. -/
@[simp] def MonitorPhase.empties : MonitorPhase ι → Bool
  | .taken _ | .ending _ | .restored => true
  | _ => false

@[simp] def StopPhase.empties : StopPhase ι → Bool
  | .taken _ | .restored => true
  | _ => false

@[simp] def Emptying (s : State ι κ) : Thread ι κ → Prop
  | .worker _ => False
  | .monitor t => (s.monitor t).empties
  | .stop c => (s.stop c).empties

theorem MonitorEdge.empties {p q : MonitorPhase ι} (he : MonitorEdge s u t p q)
    (hq : q.empties) : p.holds ∧ (p.empties ∨ u.tunEngine = none) := by
  cases he <;> simp_all

theorem StopEdge.empties {a : Action ι κ} {c : Caller ι κ} {p q : StopPhase ι}
    (he : StopEdge s u a c p q) (hq : q.empties) : p.holds ∧ (p.empties ∨ u.tunEngine = none) := by
  cases he <;> simp_all

theorem Emptying.inside {p : Thread ι κ} (hp : Emptying s p) : Inside s p := by
  cases p with
  | worker t => exact hp.elim
  | monitor t => cases hm : s.monitor t <;> simp_all [Inside]
  | stop c => cases hc : s.stop c <;> simp_all [Inside]

variable [DecidableEq ι] [DecidableEq κ]

theorem emptying_of_step {p : Thread ι κ} {a : Action ι κ} (h : step s a = some u)
    (hp : Emptying u p) : Inside s p ∧ (Emptying s p ∨ u.tunEngine = none) := by
  cases p with
  | worker t => exact hp.elim
  | monitor t =>
    obtain he | he := monitor_of_step h t
    · have hs : Emptying s (.monitor t) := by simpa [he] using hp
      exact ⟨hs.inside, .inl hs⟩
    · exact he.empties hp
  | stop c =>
    obtain he | he := stop_of_step h c
    · have hs : Emptying s (.stop c) := by simpa [he] using hp
      exact ⟨hs.inside, .inl hs⟩
    · exact he.empties hp

/-- The engine slot is empty while a thread that emptied it holds `tun_operation`. -/
def Emptied (s : State ι κ) : Prop := ∀ p, Emptying s p → s.tunEngine = none

omit [DecidableEq ι] [DecidableEq κ] in
theorem emptied_initial : Emptied (initial : State ι κ) := fun _ _ => rfl

theorem Emptied.step {a : Action ι κ} (hs : Emptied s) (hx : Exclusive s)
    (h : step s a = some u) : Emptied u := by
  intro p hp
  obtain ⟨hin, hs' | hn⟩ := emptying_of_step h hp
  · by_contra he
    obtain ⟨t, ht⟩ := Option.ne_none_iff_exists'.mp he
    obtain ho | rfl := engine_of_step h ht
    · simp [hs p hs'] at ho
    · have hpub : s.start t = .publishing := (when_eq_some.mp h).1
      have hw : Inside s (.worker t) := by simp [Inside, hpub]
      obtain rfl := hx.guarded.unique hin hw
      exact hs'
  · exact hn

end NulConnect.Macos
