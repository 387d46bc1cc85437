import NulConnect.Transition.Update
import NulConnect.Macos.Runtime

/-! What one step of `HelperRuntime` can do: how each thread moves on, and which steps write
the engine slot, the results and the replies. -/
namespace NulConnect.Macos
open Transition

@[simp] def StartPhase.succ : StartPhase → List StartPhase
  | .idle => [.refused, .accepted]
  | .accepted => [.written, .rejected]
  | .written => [.queued, .rejected]
  | .queued => [.locked]
  | .locked => [.snapshotting, .failing]
  | .snapshotting => [.decoding, .failing]
  | .decoding => [.starting, .failing]
  | .starting => [.started, .failing]
  | .started => [.routing, .aborting]
  | .routing => [.probing, .aborting]
  | .probing => [.publishing, .aborting]
  | .publishing => [.published]
  | .published => [.succeeded, .failing]
  | .aborting => [.failing]
  | .failing => [.reporting]
  | .reporting => [.done]
  | .succeeded => [.spawning]
  | .spawning => [.stopping, .done]
  | .stopping => [.done]
  | .refused | .rejected | .done => []

variable {ι κ : Type*}

@[simp] def StartEdge (_ : ι) (p q : StartPhase) : Prop := q ∈ p.succ

inductive MonitorEdge (s u : State ι κ) (t : ι) : MonitorPhase ι → MonitorPhase ι → Prop where
  | spawned {p} (h : s.start t = .spawning) : MonitorEdge s u t p .sleeping
  | sleeps : MonitorEdge s u t .sleeping .sleeping
  | sees {e} (h : s.tunEngine = some e) (hr : s.result e ≠ none) :
      MonitorEdge s u t .sleeping .waiting
  | retires : MonitorEdge s u t .sleeping .done
  | locks : MonitorEdge s u t .waiting .locked
  | finds {e} (h : s.tunEngine = some e) (hn : u.tunEngine = none) :
      MonitorEdge s u t .locked (.taken e)
  | misses : MonitorEdge s u t .locked .done
  | takesResult {e} : MonitorEdge s u t (.taken e) (.ending e)
  | stops {e} (h : u.live e = false) : MonitorEdge s u t (.ending e) .restored
  | reports : MonitorEdge s u t .restored .done

inductive StopEdge (s u : State ι κ) (a : Action ι κ) :
    Caller ι κ → StopPhase ι → StopPhase ι → Prop where
  | requested {r} : StopEdge s u a (.request r) .idle .waiting
  | spawned {t p} (h : s.start t = .spawning) : StopEdge s u a (.worker t) p .waiting
  | locks {c} (h : a = .stopLock c) (ho : s.tunOperation = none) : StopEdge s u a c .waiting .locked
  | clears {c} : StopEdge s u a c .locked .cleared
  | takes {c} (hn : u.tunEngine = none) : StopEdge s u a c .cleared (.taken s.tunEngine)
  | stops {c e} (h : ∀ t, e = some t → u.live t = false) : StopEdge s u a c (.taken e) .restored
  | returns {c ok} : StopEdge s u a c .restored (.returned ok)

variable [DecidableEq ι] [DecidableEq κ] {s u : State ι κ} {a : Action ι κ}

theorem start_of_step (h : step s a = some u) (t : ι) :
    u.start t = s.start t ∨ u.start t ∈ (s.start t).succ := by
  cases a with
  | writeStarting m ok | spawnWorker m ok | snapshotNetwork m ok | decodeConfig m ok
  | engineStart m ok | interfaceName m ok | setupRoutes m ok | waitSetup m ok
  | writeRunning m ok =>
    obtain ⟨hp, rfl⟩ := when_eq_some.mp h
    cases ok
    all_goals exact update_moved (R := StartEdge) (by simp [hp]) t
  | workerLock m | workerStopped m =>
    obtain ⟨⟨hp, -⟩, rfl⟩ := when_eq_some.mp h
    exact update_moved (R := StartEdge) (by simp [hp]) t
  | beginStart m | checkEngine m =>
    obtain ⟨hp, rfl⟩ := when_eq_some.mp h
    split_ifs
    all_goals exact update_moved (R := StartEdge) (by simp [hp]) t
  | clearStarting m =>
    obtain ⟨hp, rfl⟩ := when_eq_some.mp h
    obtain hp | hp := hp
    all_goals exact update_moved (R := StartEdge) (by simp [hp]) t
  | abort m | publish m | reportFailure m | spawnMonitor m | monitorNotSpawned m =>
    obtain ⟨hp, rfl⟩ := when_eq_some.mp h
    exact update_moved (R := StartEdge) (by simp [hp]) t
  | monitorTake m =>
    obtain ⟨-, rfl⟩ := when_eq_some.mp h
    cases s.tunEngine
    all_goals exact .inl rfl
  | monitorTakeResult m | monitorStop m | stopEngine c =>
    simp only [step] at h
    split at h
    · obtain rfl := Option.some.inj h
      exact .inl rfl
    · cases h
  | startReturns | engineEnds | monitorCheck | monitorLock | monitorReport | stopRequest | stopLock
  | stopClearFailure | stopTake | stopWrite | queryStarting | queryFailure | queryEngine =>
    obtain ⟨-, rfl⟩ := when_eq_some.mp h
    exact .inl rfl

theorem monitor_of_step (h : step s a = some u) (t : ι) :
    u.monitor t = s.monitor t ∨ MonitorEdge s u t (s.monitor t) (u.monitor t) := by
  cases a with
  | spawnMonitor m =>
    obtain ⟨hp, rfl⟩ := when_eq_some.mp h
    exact update_moved (R := MonitorEdge s _) (.spawned hp) t
  | monitorCheck m =>
    obtain ⟨hp, rfl⟩ := when_eq_some.mp h
    refine update_moved (R := MonitorEdge s _) ?_ t
    rw [hp]
    cases he : s.tunEngine with
    | none => exact .retires
    | some e =>
      dsimp only
      split_ifs with hr
      · exact .sees he (engineStatus_eq_stopped.mp hr)
      · exact .sleeps
  | monitorLock m =>
    obtain ⟨⟨hp, -⟩, rfl⟩ := when_eq_some.mp h
    exact update_moved (R := MonitorEdge s _) (hp ▸ .locks) t
  | monitorTake m =>
    obtain ⟨hp, rfl⟩ := when_eq_some.mp h
    cases he : s.tunEngine with
    | none => exact update_moved (R := MonitorEdge s _) (hp ▸ .misses) t
    | some e => exact update_moved (R := MonitorEdge s _) (hp ▸ .finds he rfl) t
  | monitorTakeResult m =>
    simp only [step] at h
    split at h
    · next hp =>
      obtain rfl := Option.some.inj h
      exact update_moved (R := MonitorEdge s _) (hp ▸ .takesResult) t
    · cases h
  | monitorStop m =>
    simp only [step] at h
    split at h
    · next hp =>
      obtain rfl := Option.some.inj h
      exact update_moved (R := MonitorEdge s _) (hp ▸ .stops (by simp)) t
    · cases h
  | monitorReport m =>
    obtain ⟨hp, rfl⟩ := when_eq_some.mp h
    exact update_moved (R := MonitorEdge s _) (hp ▸ .reports) t
  | stopEngine c =>
    simp only [step] at h
    split at h
    · obtain rfl := Option.some.inj h
      exact .inl rfl
    · cases h
  | beginStart | checkEngine | snapshotNetwork | decodeConfig | engineStart =>
    obtain ⟨-, rfl⟩ := when_eq_some.mp h
    split_ifs
    all_goals exact .inl rfl
  | writeStarting | spawnWorker | startReturns | workerLock | interfaceName | setupRoutes
  | waitSetup | abort | publish | writeRunning | clearStarting | reportFailure
  | monitorNotSpawned | workerStopped | engineEnds | stopRequest | stopLock | stopClearFailure
  | stopTake | stopWrite | queryStarting | queryFailure | queryEngine =>
    obtain ⟨-, rfl⟩ := when_eq_some.mp h
    exact .inl rfl

theorem stop_of_step (h : step s a = some u) (c : Caller ι κ) :
    u.stop c = s.stop c ∨ StopEdge s u a c (s.stop c) (u.stop c) := by
  cases a with
  | monitorNotSpawned m =>
    obtain ⟨hp, rfl⟩ := when_eq_some.mp h
    exact update_moved (R := StopEdge s _ _) (.spawned hp) c
  | stopRequest r =>
    obtain ⟨hp, rfl⟩ := when_eq_some.mp h
    exact update_moved (R := StopEdge s _ _) (hp ▸ .requested) c
  | stopLock m =>
    obtain ⟨⟨hp, ho⟩, rfl⟩ := when_eq_some.mp h
    exact update_moved (R := StopEdge s _ _) (hp ▸ .locks rfl ho) c
  | stopClearFailure m =>
    obtain ⟨hp, rfl⟩ := when_eq_some.mp h
    exact update_moved (R := StopEdge s _ _) (hp ▸ .clears) c
  | stopTake m =>
    obtain ⟨hp, rfl⟩ := when_eq_some.mp h
    exact update_moved (R := StopEdge s _ _) (hp ▸ .takes rfl) c
  | stopEngine m =>
    simp only [step] at h
    split at h
    · next hp =>
      obtain rfl := Option.some.inj h
      refine update_moved (R := StopEdge s _ _) (hp ▸ .stops ?_) c
      rintro t rfl
      simp
    · cases h
  | stopWrite m ok =>
    obtain ⟨hp, rfl⟩ := when_eq_some.mp h
    exact update_moved (R := StopEdge s _ _) (hp ▸ .returns) c
  | monitorTake m =>
    obtain ⟨-, rfl⟩ := when_eq_some.mp h
    cases s.tunEngine
    all_goals exact .inl rfl
  | monitorTakeResult | monitorStop =>
    simp only [step] at h
    split at h
    · obtain rfl := Option.some.inj h
      exact .inl rfl
    · cases h
  | beginStart | checkEngine | snapshotNetwork | decodeConfig | engineStart =>
    obtain ⟨-, rfl⟩ := when_eq_some.mp h
    split_ifs
    all_goals exact .inl rfl
  | writeStarting | spawnWorker | startReturns | workerLock | interfaceName | setupRoutes
  | waitSetup | abort | publish | writeRunning | clearStarting | reportFailure | spawnMonitor
  | workerStopped | engineEnds | monitorCheck | monitorLock | monitorReport | queryStarting
  | queryFailure | queryEngine =>
    obtain ⟨-, rfl⟩ := when_eq_some.mp h
    exact .inl rfl

/-- Only `publish` fills the engine slot. -/
theorem engine_of_step (h : step s a = some u) {t : ι} (he : u.tunEngine = some t) :
    s.tunEngine = some t ∨ a = .publish t := by
  cases a with
  | publish m =>
    obtain ⟨-, rfl⟩ := when_eq_some.mp h
    obtain rfl : m = t := Option.some.inj he
    exact .inr rfl
  | stopTake =>
    obtain ⟨-, rfl⟩ := when_eq_some.mp h
    simp at he
  | monitorTake m =>
    obtain ⟨-, rfl⟩ := when_eq_some.mp h
    split at he
    · next hn => simp [hn] at he
    · simp at he
  | monitorTakeResult | monitorStop | stopEngine =>
    simp only [step] at h
    split at h
    · obtain rfl := Option.some.inj h
      exact .inl he
    · cases h
  | beginStart | checkEngine | snapshotNetwork | decodeConfig | engineStart =>
    obtain ⟨-, rfl⟩ := when_eq_some.mp h
    split_ifs at he
    all_goals exact .inl he
  | writeStarting | spawnWorker | startReturns | workerLock | interfaceName | setupRoutes
  | waitSetup | abort | writeRunning | clearStarting | reportFailure | spawnMonitor
  | monitorNotSpawned | workerStopped | engineEnds | monitorCheck | monitorLock | monitorReport
  | stopRequest | stopLock | stopClearFailure | stopWrite | queryStarting | queryFailure
  | queryEngine =>
    obtain ⟨-, rfl⟩ := when_eq_some.mp h
    exact .inl he

/-- A result stays in its slot until a monitor that took the engine takes it. -/
theorem result_of_step (h : step s a = some u) {e : ι} (he : s.result e ≠ none) :
    u.result e ≠ none ∨ ∃ t, s.monitor t = .taken e ∧ u.monitor t = .ending e := by
  cases a with
  | engineEnds m r =>
    obtain ⟨-, rfl⟩ := when_eq_some.mp h
    by_cases hem : e = m
    · subst m
      exact .inl (by simp)
    · exact .inl (by simpa [hem] using he)
  | monitorTakeResult m =>
    simp only [step] at h
    split at h
    · next e' hp =>
      obtain rfl := Option.some.inj h
      by_cases hee : e = e'
      · subst e'
        exact .inr ⟨m, hp, by simp⟩
      · exact .inl (by simpa [hee] using he)
    · cases h
  | monitorStop | stopEngine =>
    simp only [step] at h
    split at h
    · obtain rfl := Option.some.inj h
      exact .inl he
    · cases h
  | monitorTake m =>
    obtain ⟨-, rfl⟩ := when_eq_some.mp h
    cases s.tunEngine
    all_goals exact .inl he
  | beginStart | checkEngine | snapshotNetwork | decodeConfig | engineStart =>
    obtain ⟨-, rfl⟩ := when_eq_some.mp h
    split_ifs
    all_goals exact .inl he
  | writeStarting | spawnWorker | startReturns | workerLock | interfaceName | setupRoutes
  | waitSetup | abort | publish | writeRunning | clearStarting | reportFailure | spawnMonitor
  | monitorNotSpawned | workerStopped | monitorCheck | monitorLock | monitorReport
  | stopRequest | stopLock | stopClearFailure | stopTake | stopWrite | queryStarting
  | queryFailure | queryEngine =>
    obtain ⟨-, rfl⟩ := when_eq_some.mp h
    exact .inl he

end NulConnect.Macos
