import NulConnect.Transition.Update
import NulConnect.Windows.Runtime

/-! What one step of `WindowsRuntime` can do: the phases that follow each phase, and the
steps that write the generation, the tokens, the engine slot and the status. -/
namespace NulConnect.Windows
open Transition

@[simp] def StartPhase.succ : StartPhase → List StartPhase
  | .idle => [.refused, .accepted]
  | .accepted => [.tokenRead]
  | .tokenRead => [.queued, .done]
  | .queued => [.locked]
  | .locked => [.cleaning, .done]
  | .cleaning => [.planning]
  | .planning => [.starting, .failing]
  | .starting => [.started, .failing]
  | .started => [.installing, .failing]
  | .installing => [.installed, .failing]
  | .installed => [.confirmed, .done]
  | .confirmed => [.published]
  | .published => [.done]
  | .failing => [.reporting, .done]
  | .reporting => [.done]
  | .refused | .done => []

@[simp] def MonitorPhase.succ : MonitorPhase → List MonitorPhase
  | .idle => [.sleeping, .done]
  | .sleeping => [.checking, .done]
  | .checking => [.sleeping, .waiting]
  | .waiting => [.locked]
  | .locked => [.confirmed, .done]
  | .confirmed => [.taken]
  | .taken => [.cleared]
  | .cleared => [.undone]
  | .undone => [.done]
  | .done => []

@[simp] def StopPhase.succ : StopPhase → List StopPhase
  | .idle => [.counted]
  | .counted => [.marked]
  | .marked => [.locked]
  | .locked => [.taken]
  | .taken => [.undone]
  | .undone => [.returned]
  | .returned => [.leftovers]
  | .leftovers => [.done]
  | .done => []

/-- The worker is past `VpnEngine::start` and has not yet handed the engine over. -/
@[simp] def StartPhase.ownsEngine : StartPhase → Bool
  | .started | .installing | .installed | .confirmed => true
  | _ => false

variable {ι κ : Type*}

/-- A start moves on from `p` to `q`: through the two checks only with a current token, and
it does not let go of its engine before that is stopped or in the slot. -/
@[simp] def StartEdge (s u : State ι κ) (t : ι) (p q : StartPhase) : Prop :=
  q ∈ p.succ ∧ (q = .cleaning ∨ q = .confirmed → s.token t = s.generation) ∧
    (p.ownsEngine → q.ownsEngine ∨ u.live t = false ∨ u.engine = some t)

/-- A monitor moves on from `p` to `q`: it empties the slot, stops the engine and reports. -/
@[simp] def MonitorEdge (u : State ι κ) (t : ι) (p q : MonitorPhase) : Prop :=
  q ∈ p.succ ∧ (q = .cleared → u.engine = none) ∧ (q = .undone → u.live t = false) ∧
    (p = .undone → u.status ≠ .running)

/-- A stop does the same with the engine it takes. -/
@[simp] def StopEdge (s u : State ι κ) (r : κ) (p q : StopPhase) : Prop :=
  q ∈ p.succ ∧ (q = .taken → u.engine = none) ∧
    (q = .undone → ∀ t, s.taken r = some t → u.live t = false) ∧
    (p = .undone → u.status ≠ .running)

variable [DecidableEq ι] [DecidableEq κ] {s u : State ι κ} {a : Action ι κ}

theorem start_of_step (h : step s a = some u) (t : ι) :
    u.start t = s.start t ∨ StartEdge s u t (s.start t) (u.start t) := by
  cases a with
  | beginStart m =>
    obtain ⟨hp, rfl⟩ := when_eq_some.mp h
    cases admitStart s.status
    all_goals exact update_moved (R := StartEdge s _) (by simp [hp]) t
  | workerLock m =>
    obtain ⟨⟨hp, -⟩, rfl⟩ := when_eq_some.mp h
    exact update_moved (R := StartEdge s _) (by simp [hp]) t
  | spawnWorker m ok | buildPlan m ok | engineStart m ok | adapterLuid m ok | installPlan m _ ok
  | spawnMonitor m ok =>
    obtain ⟨hp, rfl⟩ := when_eq_some.mp h
    cases ok
    all_goals exact update_moved (R := StartEdge s _) (by simp [hp]) t
  | checkGeneration m | recheckGeneration m | failCheck m =>
    obtain ⟨hp, rfl⟩ := when_eq_some.mp h
    split_ifs with hg
    all_goals exact update_moved (R := StartEdge s _) (by simp [hp, hg]) t
  | readGeneration m | cleanPersisted m | publish m | failWrite m =>
    obtain ⟨hp, rfl⟩ := when_eq_some.mp h
    exact update_moved (R := StartEdge s _) (by simp [hp]) t
  | monitorRecheck m =>
    obtain ⟨-, rfl⟩ := when_eq_some.mp h
    split_ifs
    all_goals exact .inl rfl
  | engineEnds | monitorWake | monitorStatus | monitorLock | monitorTakeResult | monitorClear
  | monitorUndo | monitorReport | stopCount | stopMark | stopLock | stopTake | stopUndo
  | stopReport | leftoverLock | leftoverClean =>
    obtain ⟨-, rfl⟩ := when_eq_some.mp h
    exact .inl rfl

/-- Only an admission leads to `accepted`. -/
theorem accepted_of_step (h : step s a = some u) {t : ι} (hu : u.start t = .accepted) :
    s.start t = .accepted ∨ a = .beginStart t ∧ (admitStart s.status).isOk := by
  cases a with
  | beginStart m =>
    obtain ⟨-, rfl⟩ := when_eq_some.mp h
    cases hadm : admitStart s.status with
    | error e =>
      simp only [hadm] at hu
      exact .inl (eq_of_update_ne hu (by simp))
    | ok v =>
      by_cases htm : t = m
      · subst m
        exact .inr ⟨rfl, rfl⟩
      · simp only [hadm] at hu
        exact .inl (by simpa [htm] using hu)
  | spawnWorker m ok | buildPlan m ok | engineStart m ok | adapterLuid m ok | installPlan m _ ok
  | spawnMonitor m ok =>
    obtain ⟨-, rfl⟩ := when_eq_some.mp h
    cases ok
    all_goals exact .inl (eq_of_update_ne hu (by simp))
  | checkGeneration m | recheckGeneration m | failCheck m =>
    obtain ⟨-, rfl⟩ := when_eq_some.mp h
    split_ifs at hu
    all_goals exact .inl (eq_of_update_ne hu (by simp))
  | readGeneration m | workerLock m | cleanPersisted m | publish m | failWrite m =>
    obtain ⟨-, rfl⟩ := when_eq_some.mp h
    exact .inl (eq_of_update_ne hu (by simp))
  | monitorRecheck m =>
    obtain ⟨-, rfl⟩ := when_eq_some.mp h
    split_ifs at hu
    all_goals exact .inl hu
  | engineEnds | monitorWake | monitorStatus | monitorLock | monitorTakeResult | monitorClear
  | monitorUndo | monitorReport | stopCount | stopMark | stopLock | stopTake | stopUndo
  | stopReport | leftoverLock | leftoverClean =>
    obtain ⟨-, rfl⟩ := when_eq_some.mp h
    exact .inl hu

theorem monitor_of_step (h : step s a = some u) (t : ι) :
    u.monitor t = s.monitor t ∨ MonitorEdge u t (s.monitor t) (u.monitor t) ∨
      s.start t = .published ∧ u.monitor t ∈ MonitorPhase.succ .idle := by
  rw [← or_assoc]
  cases a with
  | spawnMonitor m ok =>
    obtain ⟨hp, rfl⟩ := when_eq_some.mp h
    by_cases htm : t = m
    · subst m
      cases ok
      all_goals exact .inr ⟨hp, by simp⟩
    · exact .inl (.inl (by simp [htm]))
  | monitorWake m | monitorStatus m | monitorRecheck m =>
    obtain ⟨hp, rfl⟩ := when_eq_some.mp h
    split_ifs
    all_goals exact .inl (update_moved (R := MonitorEdge _) (by simp [hp]) t)
  | monitorLock m =>
    obtain ⟨⟨hp, -⟩, rfl⟩ := when_eq_some.mp h
    exact .inl (update_moved (R := MonitorEdge _) (by simp [hp]) t)
  | monitorTakeResult m | monitorClear m | monitorUndo m =>
    obtain ⟨hp, rfl⟩ := when_eq_some.mp h
    exact .inl (update_moved (R := MonitorEdge _) (by simp [hp]) t)
  | monitorReport m =>
    obtain ⟨hp, rfl⟩ := when_eq_some.mp h
    refine .inl (update_moved (R := MonitorEdge _) ⟨by simp [hp], by simp, by simp, fun _ => ?_⟩ t)
    dsimp only
    split
    all_goals simp
  | beginStart m =>
    obtain ⟨-, rfl⟩ := when_eq_some.mp h
    cases admitStart s.status
    all_goals exact .inl (.inl rfl)
  | spawnWorker | buildPlan | engineStart | adapterLuid | installPlan | checkGeneration
  | recheckGeneration | failCheck =>
    obtain ⟨-, rfl⟩ := when_eq_some.mp h
    split_ifs
    all_goals exact .inl (.inl rfl)
  | readGeneration | workerLock | cleanPersisted | publish | failWrite | engineEnds | stopCount
  | stopMark | stopLock | stopTake | stopUndo | stopReport | leftoverLock | leftoverClean =>
    obtain ⟨-, rfl⟩ := when_eq_some.mp h
    exact .inl (.inl rfl)

theorem stop_of_step (h : step s a = some u) (r : κ) :
    u.stop r = s.stop r ∨ StopEdge s u r (s.stop r) (u.stop r) := by
  cases a with
  | stopLock m | leftoverLock m =>
    obtain ⟨⟨hp, -⟩, rfl⟩ := when_eq_some.mp h
    exact update_moved (R := StopEdge s _) (by simp [hp]) r
  | stopCount m | stopMark m | stopTake m | stopReport m | leftoverClean m =>
    obtain ⟨hp, rfl⟩ := when_eq_some.mp h
    exact update_moved (R := StopEdge s _) (by simp [hp]) r
  | stopUndo m =>
    obtain ⟨hp, rfl⟩ := when_eq_some.mp h
    have hlive (t : ι) (ht : s.taken m = some t) :
        (s.taken m).elim s.live (Function.update s.live · false) t = false := by
      simp [ht]
    exact update_moved (R := StopEdge s _) (by simpa [hp] using hlive) r
  | beginStart m =>
    obtain ⟨-, rfl⟩ := when_eq_some.mp h
    cases admitStart s.status
    all_goals exact .inl rfl
  | spawnWorker | buildPlan | engineStart | adapterLuid | installPlan | checkGeneration
  | recheckGeneration | failCheck | monitorRecheck =>
    obtain ⟨-, rfl⟩ := when_eq_some.mp h
    split_ifs
    all_goals exact .inl rfl
  | readGeneration | workerLock | cleanPersisted | publish | spawnMonitor | failWrite | engineEnds
  | monitorWake | monitorStatus | monitorLock | monitorTakeResult | monitorClear | monitorUndo
  | monitorReport =>
    obtain ⟨-, rfl⟩ := when_eq_some.mp h
    exact .inl rfl

theorem token_of_step (h : step s a = some u) (t : ι) :
    u.token t = s.token t ∨
      s.start t = .accepted ∧ u.start t = .tokenRead ∧ u.token t = s.generation := by
  cases a with
  | readGeneration m =>
    obtain ⟨hp, rfl⟩ := when_eq_some.mp h
    by_cases htm : t = m
    · subst m
      exact .inr ⟨hp, by simp, by simp⟩
    · exact .inl (by simp [htm])
  | beginStart m =>
    obtain ⟨-, rfl⟩ := when_eq_some.mp h
    cases admitStart s.status
    all_goals exact .inl rfl
  | spawnWorker | buildPlan | engineStart | adapterLuid | installPlan | checkGeneration
  | recheckGeneration | failCheck | monitorRecheck =>
    obtain ⟨-, rfl⟩ := when_eq_some.mp h
    split_ifs
    all_goals exact .inl rfl
  | workerLock | cleanPersisted | publish | spawnMonitor | failWrite | engineEnds | monitorWake
  | monitorStatus | monitorLock | monitorTakeResult | monitorClear | monitorUndo | monitorReport
  | stopCount | stopMark | stopLock | stopTake | stopUndo | stopReport | leftoverLock
  | leftoverClean =>
    obtain ⟨-, rfl⟩ := when_eq_some.mp h
    exact .inl rfl

theorem generation_of_step (h : step s a = some u) :
    u.generation = s.generation ∨ ∃ r, a = .stopCount r ∧ u.generation = s.generation + 1 := by
  cases a with
  | stopCount r =>
    obtain ⟨-, rfl⟩ := when_eq_some.mp h
    exact .inr ⟨r, rfl, rfl⟩
  | beginStart m =>
    obtain ⟨-, rfl⟩ := when_eq_some.mp h
    cases admitStart s.status
    all_goals exact .inl rfl
  | spawnWorker | buildPlan | engineStart | adapterLuid | installPlan | checkGeneration
  | recheckGeneration | failCheck | monitorRecheck =>
    obtain ⟨-, rfl⟩ := when_eq_some.mp h
    split_ifs
    all_goals exact .inl rfl
  | readGeneration | workerLock | cleanPersisted | publish | spawnMonitor | failWrite | engineEnds
  | monitorWake | monitorStatus | monitorLock | monitorTakeResult | monitorClear | monitorUndo
  | monitorReport | stopMark | stopLock | stopTake | stopUndo | stopReport | leftoverLock
  | leftoverClean =>
    obtain ⟨-, rfl⟩ := when_eq_some.mp h
    exact .inl rfl

/-- Only `publish` fills the engine slot. -/
theorem engine_of_step (h : step s a = some u) {t : ι} (he : u.engine = some t) :
    s.engine = some t ∨ a = .publish t := by
  cases a with
  | publish m =>
    obtain ⟨-, rfl⟩ := when_eq_some.mp h
    obtain rfl : m = t := Option.some.inj he
    exact .inr rfl
  | stopTake | monitorClear =>
    obtain ⟨-, rfl⟩ := when_eq_some.mp h
    simp at he
  | beginStart | spawnWorker | buildPlan | engineStart | adapterLuid | spawnMonitor | installPlan
  | checkGeneration | recheckGeneration | failCheck | monitorRecheck =>
    obtain ⟨-, rfl⟩ := when_eq_some.mp h
    split at he
    all_goals exact .inl he
  | workerLock | readGeneration | cleanPersisted | failWrite | engineEnds | monitorWake
  | monitorStatus | monitorLock | monitorTakeResult | monitorUndo | monitorReport | stopCount
  | stopMark | stopLock | stopUndo | stopReport | leftoverLock | leftoverClean =>
    obtain ⟨-, rfl⟩ := when_eq_some.mp h
    exact .inl he

/-- The steps that empty the engine slot. -/
theorem engine_left_of_step (h : step s a = some u) {t : ι} (he : s.engine = some t) :
    u.engine = some t ∨ (∃ m, a = .publish m) ∨ (∃ m, a = .monitorClear m) ∨
      ∃ r, a = .stopTake r := by
  cases a with
  | publish m => exact .inr (.inl ⟨m, rfl⟩)
  | monitorClear m => exact .inr (.inr (.inl ⟨m, rfl⟩))
  | stopTake r => exact .inr (.inr (.inr ⟨r, rfl⟩))
  | beginStart m =>
    obtain ⟨-, rfl⟩ := when_eq_some.mp h
    cases admitStart s.status
    all_goals exact .inl he
  | spawnWorker | buildPlan | engineStart | adapterLuid | installPlan | checkGeneration
  | recheckGeneration | failCheck | monitorRecheck =>
    obtain ⟨-, rfl⟩ := when_eq_some.mp h
    split_ifs
    all_goals exact .inl he
  | readGeneration | workerLock | cleanPersisted | spawnMonitor | failWrite | engineEnds
  | monitorWake | monitorStatus | monitorLock | monitorTakeResult | monitorUndo | monitorReport
  | stopCount | stopMark | stopLock | stopUndo | stopReport | leftoverLock | leftoverClean =>
    obtain ⟨-, rfl⟩ := when_eq_some.mp h
    exact .inl he

/-- Only `VpnEngine::start` makes an engine live. -/
theorem live_of_step (h : step s a = some u) {t : ι} (hu : u.live t) :
    s.live t ∨ u.start t = .started := by
  cases a with
  | engineStart m ok =>
    obtain ⟨-, rfl⟩ := when_eq_some.mp h
    by_cases htm : t = m
    · subst m
      cases ok
      · exact .inl hu
      · exact .inr (by simp)
    · cases ok
      all_goals exact .inl (by simpa [htm] using hu)
  | adapterLuid m ok | installPlan m _ ok =>
    obtain ⟨-, rfl⟩ := when_eq_some.mp h
    cases ok
    · refine .inl (eq_of_update_ne (f := s.live) (m := m) (p := false) ?_ (by simp))
      exact hu
    · exact .inl hu
  | recheckGeneration m =>
    obtain ⟨-, rfl⟩ := when_eq_some.mp h
    split_ifs at hu
    · exact .inl hu
    · exact .inl (eq_of_update_ne hu (by simp))
  | monitorUndo m =>
    obtain ⟨-, rfl⟩ := when_eq_some.mp h
    exact .inl (eq_of_update_ne hu (by simp))
  | stopUndo r =>
    obtain ⟨-, rfl⟩ := when_eq_some.mp h
    cases ht : s.taken r with
    | none => exact .inl (by simpa [ht] using hu)
    | some e =>
      simp only [ht, Option.elim_some] at hu
      exact .inl (eq_of_update_ne hu (by simp))
  | beginStart m =>
    obtain ⟨-, rfl⟩ := when_eq_some.mp h
    split at hu
    all_goals exact .inl hu
  | spawnWorker | buildPlan | spawnMonitor | checkGeneration | failCheck | monitorRecheck =>
    obtain ⟨-, rfl⟩ := when_eq_some.mp h
    split_ifs at hu
    all_goals exact .inl hu
  | readGeneration | workerLock | cleanPersisted | publish | failWrite | engineEnds | monitorWake
  | monitorStatus | monitorLock | monitorTakeResult | monitorClear | monitorReport | stopCount
  | stopMark | stopLock | stopTake | stopReport | leftoverLock | leftoverClean =>
    obtain ⟨-, rfl⟩ := when_eq_some.mp h
    exact .inl hu

theorem taken_of_step (h : step s a = some u) {r : κ} (hr : s.stop r = .taken) :
    u.taken r = s.taken r := by
  cases a with
  | stopTake m =>
    obtain ⟨hm, rfl⟩ := when_eq_some.mp h
    have hrm : r ≠ m := by
      rintro rfl
      simp [hm] at hr
    simp [hrm]
  | beginStart m =>
    obtain ⟨-, rfl⟩ := when_eq_some.mp h
    split
    all_goals rfl
  | spawnWorker | buildPlan | engineStart | adapterLuid | installPlan | spawnMonitor
  | checkGeneration | recheckGeneration | failCheck | monitorRecheck =>
    obtain ⟨-, rfl⟩ := when_eq_some.mp h
    split
    all_goals rfl
  | readGeneration | workerLock | cleanPersisted | publish | failWrite | engineEnds | monitorWake
  | monitorStatus | monitorLock | monitorTakeResult | monitorClear | monitorUndo | monitorReport
  | stopCount | stopMark | stopLock | stopUndo | stopReport | leftoverLock | leftoverClean =>
    obtain ⟨-, rfl⟩ := when_eq_some.mp h
    rfl

/-- The steps that write a status, and where they take it. -/
theorem status_of_step (h : step s a = some u) :
    u.status = s.status ∨
    (∃ t, a = .beginStart t ∧ (admitStart s.status).isOk ∧ u.status = .starting) ∨
    (∃ t, a = .publish t ∧ u.status = .running) ∨
    (∃ t, a = .failWrite t ∧ u.status = .failed) ∨
    (∃ t, a = .monitorReport t ∧ (u.status = .stopped ∨ u.status = .failed)) ∨
    (∃ r, a = .stopMark r ∧ u.status = .stopping) ∨
    ∃ r, a = .stopReport r ∧ u.status = .stopped := by
  cases a with
  | beginStart m =>
    obtain ⟨-, rfl⟩ := when_eq_some.mp h
    cases admitStart s.status with
    | error e => exact .inl rfl
    | ok v => exact .inr (.inl ⟨m, rfl, rfl, rfl⟩)
  | publish m =>
    obtain ⟨-, rfl⟩ := when_eq_some.mp h
    exact .inr (.inr (.inl ⟨m, rfl, rfl⟩))
  | failWrite m =>
    obtain ⟨-, rfl⟩ := when_eq_some.mp h
    exact .inr (.inr (.inr (.inl ⟨m, rfl, rfl⟩)))
  | monitorReport m =>
    obtain ⟨-, rfl⟩ := when_eq_some.mp h
    refine .inr (.inr (.inr (.inr (.inl ⟨m, rfl, ?_⟩))))
    dsimp only
    split
    · exact .inr rfl
    · exact .inl rfl
  | stopMark r =>
    obtain ⟨-, rfl⟩ := when_eq_some.mp h
    split_ifs
    · exact .inr (.inr (.inr (.inr (.inr (.inl ⟨r, rfl, rfl⟩)))))
    · exact .inl rfl
  | stopReport r =>
    obtain ⟨-, rfl⟩ := when_eq_some.mp h
    exact .inr (.inr (.inr (.inr (.inr (.inr ⟨r, rfl, rfl⟩)))))
  | spawnWorker | buildPlan | engineStart | adapterLuid | installPlan | checkGeneration
  | recheckGeneration | failCheck | monitorRecheck =>
    obtain ⟨-, rfl⟩ := when_eq_some.mp h
    split_ifs
    all_goals exact .inl rfl
  | readGeneration | workerLock | cleanPersisted | spawnMonitor | engineEnds | monitorWake
  | monitorStatus | monitorLock | monitorTakeResult | monitorClear | monitorUndo | stopCount
  | stopLock | stopTake | stopUndo | leftoverLock | leftoverClean =>
    obtain ⟨-, rfl⟩ := when_eq_some.mp h
    exact .inl rfl

end NulConnect.Windows
