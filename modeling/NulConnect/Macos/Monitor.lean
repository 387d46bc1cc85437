import NulConnect.Macos.Exclusion

/-! The runtime monitors: which engines they take out of the slot. -/
namespace NulConnect.Macos
open Transition

variable {ι κ : Type*}

/-- Every engine that a monitor has taken out of the slot had reported `Stopped`. -/
def TakesStopped (s : State ι κ) : Prop :=
  ∀ t e, s.monitor t = .taken e → engineStatus (s.result e) = .stopped

/-- A worker puts a running engine into the slot only while no monitor waits for
`tun_operation` on account of what it saw there before. -/
def NoneWaiting (s : State ι κ) : Action ι κ → Prop
  | .publish t => s.result t = none → ∀ m, s.monitor m ≠ .waiting
  | _ => True

instance [Fintype ι] [DecidableEq ι] (s : State ι κ) (a : Action ι κ) :
    Decidable (NoneWaiting s a) := by
  rcases a with ⟨⟩
  all_goals
    unfold NoneWaiting
    infer_instance

/-- What a monitor saw in the slot is still true of whatever is there. -/
structure Watched (s : State ι κ) : Prop where
  exclusive : Exclusive s
  emptied : Emptied s
  seen : ∀ t, s.monitor t = .waiting ∨ s.monitor t = .locked →
    ∀ e, s.tunEngine = some e → s.result e ≠ none
  taken : ∀ t e, s.monitor t = .taken e → s.result e ≠ none

theorem watched_initial : Watched (initial : State ι κ) where
  exclusive := exclusive_initial
  emptied := emptied_initial
  seen := by simp [initial]
  taken := by simp [initial]

variable [DecidableEq ι] [DecidableEq κ] {s u : State ι κ} {a : Action ι κ} {t e : ι}

namespace Watched

/-- An engine in the slot keeps its result. -/
theorem result_slot (hs : Watched s) (h : step s a = some u) (he : s.tunEngine = some e)
    (hr : s.result e ≠ none) : u.result e ≠ none := by
  obtain hu | ⟨m, hm, -⟩ := result_of_step h hr
  · exact hu
  · have hn := hs.emptied (.monitor m) (by simp [hm])
    simp [hn] at he

theorem seen_publish (hs : Watched s) (hok : NoneWaiting s (.publish e))
    (h : step s (.publish e) = some u) (ht : u.monitor t = .waiting ∨ u.monitor t = .locked) :
    u.result e ≠ none := by
  obtain ⟨hp, rfl⟩ := when_eq_some.mp h
  intro hr
  obtain hw | hl := ht
  · exact hok hr t hw
  · have hin : Inside s (.worker e) := by simp [Inside, hp]
    have hin' : Inside s (.monitor t) := by
      have hl' : s.monitor t = .locked := hl
      simp [Inside, hl']
    cases hs.exclusive.guarded.unique hin hin'

theorem seen_step (hs : Watched s) (hok : NoneWaiting s a) (h : step s a = some u)
    (ht : u.monitor t = .waiting ∨ u.monitor t = .locked) (he : u.tunEngine = some e) :
    u.result e ≠ none := by
  obtain he' | rfl := engine_of_step h he
  · have hsaw : s.result e ≠ none := by
      obtain hm | hm := monitor_of_step h t
      · rw [hm] at ht
        exact hs.seen t ht e he'
      · obtain hw | hl := ht
        · rw [hw] at hm
          generalize s.monitor t = p at hm
          cases hm with
          | sees hf hr =>
            obtain rfl := Option.some.inj (hf.symm.trans he')
            exact hr
        · rw [hl] at hm
          generalize hp : s.monitor t = p at hm
          cases hm with
          | locks => exact hs.seen t (.inl hp) e he'
    exact hs.result_slot h he' hsaw
  · exact hs.seen_publish hok h ht

theorem taken_step (hs : Watched s) (h : step s a = some u) (ht : u.monitor t = .taken e) :
    u.result e ≠ none := by
  have hin : Inside s (.monitor t) ∧ s.result e ≠ none := by
    obtain hm | hm := monitor_of_step h t
    · rw [ht] at hm
      exact ⟨by simp [Inside, ← hm], hs.taken t e hm.symm⟩
    · rw [ht] at hm
      generalize hp : s.monitor t = p at hm
      cases hm with
      | finds hf hn => exact ⟨by simp [Inside, hp], hs.seen t (.inr hp) e hf⟩
  obtain hu | ⟨m, hm, hm'⟩ := result_of_step h hin.2
  · exact hu
  · have hin' : Inside s (.monitor m) := by simp [Inside, hm]
    obtain rfl := Thread.monitor.inj (hs.exclusive.guarded.unique hin.1 hin')
    simp [ht] at hm'

theorem step (hs : Watched s) (hok : NoneWaiting s a) (h : step s a = some u) : Watched u where
  exclusive := hs.exclusive.step h
  emptied := hs.emptied.step hs.exclusive h
  seen _ ht _ he := hs.seen_step hok h ht he
  taken _ _ ht := hs.taken_step h ht

end Watched

theorem watched_of_noneWaiting (h : (system ι κ).ReachUnder NoneWaiting s) : Watched s :=
  h.invariant (fun _ hi => hi ▸ watched_initial) fun _ _ _ _ hs hok hu => hs.step hok hu

/-- In every run whose workers publish no running engine while a monitor waits for
`tun_operation`, a monitor takes an engine only after that engine has stopped. -/
theorem takesStopped_of_noneWaiting (h : (system ι κ).ReachUnder NoneWaiting s) :
    TakesStopped s := fun t e ht =>
  engineStatus_eq_stopped.mpr ((watched_of_noneWaiting h).taken t e ht)

/-- A start from its request to its running monitor. -/
def startActions (t : ι) : List (Action ι κ) :=
  [.beginStart t, .writeStarting t true, .spawnWorker t true, .startReturns t, .workerLock t,
    .checkEngine t, .snapshotNetwork t true, .decodeConfig t true, .engineStart t true,
    .interfaceName t true, .setupRoutes t true, .waitSetup t true, .publish t,
    .writeRunning t true, .clearStarting t, .spawnMonitor t]

/-- A `stop_tun` request that returns `Ok`. -/
def stopActions (r : κ) : List (Action ι κ) :=
  [.stopRequest r, .stopLock (.request r), .stopClearFailure (.request r),
    .stopTake (.request r), .stopEngine (.request r), .stopWrite (.request r) true]

/-- The monitor takes the failed engine of its own start. -/
theorem takesStopped_own : ∃ s : State Unit Unit, s.monitor () = .taken () ∧ TakesStopped s := by
  have h0 : (system Unit Unit).ReachUnder NoneWaiting initial := .init rfl
  have h1 := h0.run (startActions ()) (by decide) rfl
  have h2 := h1.run [.engineEnds () (.error "closed"), .monitorCheck (), .monitorLock (),
    .monitorTake ()] (by decide) rfl
  exact ⟨_, rfl, takesStopped_of_noneWaiting h2⟩

/-- While a monitor that saw the first engine stopped waits for `tun_operation`, a stop and a
second start go by; the monitor then takes the second engine, which runs. -/
theorem monitor_takes_running : ∃ s : State Bool Unit, (system Bool Unit).Reachable s ∧
    s.monitor false = .taken true ∧ s.live true ∧ ¬ TakesStopped s := by
  have h0 : (system Bool Unit).Reachable initial := .init rfl
  have h1 := System.Reachable.run h0 (startActions false) rfl
  have h2 := System.Reachable.run h1 [.engineEnds false (.error "closed"), .monitorCheck false] rfl
  have h3 := System.Reachable.run h2 (stopActions ()) rfl
  have h4 := System.Reachable.run h3 (startActions true) rfl
  have h5 := System.Reachable.run h4 [.monitorLock false, .monitorTake false] rfl
  refine ⟨_, h5, rfl, rfl, fun h => ?_⟩
  exact absurd (h false true rfl) (by decide)

end NulConnect.Macos
