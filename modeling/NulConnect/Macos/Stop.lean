import NulConnect.Macos.Monitor

/-! Stops: what a `stop_tun` that has returned `Ok` says about the starts before it. -/
namespace NulConnect.Macos
open Transition

/-- The worker is still to return from `start_tun_worker`. -/
@[simp] def StartPhase.pending : StartPhase → Bool
  | .queued | .locked | .snapshotting | .decoding | .starting | .started | .routing | .probing
  | .publishing | .published | .aborting => true
  | _ => false

namespace StartPhase

theorem spawned_succ (p : StartPhase) : ∀ q ∈ p.succ, p.spawned → q.spawned := by
  cases p <;> decide

theorem pending_succ (p : StartPhase) :
    ∀ q ∈ p.succ, q.pending → p.pending ∨ p = .written ∧ q = .queued := by
  cases p <;> decide

theorem holds_of_pending {p : StartPhase} (h : p.pending) (hq : p ≠ .queued) : p.holds := by
  cases p <;> simp_all

end StartPhase

variable {ι κ : Type*}

/-- What the stops promise: `earlier c t` where `start_tun` had returned `starting` for `t`
before `stop_tun` was called, and `stopped t` once such a stop has returned `Ok`. -/
structure Promise (ι κ : Type*) where
  earlier : Caller ι κ → ι → Bool
  stopped : ι → Bool

def Promise.empty : Promise ι κ where
  earlier _ _ := false
  stopped _ := false

variable [DecidableEq ι] [DecidableEq κ]

def Promise.record (w : Promise ι κ) (s : State ι κ) : Action ι κ → Promise ι κ
  | .stopRequest r => { w with
      earlier := Function.update w.earlier (.request r) s.replied }
  | .stopWrite c true => { w with stopped := fun t => w.stopped t || w.earlier c t }
  | _ => w

/-- The helper together with what its stops have promised so far. -/
def promises (ι κ : Type*) [DecidableEq ι] [DecidableEq κ] :
    System (State ι κ × Promise ι κ) (Action ι κ) :=
  (system ι κ).observe .empty Promise.record

/-- When a stop acquires `tun_operation`, no worker of a start that had returned before the
stop was called still waits for the lock. -/
def WorkersFirst (p : State ι κ × Promise ι κ) : Action ι κ → Prop
  | .stopLock c => ∀ t, p.2.earlier c t → p.1.start t ≠ .queued
  | _ => True

instance [Fintype ι] (p : State ι κ × Promise ι κ) (a : Action ι κ) :
    Decidable (WorkersFirst p a) := by
  rcases a with ⟨⟩
  all_goals
    unfold WorkersFirst
    infer_instance

/-- Once a `stop_tun` has returned `Ok`, no engine of a start before it is in the slot. -/
def StopsLast (p : State ι κ × Promise ι κ) : Prop :=
  ∀ t, p.2.stopped t → p.1.tunEngine ≠ some t

/-- The worker of the start has returned from `start_tun_worker`. -/
structure Past (s : State ι κ) (t : ι) : Prop where
  spawned : (s.start t).spawned
  returned : ¬ (s.start t).pending

variable {s u : State ι κ} {a : Action ι κ} {t : ι}

theorem spawned_of_step (h : step s a = some u) (ht : (s.start t).spawned) :
    (u.start t).spawned := by
  obtain hu | hu := start_of_step h t
  · rw [hu]
    exact ht
  · exact StartPhase.spawned_succ _ _ hu ht

theorem Past.step (hs : Past s t) (h : step s a = some u) : Past u t := by
  refine ⟨spawned_of_step h hs.spawned, fun hp => ?_⟩
  obtain hu | hu := start_of_step h t
  · exact hs.returned (hu ▸ hp)
  · obtain hp | ⟨hw, -⟩ := StartPhase.pending_succ _ _ hu hp
    · exact hs.returned hp
    · have hsp := hs.spawned
      simp [hw] at hsp

/-- A worker that has returned does not publish. -/
theorem Past.engine_step (hs : Past s t) (he : s.tunEngine ≠ some t) (h : Macos.step s a = some u) :
    u.tunEngine ≠ some t := by
  intro hu
  obtain ho | rfl := engine_of_step h hu
  · exact he ho
  · have hp : s.start t = .publishing := (when_eq_some.mp h).1
    exact hs.returned (by simp [hp])

theorem replied_of_step (h : step s a = some u) (ht : u.replied t) :
    s.replied t ∨ (s.start t).spawned := by
  cases a with
  | startReturns m =>
    obtain ⟨hp, rfl⟩ := when_eq_some.mp h
    by_cases htm : t = m
    · subst m
      exact .inr hp
    · exact .inl (by simpa [htm] using ht)
  | monitorTakeResult | monitorStop | stopEngine =>
    simp only [step] at h
    split at h
    · obtain rfl := Option.some.inj h
      exact .inl ht
    · cases h
  | monitorTake m =>
    obtain ⟨-, rfl⟩ := when_eq_some.mp h
    split at ht
    all_goals exact .inl ht
  | beginStart | checkEngine | snapshotNetwork | decodeConfig | engineStart =>
    obtain ⟨-, rfl⟩ := when_eq_some.mp h
    split_ifs at ht
    all_goals exact .inl ht
  | writeStarting | spawnWorker | workerLock | interfaceName | setupRoutes | waitSetup | abort
  | publish | writeRunning | clearStarting | reportFailure | spawnMonitor | monitorNotSpawned
  | workerStopped | engineEnds | monitorCheck | monitorLock | monitorReport | stopRequest
  | stopLock | stopClearFailure | stopTake | stopWrite | queryStarting | queryFailure
  | queryEngine =>
    obtain ⟨-, rfl⟩ := when_eq_some.mp h
    exact .inl ht

structure Kept (p : State ι κ × Promise ι κ) : Prop where
  exclusive : Exclusive p.1
  emptied : Emptied p.1
  replied : ∀ t, p.1.replied t → (p.1.start t).spawned
  spawned : ∀ c t, p.2.earlier c t → (p.1.start t).spawned
  /-- A stop inside `tun_operation` comes after the workers it is to stop. -/
  behind : ∀ c t, p.2.earlier c t → (p.1.stop c).holds → Past p.1 t
  stopped : ∀ t, p.2.stopped t → Past p.1 t
  last : StopsLast p

omit [DecidableEq ι] [DecidableEq κ] in
theorem kept_initial : Kept ((initial, .empty) : State ι κ × Promise ι κ) where
  exclusive := exclusive_initial
  emptied := emptied_initial
  replied _ h := absurd h (by simp [initial])
  spawned _ _ h := Bool.noConfusion h
  behind _ _ h := Bool.noConfusion h
  stopped _ h := Bool.noConfusion h
  last _ h := Bool.noConfusion h

variable {p q : State ι κ × Promise ι κ}

namespace Kept

theorem spawned_before (hp : Kept p) {c : Caller ι κ} (hc : (p.2.record p.1 a).earlier c t) :
    (p.1.start t).spawned := by
  cases a with
  | stopRequest r =>
    by_cases hcr : c = .request r
    · subst c
      exact hp.replied t (by simpa [Promise.record] using hc)
    · exact hp.spawned c t (by simpa [Promise.record, hcr] using hc)
  | stopWrite c' ok => cases ok <;> exact hp.spawned c t hc
  | _ => exact hp.spawned c t hc

/-- While a stop writes its final state, the slot is empty and the earlier workers are past. -/
theorem stopped_before (hp : Kept p) (ht : (p.2.record p.1 a).stopped t)
    (h : step p.1 a = some u) : Past p.1 t ∧ p.1.tunEngine ≠ some t := by
  cases a with
  | stopWrite c ok =>
    cases ok with
    | false => exact ⟨hp.stopped t ht, hp.last t ht⟩
    | true =>
      obtain ht | ht := (Bool.or_eq_true _ _).mp ht
      · exact ⟨hp.stopped t ht, hp.last t ht⟩
      · have hr : p.1.stop c = .restored := (when_eq_some.mp h).1
        refine ⟨hp.behind c t ht (by simp [hr]), ?_⟩
        rw [hp.emptied (.stop c) (by simp [hr])]
        exact Option.some_ne_none t ∘ Eq.symm
  | _ => exact ⟨hp.stopped t ht, hp.last t ht⟩

/-- A stop inside `tun_operation` was called before. -/
theorem earlier_before (h : step p.1 a = some u) {c : Caller ι κ}
    (hc : (p.2.record p.1 a).earlier c t) (hu : (u.stop c).holds) : p.2.earlier c t := by
  cases a with
  | stopRequest r =>
    obtain ⟨-, rfl⟩ := when_eq_some.mp h
    by_cases hcr : c = .request r
    · simp [hcr] at hu
    · simpa [Promise.record, hcr] using hc
  | stopWrite c' ok => cases ok <;> exact hc
  | _ => exact hc

theorem behind_step (hp : Kept p) (hok : WorkersFirst p a) (h : step p.1 a = some u)
    {c : Caller ι κ} (hc : (p.2.record p.1 a).earlier c t) (hu : (u.stop c).holds) :
    Past u t := by
  have he := earlier_before h hc hu
  by_cases hin : (p.1.stop c).holds
  · exact (hp.behind c t he hin).step h
  · obtain hst | hst := stop_of_step h c
    · exact absurd (hst ▸ hu) hin
    · generalize p.1.stop c = q at hst hin
      generalize u.stop c = q' at hst hu
      cases hst with
      | locks ha ho =>
        subst a
        refine Past.step ⟨hp.spawned c t he, fun hpend => ?_⟩ h
        have hx := hp.exclusive.guarded
        rw [ho] at hx
        exact hx.outside_of_free (.worker t) (StartPhase.holds_of_pending hpend (hok t he))
      | clears | takes | stops => simp at hin
      | requested | spawned | returns => simp at hu

theorem step (hp : Kept p) (hok : WorkersFirst p a) (h : (promises ι κ).step p a = some q) :
    Kept q := by
  obtain ⟨hs, hw⟩ := System.observe_step.mp h
  refine ⟨hp.exclusive.step hs, hp.emptied.step hp.exclusive hs, ?_, ?_, ?_, ?_, ?_⟩
  · intro t ht
    obtain hr | hr := replied_of_step hs ht
    · exact spawned_of_step hs (hp.replied t hr)
    · exact spawned_of_step hs hr
  · intro c t ht
    rw [hw] at ht
    exact spawned_of_step hs (hp.spawned_before ht)
  · intro c t ht
    rw [hw] at ht
    exact hp.behind_step hok hs ht
  · intro t ht
    rw [hw] at ht
    exact (hp.stopped_before ht hs).1.step hs
  · intro t ht
    rw [hw] at ht
    obtain ⟨hpast, he⟩ := hp.stopped_before ht hs
    exact hpast.engine_step he hs

end Kept

theorem kept_of_workersFirst (h : (promises ι κ).ReachUnder WorkersFirst p) : Kept p := by
  refine h.invariant ?_ ?_
  · rintro ⟨s, w⟩ ⟨rfl, rfl⟩
    exact kept_initial
  · intro p a q _ hp hok hq
    exact hp.step hok hq

/-- In every run in which no stop overtakes the worker of a start before it, no engine of
that start is in the slot once the stop has returned `Ok`. -/
theorem stopsLast_of_workersFirst (h : (promises ι κ).ReachUnder WorkersFirst p) :
    StopsLast p := (kept_of_workersFirst h).last

/-- A stop of a running engine. -/
theorem stopsLast_running : ∃ p : State Unit Unit × Promise Unit Unit,
    p.1.stop (.request ()) = .returned true ∧ p.2.stopped () ∧ StopsLast p := by
  have h0 : (promises Unit Unit).ReachUnder WorkersFirst (initial, .empty) := .init ⟨rfl, rfl⟩
  have h1 := h0.run (startActions ()) (by decide) rfl
  have hr := h1.run (stopActions ()) (by decide) rfl
  refine ⟨_, ?_, ?_, stopsLast_of_workersFirst hr⟩
  · rfl
  · rfl

/-- The stop finds the slot empty and returns `Ok` while the worker of the earlier start
waits for its turn; the worker then installs the engine. -/
theorem stop_overtakes_start : ∃ p : State Unit Unit × Promise Unit Unit,
    (promises Unit Unit).Reachable p ∧ p.2.stopped () ∧ ¬ StopsLast p := by
  have h0 : (promises Unit Unit).Reachable (initial, .empty) := .init ⟨rfl, rfl⟩
  have h1 := System.Reachable.run h0 [.beginStart (), .writeStarting () true,
    .spawnWorker () true, .startReturns ()] rfl
  have h2 := System.Reachable.run h1 (stopActions ()) rfl
  have h3 := System.Reachable.run h2 [.workerLock (), .checkEngine (), .snapshotNetwork () true,
    .decodeConfig () true, .engineStart () true, .interfaceName () true, .setupRoutes () true,
    .waitSetup () true, .publish ()] rfl
  exact ⟨_, h3, rfl, fun h => h () rfl rfl⟩

end NulConnect.Macos
