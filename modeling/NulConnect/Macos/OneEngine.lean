import NulConnect.Macos.Exclusion

/-! At most one engine of `HelperRuntime` is live: it is in the slot, or in the hands of the one
thread that is inside a section of `tun_operation`. -/
namespace NulConnect.Macos
open Transition

variable {ι κ : Type*}

/-- The worker has found the slot empty and has not put its engine there. -/
@[simp] def StartPhase.prepares : StartPhase → Bool
  | .snapshotting | .decoding | .starting | .started | .routing | .probing | .publishing
  | .aborting => true
  | _ => false

/-- The worker has an engine that is not in the slot. -/
@[simp] def StartPhase.ownsEngine : StartPhase → Bool
  | .started | .routing | .probing | .publishing | .aborting => true
  | _ => false

/-- The thread has the engine `e` in a local variable. -/
@[simp] def Owns (s : State ι κ) : Thread ι κ → ι → Prop
  | .worker t, e => t = e ∧ (s.start t).ownsEngine
  | .monitor t, e => s.monitor t = .taken e ∨ s.monitor t = .ending e
  | .stop c, e => s.stop c = .taken (some e)

theorem StartPhase.holds_of_prepares {p : StartPhase} (h : p.prepares) : p.holds := by
  cases p <;> simp_all

theorem StartPhase.prepares_of_ownsEngine {p : StartPhase} (h : p.ownsEngine) : p.prepares := by
  cases p <;> simp_all

theorem Owns.inside {s : State ι κ} {p : Thread ι κ} {e : ι} (h : Owns s p e) : Inside s p := by
  cases p with
  | worker t => exact StartPhase.holds_of_prepares (StartPhase.prepares_of_ownsEngine h.2)
  | monitor t => rcases h with h | h <;> simp [Inside, h]
  | stop c =>
    have hc : s.stop c = .taken (some e) := h
    simp [Inside, hc]

/-- A thread has at most one engine. -/
theorem Owns.unique {s : State ι κ} {p : Thread ι κ} {e e' : ι} (h : Owns s p e)
    (h' : Owns s p e') : e = e' := by
  cases p with
  | worker t => exact h.1.symm.trans h'.1
  | monitor t =>
    rcases h with h | h
    all_goals
      rcases h' with h' | h'
      all_goals simp_all
  | stop c => simp_all

/-- What a step does to the engines. -/
inductive EngineStep [DecidableEq ι] (s u : State ι κ) : Prop where
  | keeps (hslot : u.tunEngine = s.tunEngine) (hlive : u.live = s.live)
      (hown : ∀ p e, Owns s p e → Owns u p e)
  | creates (t : ι) (hslot : u.tunEngine = s.tunEngine)
      (hlive : u.live = Function.update s.live t true) (hu : (u.start t).ownsEngine)
      (hown : ∀ p e, Owns s p e → Owns u p e)
  | publishes (t : ι) (hs : s.start t = .publishing) (hslot : u.tunEngine = some t)
      (hlive : u.live = (s.stopLive s.tunEngine).live)
      (hown : ∀ p e, e ≠ t → Owns s p e → Owns u p e)
  | takes (p : Thread ι κ) (hslot : u.tunEngine = none) (hlive : u.live = s.live)
      (hu : ∀ e, s.tunEngine = some e → Owns u p e) (hown : ∀ p e, Owns s p e → Owns u p e)
  | stops (t : ι) (hslot : u.tunEngine = s.tunEngine)
      (hlive : u.live = Function.update s.live t false)
      (hown : ∀ p e, e ≠ t → Owns s p e → Owns u p e)

variable [DecidableEq ι] [DecidableEq κ] {s u : State ι κ} {a : Action ι κ}

section Frames

omit [DecidableEq κ] in
theorem owns_start {m : ι} {q : StartPhase} {p : Thread ι κ} {e : ι}
    (hu : u.start = Function.update s.start m q) (hm : u.monitor = s.monitor)
    (hsp : u.stop = s.stop) (hq : (s.start m).ownsEngine → q.ownsEngine ∨ e ≠ m)
    (h : Owns s p e) : Owns u p e := by
  cases p with
  | worker t =>
    obtain ⟨rfl, hown⟩ := h
    by_cases htm : t = m
    · subst htm
      have hq' := (hq hown).resolve_right (fun hne => hne rfl)
      exact ⟨rfl, by simpa [hu] using hq'⟩
    · exact ⟨rfl, by simpa [hu, htm] using hown⟩
  | monitor t => simpa [hm] using h
  | stop c => simpa [hsp] using h

omit [DecidableEq κ] in
theorem owns_monitor {m : ι} {q : MonitorPhase ι} {p : Thread ι κ} {e : ι}
    (hu : u.monitor = Function.update s.monitor m q) (hst : u.start = s.start)
    (hsp : u.stop = s.stop)
    (hq : s.monitor m = .taken e ∨ s.monitor m = .ending e → q = .taken e ∨ q = .ending e)
    (h : Owns s p e) : Owns u p e := by
  cases p with
  | worker t => simpa [hst] using h
  | monitor t =>
    by_cases htm : t = m
    · subst htm
      simpa [hu] using hq h
    · simpa [hu, htm] using h
  | stop c => simpa [hsp] using h

theorem owns_stop {c : Caller ι κ} {q : StopPhase ι} {p : Thread ι κ} {e : ι}
    (hu : u.stop = Function.update s.stop c q) (hst : u.start = s.start)
    (hm : u.monitor = s.monitor) (hq : s.stop c = .taken (some e) → q = .taken (some e))
    (h : Owns s p e) : Owns u p e := by
  cases p with
  | worker t => simpa [hst] using h
  | monitor t => simpa [hm] using h
  | stop c' =>
    by_cases hc : c' = c
    · subst hc
      simpa [hu] using hq h
    · simpa [hu, hc] using h

end Frames

theorem engines_of_step (hx : Exclusive s) (h : step s a = some u) : EngineStep s u := by
  cases a with
  | writeStarting m ok | spawnWorker m ok | snapshotNetwork m ok | decodeConfig m ok
  | interfaceName m ok | setupRoutes m ok | waitSetup m ok | writeRunning m ok =>
    obtain ⟨hp, rfl⟩ := when_eq_some.mp h
    cases ok
    all_goals exact .keeps rfl rfl fun p e => owns_start rfl rfl rfl (by simp [hp])
  | beginStart m | checkEngine m =>
    obtain ⟨hp, rfl⟩ := when_eq_some.mp h
    split_ifs
    all_goals exact .keeps rfl rfl fun p e => owns_start rfl rfl rfl (by simp [hp])
  | engineStart m ok =>
    obtain ⟨hp, rfl⟩ := when_eq_some.mp h
    cases ok
    · exact .keeps rfl rfl fun p e => owns_start rfl rfl rfl (by simp [hp])
    · exact .creates m rfl rfl (by simp) fun p e => owns_start rfl rfl rfl (by simp [hp])
  | workerLock m | workerStopped m =>
    obtain ⟨⟨hp, -⟩, rfl⟩ := when_eq_some.mp h
    exact .keeps rfl rfl fun p e => owns_start rfl rfl rfl (by simp [hp])
  | clearStarting m =>
    obtain ⟨hp, rfl⟩ := when_eq_some.mp h
    obtain hp | hp := hp
    all_goals exact .keeps rfl rfl fun p e => owns_start rfl rfl rfl (by simp [hp])
  | reportFailure m message =>
    obtain ⟨hp, rfl⟩ := when_eq_some.mp h
    exact .keeps rfl rfl fun p e => owns_start rfl rfl rfl (by simp [hp])
  | abort m =>
    obtain ⟨hp, rfl⟩ := when_eq_some.mp h
    exact .stops m rfl rfl fun p e he => owns_start rfl rfl rfl (by simp [he])
  | publish m =>
    obtain ⟨hp, rfl⟩ := when_eq_some.mp h
    exact .publishes m hp rfl rfl fun p e he => owns_start rfl rfl rfl (by simp [he])
  | spawnMonitor m =>
    obtain ⟨hp, rfl⟩ := when_eq_some.mp h
    have hi : s.monitor m = .idle := hx.unmonitored m (by simp [hp])
    refine .keeps rfl rfl fun p e he => ?_
    have hstart : Owns (s.setStart m .done) p e := owns_start rfl rfl rfl (by simp [hp]) he
    exact owns_monitor rfl rfl rfl (by simp [hi]) hstart
  | monitorNotSpawned m message =>
    obtain ⟨hp, rfl⟩ := when_eq_some.mp h
    have hi : s.stop (.worker m) = .idle := hx.unstopped m (by simp [hp])
    refine .keeps rfl rfl fun p e he => ?_
    have hstart : Owns (s.setStart m .stopping) p e := owns_start rfl rfl rfl (by simp [hp]) he
    exact owns_stop rfl rfl rfl (by simp [hi]) hstart
  | monitorCheck m | monitorReport m =>
    obtain ⟨hp, rfl⟩ := when_eq_some.mp h
    exact .keeps rfl rfl fun p e => owns_monitor rfl rfl rfl (by simp [hp])
  | monitorLock m =>
    obtain ⟨⟨hp, -⟩, rfl⟩ := when_eq_some.mp h
    exact .keeps rfl rfl fun p e => owns_monitor rfl rfl rfl (by simp [hp])
  | monitorTake m =>
    obtain ⟨hp, rfl⟩ := when_eq_some.mp h
    cases he : s.tunEngine with
    | none =>
      exact .keeps rfl rfl fun p e => owns_monitor rfl rfl rfl (by simp [hp])
    | some e =>
      refine .takes (.monitor m) rfl rfl ?_ fun p e => owns_monitor rfl rfl rfl (by simp [hp])
      intro e' he'
      obtain rfl := Option.some.inj (he.symm.trans he')
      simp
  | monitorTakeResult m =>
    simp only [step] at h
    split at h
    · next e hp =>
      obtain rfl := Option.some.inj h
      exact .keeps rfl rfl fun p e' => owns_monitor rfl rfl rfl (by simp [hp])
    · cases h
  | monitorStop m =>
    simp only [step] at h
    split at h
    · next e hp =>
      obtain rfl := Option.some.inj h
      refine .stops e rfl rfl fun p e' he => owns_monitor rfl rfl rfl ?_
      simp [hp, he.symm]
    · cases h
  | stopRequest r =>
    obtain ⟨hp, rfl⟩ := when_eq_some.mp h
    exact .keeps rfl rfl fun p e => owns_stop rfl rfl rfl (by simp [hp])
  | stopLock c =>
    obtain ⟨⟨hp, -⟩, rfl⟩ := when_eq_some.mp h
    exact .keeps rfl rfl fun p e => owns_stop rfl rfl rfl (by simp [hp])
  | stopClearFailure c | stopWrite c ok =>
    obtain ⟨hp, rfl⟩ := when_eq_some.mp h
    exact .keeps rfl rfl fun p e => owns_stop rfl rfl rfl (by simp [hp])
  | stopTake c =>
    obtain ⟨hp, rfl⟩ := when_eq_some.mp h
    exact .takes (.stop c) rfl rfl (by simp) fun p e => owns_stop rfl rfl rfl (by simp [hp])
  | stopEngine c =>
    simp only [step] at h
    split at h
    · next e hp =>
      obtain rfl := Option.some.inj h
      cases e with
      | none => exact .keeps rfl rfl fun p e' => owns_stop rfl rfl rfl (by simp [hp])
      | some e =>
        refine .stops e rfl rfl fun p e' he => owns_stop rfl rfl rfl ?_
        simp [hp, he.symm]
    · cases h
  | startReturns | engineEnds | queryStarting | queryFailure | queryEngine =>
    obtain ⟨-, rfl⟩ := when_eq_some.mp h
    exact .keeps rfl rfl fun p e he => by cases p <;> exact he

/-- The start whose call or worker takes the step. -/
@[simp] def Action.startOf : Action ι κ → Option ι
  | .beginStart t | .writeStarting t _ | .spawnWorker t _ | .workerLock t | .checkEngine t
  | .snapshotNetwork t _ | .decodeConfig t _ | .engineStart t _ | .interfaceName t _
  | .setupRoutes t _ | .waitSetup t _ | .abort t | .publish t | .writeRunning t _
  | .clearStarting t | .reportFailure t _ | .spawnMonitor t | .monitorNotSpawned t _
  | .workerStopped t => some t
  | _ => none

theorem start_of_others {t : ι} (h : step s a = some u) (ha : a.startOf ≠ some t) :
    u.start t = s.start t := by
  have hne (m : ι) (hm : a.startOf = some m) : t ≠ m := by
    rintro rfl
    exact ha hm
  cases a with
  | writeStarting m ok | spawnWorker m ok | snapshotNetwork m ok | decodeConfig m ok
  | engineStart m ok | interfaceName m ok | setupRoutes m ok | waitSetup m ok
  | writeRunning m ok =>
    obtain ⟨-, rfl⟩ := when_eq_some.mp h
    cases ok
    all_goals simp [hne m rfl]
  | beginStart m | checkEngine m =>
    obtain ⟨-, rfl⟩ := when_eq_some.mp h
    split_ifs
    all_goals simp [hne m rfl]
  | workerLock m | workerStopped m | clearStarting m | abort m | publish m | reportFailure m
  | spawnMonitor m | monitorNotSpawned m =>
    obtain ⟨-, rfl⟩ := when_eq_some.mp h
    simp [hne m rfl]
  | monitorTake m =>
    obtain ⟨-, rfl⟩ := when_eq_some.mp h
    cases s.tunEngine
    all_goals rfl
  | monitorTakeResult m | monitorStop m | stopEngine c =>
    simp only [step] at h
    split at h
    · obtain rfl := Option.some.inj h
      rfl
    · cases h
  | startReturns | engineEnds | monitorCheck | monitorLock | monitorReport | stopRequest | stopLock
  | stopClearFailure | stopTake | stopWrite | queryStarting | queryFailure | queryEngine =>
    obtain ⟨-, rfl⟩ := when_eq_some.mp h
    rfl

/-- A worker that goes on to start an engine has found the slot empty. -/
theorem empty_of_checked {t : ι} (h : step s a = some u) (hl : s.start t = .locked)
    (hu : (u.start t).prepares) : s.tunEngine = none := by
  have hmoved : a.startOf = some t := by
    by_contra hno
    rw [start_of_others h hno, hl] at hu
    cases hu
  by_cases ha : a = .checkEngine t
  · subst ha
    obtain ⟨-, rfl⟩ := when_eq_some.mp h
    split_ifs at hu with he
    · exact he
    · simp at hu
  · -- Every other step of the start begins elsewhere.
    cases a <;> simp_all [step]

theorem StartPhase.prepares_succ (p : StartPhase) :
    ∀ q ∈ p.succ, q.prepares → p.prepares ∨ p = .locked := by
  cases p <;> decide

theorem prepares_of_step {t : ι} (h : step s a = some u) (hu : (u.start t).prepares) :
    (s.start t).prepares ∨ s.tunEngine = none := by
  rcases start_of_step h t with heq | hmem
  · rw [heq] at hu
    exact Or.inl hu
  · rcases StartPhase.prepares_succ _ _ hmem hu with hp | hl
    · exact Or.inl hp
    · exact Or.inr (empty_of_checked h hl hu)

/-- A live engine is in the slot or in the hands of a thread, and while a worker is at its engine
the slot is empty. -/
structure Hosted (s : State ι κ) : Prop where
  exclusive : Exclusive s
  emptied : Emptied s
  empty : ∀ t, (s.start t).prepares → s.tunEngine = none
  held : ∀ e, s.live e → s.tunEngine = some e ∨ ∃ p, Owns s p e

/-- At most one engine is live; none is when the next one is created; and no engine is in the slot
that a worker puts its own into. -/
structure OneEngine (s : State ι κ) : Prop where
  unique : ∀ e e', s.live e → s.live e' → e = e'
  created : ∀ t ok u, step s (.engineStart t ok) = some u → ∀ e, s.live e = false
  published : ∀ t u, step s (.publish t) = some u → s.tunEngine = none

omit [DecidableEq ι] [DecidableEq κ] in
theorem hosted_initial : Hosted (initial : State ι κ) where
  exclusive := exclusive_initial
  emptied := emptied_initial
  empty := fun _ _ => rfl
  held := fun e he => by cases he

namespace Hosted

omit [DecidableEq ι] [DecidableEq κ] in
/-- No thread has an engine while one is in the slot. -/
theorem slot_of_owns (hs : Hosted s) {p : Thread ι κ} {e : ι} (h : Owns s p e) :
    s.tunEngine = none := by
  cases p with
  | worker t => exact hs.empty t (StartPhase.prepares_of_ownsEngine h.2)
  | monitor t =>
    apply hs.emptied (.monitor t)
    rcases h with h | h <;> simp [h]
  | stop c =>
    have hc : s.stop c = .taken (some e) := h
    exact hs.emptied (.stop c) (by simp [hc])

theorem empty_step (hs : Hosted s) (h : step s a = some u) {t : ι} (ht : (u.start t).prepares) :
    u.tunEngine = none := by
  by_contra hne
  obtain ⟨e, he⟩ := Option.ne_none_iff_exists'.mp hne
  rcases engine_of_step h he with hold | rfl
  · rcases prepares_of_step h ht with hp | hnone
    · rw [hs.empty t hp] at hold
      cases hold
    · rw [hnone] at hold
      cases hold
  · -- The worker that publishes is the only one inside, and it is past its engine.
    obtain ⟨hp, rfl⟩ := when_eq_some.mp h
    by_cases hte : t = e
    · subst hte
      simp at ht
    · have ht' : (s.start t).prepares := by simpa [hte] using ht
      have hinside : Inside s (.worker t) := StartPhase.holds_of_prepares ht'
      have hinside' : Inside s (.worker e) := by simp [Inside, hp]
      have hsame := hs.exclusive.guarded.unique hinside hinside'
      exact hte (Thread.worker.inj hsame)

theorem held_step (hs : Hosted s) (h : step s a = some u) {e : ι} (he : u.live e) :
    u.tunEngine = some e ∨ ∃ p, Owns u p e := by
  cases engines_of_step hs.exclusive h with
  | keeps hslot hlive hown =>
    rw [hlive] at he
    rcases hs.held e he with hold | ⟨p, hp⟩
    · exact Or.inl (hslot.trans hold)
    · exact Or.inr ⟨p, hown p e hp⟩
  | creates t hslot hlive hu hown =>
    by_cases het : e = t
    · subst het
      exact Or.inr ⟨.worker e, rfl, hu⟩
    · rw [hlive, Function.update_of_ne het] at he
      rcases hs.held e he with hold | ⟨p, hp⟩
      · exact Or.inl (hslot.trans hold)
      · exact Or.inr ⟨p, hown p e hp⟩
  | publishes t ht hslot hlive hown =>
    have hempty := hs.empty t (by simp [ht])
    rw [hlive, hempty] at he
    by_cases het : e = t
    · subst het
      exact Or.inl hslot
    · rcases hs.held e he with hold | ⟨p, hp⟩
      · rw [hempty] at hold
        cases hold
      · exact Or.inr ⟨p, hown p e het hp⟩
  | takes p hslot hlive hu hown =>
    rw [hlive] at he
    rcases hs.held e he with hold | ⟨q, hq⟩
    · exact Or.inr ⟨p, hu e hold⟩
    · exact Or.inr ⟨q, hown q e hq⟩
  | stops t hslot hlive hown =>
    have het : e ≠ t := by
      rintro rfl
      simp [hlive] at he
    rw [hlive, Function.update_of_ne het] at he
    rcases hs.held e he with hold | ⟨p, hp⟩
    · exact Or.inl (hslot.trans hold)
    · exact Or.inr ⟨p, hown p e het hp⟩

theorem step (hs : Hosted s) (h : Macos.step s a = some u) : Hosted u where
  exclusive := hs.exclusive.step h
  emptied := hs.emptied.step hs.exclusive h
  empty := fun _ => hs.empty_step h
  held := fun _ => hs.held_step h

omit [DecidableEq ι] [DecidableEq κ] in
theorem unique (hs : Hosted s) {e e' : ι} (he : s.live e) (he' : s.live e') : e = e' := by
  rcases hs.held e he with hold | ⟨p, hp⟩
  · rcases hs.held e' he' with hold' | ⟨q, hq⟩
    · exact Option.some.inj (hold.symm.trans hold')
    · rw [hs.slot_of_owns hq] at hold
      cases hold
  · rcases hs.held e' he' with hold' | ⟨q, hq⟩
    · rw [hs.slot_of_owns hp] at hold'
      cases hold'
    · have hpq := hs.exclusive.guarded.unique hp.inside hq.inside
      subst hpq
      exact hp.unique hq

omit [DecidableEq ι] [DecidableEq κ] in
/-- A worker that calls `VpnEngine::start` has no engine, and nobody else is inside. -/
theorem not_live_of_starting (hs : Hosted s) {t : ι} (ht : s.start t = .starting) (e : ι) :
    s.live e = false := by
  by_contra hlive
  rcases hs.held e ((Bool.not_eq_false _).mp hlive) with hold | ⟨p, hp⟩
  · rw [hs.empty t (by simp [ht])] at hold
    cases hold
  · have hinside : Inside s (.worker t) := by simp [Inside, ht]
    have hpt := hs.exclusive.guarded.unique hp.inside hinside
    subst hpt
    simp [ht] at hp

end Hosted

theorem hosted_of_reachable (h : (system ι κ).Reachable s) : Hosted s := by
  apply h.invariant (I := Hosted)
  · rintro s rfl
    exact hosted_initial
  · intro s a u _ hs _ hu
    exact hs.step hu

theorem oneEngine_of_reachable (h : (system ι κ).Reachable s) : OneEngine s := by
  have hs := hosted_of_reachable h
  constructor
  · intro e e' he he'
    exact hs.unique he he'
  · intro t ok u hu e
    exact hs.not_live_of_starting (when_eq_some.mp hu).1 e
  · intro t u hu
    have ht := (when_eq_some.mp hu).1
    exact hs.empty t (by simp [ht])

private def acceptActions (t : Bool) : List (Action Bool Unit) :=
  [.beginStart t, .writeStarting t true, .spawnWorker t true, .workerLock t, .checkEngine t,
    .snapshotNetwork t true, .decodeConfig t true, .engineStart t true]

private def runActions (t : Bool) : List (Action Bool Unit) :=
  [.interfaceName t true, .setupRoutes t true, .waitSetup t true, .publish t, .writeRunning t true,
    .clearStarting t, .spawnMonitor t]

private def takeActions : List (Action Bool Unit) :=
  [.stopRequest (), .stopLock (.request ()), .stopClearFailure (.request ()),
    .stopTake (.request ()), .stopEngine (.request ()), .stopWrite (.request ()) true]

/-- A second engine after the first has been stopped. -/
theorem oneEngine_stopped : ∃ s : State Bool Unit,
    s.live false = false ∧ s.live true = true ∧ OneEngine s := by
  have h0 : (system Bool Unit).Reachable initial := .init rfl
  have h1 := h0.run (acceptActions false) rfl
  have h2 := h1.run (runActions false) rfl
  have h3 := h2.run takeActions rfl
  have h4 := h3.run (acceptActions true) rfl
  exact ⟨_, rfl, rfl, oneEngine_of_reachable h4⟩

end NulConnect.Macos
