import NulConnect.Windows.Exclusion

/-! Cancellation: a `stop` and the starts admitted before it. -/
namespace NulConnect.Windows
open Transition

/-- `begin_start` has moved the status to `Starting`. -/
@[simp] def StartPhase.admitted : StartPhase → Bool
  | .idle | .refused => false
  | _ => true

/-- The phases in which a generation check is still ahead. -/
@[simp] def StartPhase.checks : StartPhase → Bool
  | .tokenRead | .queued | .locked | .cleaning | .planning | .starting | .started | .installing
  | .installed => true
  | _ => false

/-- The phases behind the first generation check, in which the worker starts its engine,
installs its routes and NRPT rule and publishes `Running`. -/
@[simp] def StartPhase.installs : StartPhase → Bool
  | .cleaning | .planning | .starting | .started | .installing | .installed | .confirmed
  | .published => true
  | _ => false

namespace StartPhase

theorem holds_of_installs {p : StartPhase} (h : p.installs) : p.holds := by
  cases p <;> simp_all

theorem admitted_succ (p : StartPhase) :
    ∀ q ∈ p.succ, p.admitted → q.admitted ∧ q ≠ .accepted := by
  cases p <;> decide

theorem checks_succ (p : StartPhase) : ∀ q ∈ p.succ, q.checks → p ≠ .accepted → p.checks := by
  cases p <;> decide

theorem installs_succ (p : StartPhase) :
    ∀ q ∈ p.succ, q.installs → p.installs ∨ p = .locked ∧ q = .cleaning := by
  cases p <;> decide

end StartPhase

variable {ι κ : Type*}

/-- The start holds a generation token that no further check accepts. -/
structure Stale (s : State ι κ) (t : ι) : Prop where
  admitted : (s.start t).admitted
  tokenRead : s.start t ≠ .accepted
  differs : (s.start t).checks → s.token t ≠ s.generation

/-- No stop begins while an admitted start has yet to read the generation, and none wraps
the generation round to the token of a start that is still to check it. -/
def TokensRead (s : State ι κ) : Action ι κ → Prop
  | .stopCount _ => ∀ t, s.start t ≠ .accepted ∧
      ((s.start t).checks → s.token t ≠ s.generation + 1)
  | _ => True

instance [Fintype ι] (s : State ι κ) (a : Action ι κ) : Decidable (TokensRead s a) := by
  rcases a with ⟨⟩
  all_goals
    unfold TokensRead
    infer_instance

/-- What the stops promise: `earlier u t` where `t` was admitted before `u` began, and
`cancelled t` once such a stop has returned. -/
structure Promise (ι κ : Type*) where
  earlier : κ → ι → Prop
  cancelled : ι → Prop

/-- No start was admitted before a stop that has not begun. -/
def Promise.empty : Promise ι κ where
  earlier _ _ := False
  cancelled _ := False

variable [DecidableEq ι] [DecidableEq κ]

def Promise.record (w : Promise ι κ) (s : State ι κ) : Action ι κ → Promise ι κ
  | .stopCount u => { w with
      earlier := Function.update w.earlier u fun t => (s.start t).admitted }
  | .stopReport u => { w with cancelled := fun t => w.cancelled t ∨ w.earlier u t }
  | _ => w

/-- The helper service together with what its stops have promised so far. -/
def promises (ι κ : Type*) [DecidableEq ι] [DecidableEq κ] :
    System (State ι κ × Promise ι κ) (Action ι κ) :=
  (system ι κ).observe .empty Promise.record

variable {s u : State ι κ} {a : Action ι κ} {t : ι}

/-- No start passes a generation check with a token that the check does not accept. -/
theorem Stale.step (hs : Stale s t) (hok : TokensRead s a) (h : step s a = some u) :
    Stale u t := by
  have htok : u.token t = s.token t := by
    obtain htok | ⟨hacc, -⟩ := token_of_step h t
    · exact htok
    · exact absurd hacc hs.tokenRead
  have hgen : (s.start t).checks → s.token t ≠ u.generation := by
    intro hc
    obtain hg | ⟨r, rfl, hg⟩ := generation_of_step h
    · exact hg ▸ hs.differs hc
    · exact hg ▸ (hok t).2 hc
  obtain hst | ⟨hst, -⟩ := start_of_step h t
  · refine ⟨?_, ?_, ?_⟩
    · exact hst ▸ hs.admitted
    · exact hst ▸ hs.tokenRead
    · rw [hst, htok]
      exact hgen
  · obtain ⟨hadm, hacc⟩ := StartPhase.admitted_succ _ _ hst hs.admitted
    refine ⟨hadm, hacc, ?_⟩
    rw [htok]
    intro hc
    exact hgen (StartPhase.checks_succ _ _ hst hc hs.tokenRead)

/-- The only way among the installing phases is the first generation check. -/
theorem Stale.not_installs_step (hs : Stale s t) (hn : ¬ (s.start t).installs)
    (h : Windows.step s a = some u) : ¬ (u.start t).installs := by
  obtain hst | ⟨hst, hg, -⟩ := start_of_step h t
  · rw [hst]
    exact hn
  · intro hi
    obtain hi' | ⟨hl, hc⟩ := StartPhase.installs_succ _ _ hst hi
    · exact hn hi'
    · exact hs.differs (by simp [hl]) (hg (.inl hc))

theorem engine_step (hn : ¬ (s.start t).installs) (he : s.engine ≠ some t)
    (h : step s a = some u) : u.engine ≠ some t := by
  intro hu
  obtain ho | rfl := engine_of_step h hu
  · exact he ho
  · have hc : s.start t = .confirmed := (when_eq_some.mp h).1
    simp [hc] at hn

/-- After a stop has returned, no start admitted before it began is behind its first
generation check, where alone it installs or publishes, and none owns the engine slot. -/
def StopsCancel (p : State ι κ × Promise ι κ) : Prop :=
  ∀ t, p.2.cancelled t → ¬ (p.1.start t).installs ∧ p.1.engine ≠ some t

structure Kept (p : State ι κ × Promise ι κ) : Prop where
  exclusive : Exclusive p.1
  emptied : Emptied p.1
  stale : ∀ r t, p.2.earlier r t → Stale p.1 t
  staysStale : ∀ t, p.2.cancelled t → Stale p.1 t
  cancels : StopsCancel p

omit [DecidableEq ι] [DecidableEq κ] in
theorem kept_initial : Kept ((initial, .empty) : State ι κ × Promise ι κ) :=
  ⟨exclusive_initial, emptied_initial, fun _ _ => False.elim, fun _ => False.elim,
    fun _ => False.elim⟩

variable {p q : State ι κ × Promise ι κ}

omit [DecidableEq ι] [DecidableEq κ] in
/-- While a stop writes its final status, no worker is inside `operation`. -/
theorem Kept.cancels_report (hp : Kept p) {r : κ} (hr : p.1.stop r = .undone) :
    ¬ (p.1.start t).installs ∧ p.1.engine ≠ some t := by
  have hin : Inside p.1 (.stop r) := by simp [Inside, hr]
  constructor
  · intro hi
    have hw : Inside p.1 (.worker t) := StartPhase.holds_of_installs hi
    cases hp.exclusive.guarded.unique hin hw
  · rw [hp.emptied (.stop r) (.inr hr)]
    exact Option.some_ne_none t ∘ Eq.symm

theorem Kept.stale_earlier (hp : Kept p) (hok : TokensRead p.1 a)
    (h : step p.1 a = some u) (r : κ) (hr : (p.2.record p.1 a).earlier r t) : Stale u t := by
  cases a with
  | stopCount m =>
    by_cases hrm : r = m
    · subst r
      obtain ⟨-, rfl⟩ := when_eq_some.mp h
      have ha : (p.1.start t).admitted := by simpa [Promise.record] using hr
      exact ⟨ha, (hok t).1, (hok t).2⟩
    · exact (hp.stale r t (by simpa [Promise.record, hrm] using hr)).step hok h
  | _ => exact (hp.stale r t hr).step hok h

theorem Kept.cancelled_before (hp : Kept p) (ht : (p.2.record p.1 a).cancelled t)
    (h : step p.1 a = some u) :
    Stale p.1 t ∧ ¬ (p.1.start t).installs ∧ p.1.engine ≠ some t := by
  cases a with
  | stopReport r =>
    obtain ht | ht := ht
    · exact ⟨hp.staysStale t ht, hp.cancels t ht⟩
    · exact ⟨hp.stale r t ht, hp.cancels_report (when_eq_some.mp h).1⟩
  | _ => exact ⟨hp.staysStale t ht, hp.cancels t ht⟩

theorem Kept.step (hp : Kept p) (hok : TokensRead p.1 a)
    (h : (promises ι κ).step p a = some q) : Kept q := by
  obtain ⟨hs, hw⟩ := System.observe_step.mp h
  refine ⟨hp.exclusive.step hs, hp.emptied.step hp.exclusive hs, ?_, ?_, ?_⟩
  · intro r t ht
    rw [hw] at ht
    exact hp.stale_earlier hok hs r ht
  · intro t ht
    rw [hw] at ht
    exact (hp.cancelled_before ht hs).1.step hok hs
  · intro t ht
    rw [hw] at ht
    obtain ⟨hst, hi, he⟩ := hp.cancelled_before ht hs
    exact ⟨hst.not_installs_step hi hs, engine_step hi he hs⟩

theorem kept_of_tokensRead
    (h : (promises ι κ).ReachUnder (fun q a => TokensRead q.1 a) p) : Kept p := by
  refine h.invariant ?_ ?_
  · rintro ⟨s, w⟩ ⟨rfl, rfl⟩
    exact kept_initial
  · intro p a q _ hp hok hq
    exact hp.step hok hq

/-- In every run in which no stop begins between the admission of a start and its reading
of the generation, a stop cancels every start admitted before it. -/
theorem stopsCancel_of_tokensRead
    (h : (promises ι κ).ReachUnder (fun q a => TokensRead q.1 a) p) : StopsCancel p :=
  (kept_of_tokensRead h).cancels

/-- A stop from its increment of the generation to its return. -/
def stopActions (r : κ) : List (Action ι κ) :=
  [.stopCount r, .stopMark r, .stopLock r, .stopTake r, .stopUndo r, .stopReport r]

/-- A stop that begins after the generation was read does cancel the queued worker. -/
theorem stopsCancel_queued : ∃ p : State Unit Unit × Promise Unit Unit,
    p.1.start () = .queued ∧ p.2.cancelled () ∧ StopsCancel p := by
  have h0 : (promises Unit Unit).ReachUnder (fun q a => TokensRead q.1 a) (initial, .empty) :=
    .init ⟨rfl, rfl⟩
  have h1 := h0.run [.beginStart (), .readGeneration (), .spawnWorker () true] (by decide) rfl
  have h2 := h1.run (stopActions ()) (by decide) rfl
  refine ⟨_, ?_, ?_, stopsCancel_of_tokensRead h2⟩
  · rfl
  · exact .inr rfl

/-- A stop that falls between the status change and the reading of the generation returns,
and the start goes on to install its engine and publish `Running`. -/
theorem stop_misses_start : ∃ p : State Unit Unit × Promise Unit Unit,
    (promises Unit Unit).Reachable p ∧ p.2.cancelled () ∧ p.1.engine = some () ∧
      p.1.status = .running ∧ ¬ StopsCancel p := by
  have h0 : (promises Unit Unit).Reachable (initial, .empty) := .init ⟨rfl, rfl⟩
  have h1 := System.Reachable.run h0 [.beginStart ()] rfl
  have h2 := System.Reachable.run h1 (stopActions ()) rfl
  have h3 := System.Reachable.run h2 [.readGeneration (), .spawnWorker () true, .workerLock (),
    .checkGeneration (), .cleanPersisted (), .buildPlan () true, .engineStart () true,
    .adapterLuid () true, .installPlan () {} true, .recheckGeneration (), .publish ()] rfl
  exact ⟨_, h3, .inr rfl, rfl, rfl, fun h => (h () (.inr rfl)).2 rfl⟩

end NulConnect.Windows
