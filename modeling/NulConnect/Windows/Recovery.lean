import NulConnect.Windows.RouteRecord

/-! Recovery from a crash: where the table, the network in memory and the record on disk stand in
every step, and at which steps a crash leaves what `cleanup_leftovers` cannot put right. -/
namespace NulConnect.Windows
open Net Transition

/-- The phases between the clearing of the old record and the saving of the new one. -/
@[simp] def StartPhase.unrecorded : StartPhase → Bool
  | .planning | .starting | .started | .installing => true
  | _ => false

/-- The phases in which only the worker knows the network it has installed. -/
@[simp] def StartPhase.pending : StartPhase → Bool
  | .installed | .confirmed => true
  | _ => false

/-- The steps of the runtime that touch neither the record nor a network. -/
@[simp] def Action.quiet {ι κ : Type*} : Action ι κ → Bool
  | .cleanPersisted _ | .installPlan .. | .recheckGeneration _ | .publish _ | .monitorClear _
  | .monitorUndo _ | .stopTake _ | .stopUndo _ | .leftoverClean _ => false
  | _ => true

@[simp] def Action.locks {ι κ : Type*} : Action ι κ → Bool
  | .workerLock _ | .monitorLock _ | .stopLock _ | .leftoverLock _ => true
  | _ => false

variable {ι κ : Type*}

/-- The phases that a quiet step leads a start through. -/
@[simp] def QuietEdge (a : Action ι κ) (t : ι) (p q : StartPhase) : Prop :=
  (q.unrecorded → p.unrecorded) ∧ (q.pending ↔ p.pending) ∧ p ≠ .cleaning ∧ p ≠ .installing ∧
    p ≠ .done ∧ (p = .failing → a = .failCheck t)

variable [DecidableEq ι] [DecidableEq κ]

section Quiet

variable {s u : State ι κ} {a : Action ι κ}

theorem kept_of_quiet (hq : a.quiet) (h : step s a = some u) :
    u.persisted = s.persisted ∧ u.network = s.network ∧ u.plan = s.plan := by
  cases a with
  | cleanPersisted | installPlan | recheckGeneration | publish | monitorClear | monitorUndo
  | stopTake | stopUndo | leftoverClean => cases hq
  | beginStart m =>
    obtain ⟨-, rfl⟩ := when_eq_some.mp h
    cases admitStart s.status
    all_goals exact ⟨rfl, rfl, rfl⟩
  | spawnWorker | buildPlan | engineStart | adapterLuid | spawnMonitor | checkGeneration
  | failCheck | monitorRecheck =>
    obtain ⟨-, rfl⟩ := when_eq_some.mp h
    split_ifs
    all_goals exact ⟨rfl, rfl, rfl⟩
  | readGeneration | workerLock | failWrite | engineEnds | monitorWake | monitorStatus
  | monitorLock | monitorTakeResult | monitorReport | stopCount | stopMark | stopLock
  | stopReport | leftoverLock =>
    obtain ⟨-, rfl⟩ := when_eq_some.mp h
    exact ⟨rfl, rfl, rfl⟩

theorem start_of_quiet (hq : a.quiet) (h : step s a = some u) (t : ι) :
    u.start t = s.start t ∨ QuietEdge a t (s.start t) (u.start t) := by
  cases a with
  | cleanPersisted | installPlan | recheckGeneration | publish | monitorClear | monitorUndo
  | stopTake | stopUndo | leftoverClean => cases hq
  | beginStart m =>
    obtain ⟨hp, rfl⟩ := when_eq_some.mp h
    cases admitStart s.status
    all_goals exact update_moved (R := QuietEdge _) (by simp [hp]) t
  | workerLock m =>
    obtain ⟨⟨hp, -⟩, rfl⟩ := when_eq_some.mp h
    exact update_moved (R := QuietEdge _) (by simp [hp]) t
  | spawnWorker m ok | buildPlan m ok | engineStart m ok | adapterLuid m ok | spawnMonitor m ok =>
    obtain ⟨hp, rfl⟩ := when_eq_some.mp h
    cases ok
    all_goals exact update_moved (R := QuietEdge _) (by simp [hp]) t
  | checkGeneration m | failCheck m =>
    obtain ⟨hp, rfl⟩ := when_eq_some.mp h
    split_ifs
    all_goals exact update_moved (R := QuietEdge _) (by simp [hp]) t
  | readGeneration m | failWrite m =>
    obtain ⟨hp, rfl⟩ := when_eq_some.mp h
    exact update_moved (R := QuietEdge _) (by simp [hp]) t
  | monitorRecheck m =>
    obtain ⟨-, rfl⟩ := when_eq_some.mp h
    split_ifs
    all_goals exact .inl rfl
  | engineEnds | monitorWake | monitorStatus | monitorLock | monitorTakeResult | monitorReport
  | stopCount | stopMark | stopLock | stopReport | leftoverLock =>
    obtain ⟨-, rfl⟩ := when_eq_some.mp h
    exact .inl rfl

/-- Quiet steps leave monitors and stops where they work on routes. -/
theorem sections_of_quiet (hx : Exclusive s) (hq : a.quiet) (h : step s a = some u) :
    (∀ t, s.monitor t = .cleared → u.monitor t = .cleared) ∧
      ∀ r, s.stop r = .taken ∨ s.stop r = .leftovers → u.stop r = s.stop r := by
  cases a with
  | cleanPersisted | installPlan | recheckGeneration | publish | monitorClear | monitorUndo
  | stopTake | stopUndo | leftoverClean => cases hq
  | spawnMonitor m ok =>
    obtain ⟨hp, rfl⟩ := when_eq_some.mp h
    have hi := hx.fresh m (by simp [hp])
    exact ⟨fun t ht => (update_eq_of_ne (by simp [hi, ht])).trans ht, fun _ _ => rfl⟩
  | monitorWake m | monitorStatus m | monitorTakeResult m | monitorReport m =>
    obtain ⟨hp, rfl⟩ := when_eq_some.mp h
    exact ⟨fun t ht => (update_eq_of_ne (by simp [hp, ht])).trans ht, fun _ _ => rfl⟩
  | monitorRecheck m =>
    obtain ⟨hp, rfl⟩ := when_eq_some.mp h
    split_ifs
    all_goals exact ⟨fun t ht => (update_eq_of_ne (by simp [hp, ht])).trans ht, fun _ _ => rfl⟩
  | monitorLock m =>
    obtain ⟨⟨hp, -⟩, rfl⟩ := when_eq_some.mp h
    exact ⟨fun t ht => (update_eq_of_ne (by simp [hp, ht])).trans ht, fun _ _ => rfl⟩
  | stopCount m | stopMark m | stopReport m =>
    obtain ⟨hp, rfl⟩ := when_eq_some.mp h
    exact ⟨fun _ ht => ht, fun r hr => update_eq_of_ne (by
      obtain hr | hr := hr
      all_goals simp [hp, hr])⟩
  | stopLock m | leftoverLock m =>
    obtain ⟨⟨hp, -⟩, rfl⟩ := when_eq_some.mp h
    exact ⟨fun _ ht => ht, fun r hr => update_eq_of_ne (by
      obtain hr | hr := hr
      all_goals simp [hp, hr])⟩
  | beginStart m =>
    obtain ⟨-, rfl⟩ := when_eq_some.mp h
    cases admitStart s.status
    all_goals exact ⟨fun _ ht => ht, fun _ _ => rfl⟩
  | spawnWorker | buildPlan | engineStart | adapterLuid | checkGeneration | failCheck =>
    obtain ⟨-, rfl⟩ := when_eq_some.mp h
    split_ifs
    all_goals exact ⟨fun _ ht => ht, fun _ _ => rfl⟩
  | readGeneration | workerLock | failWrite | engineEnds =>
    obtain ⟨-, rfl⟩ := when_eq_some.mp h
    exact ⟨fun _ ht => ht, fun _ _ => rfl⟩

theorem operation_of_step (ha : ¬ a.locks) (h : step s a = some u) :
    u.operation = s.operation ∨ u.operation = none := by
  cases a with
  | workerLock | monitorLock | stopLock | leftoverLock => exact absurd rfl ha
  | beginStart m =>
    obtain ⟨-, rfl⟩ := when_eq_some.mp h
    cases admitStart s.status
    all_goals exact .inl rfl
  | checkGeneration m | buildPlan m ok | engineStart m ok | adapterLuid m ok
  | installPlan m network ok | recheckGeneration m | monitorRecheck m =>
    obtain ⟨-, rfl⟩ := when_eq_some.mp h
    split_ifs
    · exact .inl rfl
    · exact .inr rfl
  | spawnWorker | failCheck =>
    obtain ⟨-, rfl⟩ := when_eq_some.mp h
    exact .inl rfl
  | spawnMonitor | monitorReport | stopReport | leftoverClean =>
    obtain ⟨-, rfl⟩ := when_eq_some.mp h
    exact .inr rfl
  | readGeneration | cleanPersisted | publish | failWrite | engineEnds | monitorWake
  | monitorStatus | monitorTakeResult | monitorClear | monitorUndo | stopCount | stopMark
  | stopTake | stopUndo =>
    obtain ⟨-, rfl⟩ := when_eq_some.mp h
    exact .inl rfl

end Quiet

/-- The phases in which a thread works on routes. -/
def WorkPhase (s : State ι κ) : Thread ι κ → Work → Prop
  | .worker t, .undo _ => s.start t = .cleaning ∨ GivenUp s (.worker t) ∧ s.operation = none
  | .monitor t, .undo _ => s.monitor t = .cleared
  | .stop u, .undo _ => s.stop u = .taken ∨ s.stop u = .leftovers
  | .worker t, .install .. | .worker t, .installed .. => s.start t = .installing
  | _, _ => False

/-- Where the routes of the process are accounted for: in the list of an undo and on record, in
the network of an installation, or on record and in the network that only a worker knows or that
is in the state. -/
def Accounted (s : RouteState ι κ) : Prop :=
  match s.work with
  | some (_, .undo rest) => ∀ route ∈ s.mine, route ∈ rest ∧ route ∈ recorded s
  | some (_, .install _ _ _ network) | some (_, .installed network _) =>
    ∀ route, route ∈ s.mine ↔ route ∈ network.routes
  | none => ∀ route ∈ s.mine, route ∈ recorded s ∧
      (∀ t, (s.runtime.start t).pending → route ∈ (s.runtime.plan t).routes) ∧
      ((∀ t, ¬ (s.runtime.start t).pending) → route ∈ s.runtime.network.routes)

structure Consistent (s : RouteState ι κ) : Prop where
  exclusive : Exclusive s.runtime
  phase : ∀ p w, s.work = some (p, w) → WorkPhase s.runtime p w
  cleared : ∀ t, (s.runtime.start t).unrecorded → s.runtime.persisted = none
  accounted : Accounted s
  parted : ∀ route ∈ s.mine, route ∉ s.deleted
  readded_deleted : ∀ route ∈ s.readded, route ∈ s.deleted

section Phases

omit [DecidableEq ι] [DecidableEq κ] in
/-- A thread that works on routes is inside its section, or the lock is free. -/
theorem WorkPhase.inside_or_free {s : State ι κ} {p : Thread ι κ} {w : Work}
    (h : WorkPhase s p w) : Inside s p ∨ s.operation = none := by
  cases p with
  | worker t =>
    cases w with
    | undo rest =>
      obtain h | ⟨-, h⟩ := h
      · exact .inl (by simp [Inside, h])
      · exact .inr h
    | install bypass tunnel nrpt network =>
      have hi : s.start t = .installing := h
      exact .inl (by simp [Inside, hi])
    | installed network ok =>
      have hi : s.start t = .installing := h
      exact .inl (by simp [Inside, hi])
  | monitor t =>
    cases w with
    | undo rest =>
      have hi : s.monitor t = .cleared := h
      exact .inl (by simp [Inside, hi])
    | install | installed => exact h.elim
  | stop u =>
    cases w with
    | undo rest =>
      obtain h | h := h
      all_goals exact .inl (by simp [Inside, h])
    | install | installed => exact h.elim

variable {s : RouteState ι κ}

omit [DecidableEq ι] [DecidableEq κ] in
/-- A thread inside its section that does not work on routes leaves no work to others. -/
theorem Consistent.work_eq_none (hs : Consistent s) {p : Thread ι κ} (hp : Inside s.runtime p)
    (hw : ∀ w, ¬ WorkPhase s.runtime p w) : s.work = none := by
  by_contra hne
  obtain ⟨⟨q, w⟩, hqw⟩ := Option.ne_none_iff_exists'.mp hne
  have hphase := hs.phase q w hqw
  obtain hin | hfree := hphase.inside_or_free
  · obtain rfl := hs.exclusive.guarded.unique hp hin
    exact hw w hphase
  · have hop := (hs.exclusive.guarded p).mp hp
    rw [hfree] at hop
    cases hop

omit [DecidableEq ι] [DecidableEq κ] in
/-- While a thread is inside its section, no other start is between the clearing of the record
and its publication. -/
theorem Consistent.not_prepares (hs : Consistent s) {p : Thread ι κ} (hp : Inside s.runtime p)
    {t : ι} (hne : p ≠ .worker t) :
    ¬ (s.runtime.start t).unrecorded ∧ ¬ (s.runtime.start t).pending := by
  have hout : ¬ (s.runtime.start t).holds := fun ht =>
    hne (hs.exclusive.guarded.unique hp ht)
  cases hst : s.runtime.start t
  all_goals simp_all

theorem WorkPhase.of_quiet {r u : State ι κ} {a : Action ι κ} {p : Thread ι κ} {w : Work}
    (h : WorkPhase r p w) (hx : Exclusive r) (hq : a.quiet) (hl : ¬ a.locks)
    (hf : ∀ t, p = .worker t → a ≠ .failCheck t) (hu : step r a = some u) : WorkPhase u p w := by
  obtain ⟨hm, hst⟩ := sections_of_quiet hx hq hu
  cases p with
  | worker t =>
    have hstart := start_of_quiet hq hu t
    cases w with
    | undo rest =>
      obtain h | ⟨h, hfree⟩ := h
      · obtain heq | ⟨-, -, hne, -⟩ := hstart
        · exact .inl (heq.trans h)
        · exact absurd h hne
      · have hfree' : u.operation = none := by
          obtain ho | ho := operation_of_step hl hu
          · exact ho.trans hfree
          · exact ho
        obtain heq | ⟨-, -, -, -, hnd, hfail⟩ := hstart
        · exact .inr ⟨by simpa [GivenUp, heq] using h, hfree'⟩
        · obtain h | h := h
          · exact absurd (hfail h) (hf t rfl)
          · exact absurd h hnd
    | install bypass tunnel nrpt network =>
      obtain heq | ⟨-, -, -, hne, -⟩ := hstart
      · exact heq.trans h
      · exact absurd h hne
    | installed network ok =>
      obtain heq | ⟨-, -, -, hne, -⟩ := hstart
      · exact heq.trans h
      · exact absurd h hne
  | monitor t =>
    cases w with
    | undo rest => exact hm t h
    | install | installed => exact h.elim
  | stop r =>
    cases w with
    | undo rest =>
      have heq := hst r h
      obtain h | h := h
      · exact .inl (heq.trans h)
      · exact .inr (heq.trans h)
    | install | installed => exact h.elim

end Phases

section RuntimeSteps

variable {s : RouteState ι κ} {r : State ι κ} {p : Thread ι κ} {t : ι}

omit [DecidableEq ι] [DecidableEq κ] in
theorem Consistent.mine_of_undone (hs : Consistent s) (hw : s.work = some (p, .undo [])) :
    s.mine = ∅ := by
  have hacc := hs.accounted
  unfold Accounted at hacc
  rw [hw] at hacc
  refine Finset.eq_empty_of_forall_notMem fun route hr => ?_
  exact absurd (hacc route hr).1 List.not_mem_nil

omit [DecidableEq ι] [DecidableEq κ] in
/-- An undo that has come to its end leaves nothing to account for. -/
theorem Consistent.undone (hs : Consistent s) (hw : s.work = some (p, .undo []))
    (hx : Exclusive r) (hc : ∀ t, (r.start t).unrecorded → r.persisted = none) :
    Consistent { s with runtime := r, work := none } where
  exclusive := hx
  phase _ _ h := by cases h
  cleared := hc
  accounted := by
    intro route hr
    dsimp only at hr
    rw [hs.mine_of_undone hw] at hr
    exact absurd hr (Finset.notMem_empty route)
  parted := hs.parted
  readded_deleted := hs.readded_deleted

omit [DecidableEq ι] [DecidableEq κ] in
/-- A thread inside its section that takes up the undo of a network with all the routes of the
process. -/
theorem Consistent.undoes (hs : Consistent s) {network : PersistedNetworkState}
    (hx : Exclusive r) (hphase : ∀ rest, WorkPhase r p (.undo rest))
    (hc : ∀ t, (r.start t).unrecorded → r.persisted = none)
    (hper : r.persisted = s.runtime.persisted)
    (hmine : ∀ route ∈ s.mine, route ∈ recorded s ∧ route ∈ network.routes) :
    Consistent { s with runtime := r, work := some (p, .undo network.routes.reverse) } where
  exclusive := hx
  phase q w h := by
    cases h
    exact hphase _
  cleared := hc
  accounted := by
    intro route hr
    obtain ⟨hrec, hnet⟩ := hmine route hr
    refine ⟨List.mem_reverse.mpr hnet, ?_⟩
    unfold recorded
    dsimp only
    rw [hper]
    exact hrec
  parted := hs.parted
  readded_deleted := hs.readded_deleted

omit [DecidableEq ι] [DecidableEq κ] in
/-- Where nobody works on routes and no start is pending, the network in the state has all the
routes of the process. -/
theorem Consistent.mine_network (hs : Consistent s) (hw : s.work = none)
    (hp : ∀ t, ¬ (s.runtime.start t).pending) {route : RouteSpec} (hr : route ∈ s.mine) :
    route ∈ recorded s ∧ route ∈ s.runtime.network.routes := by
  have hacc := hs.accounted
  unfold Accounted at hacc
  rw [hw] at hacc
  obtain ⟨hrec, -, hnet⟩ := hacc route hr
  exact ⟨hrec, hnet hp⟩

omit [DecidableEq ι] [DecidableEq κ] in
theorem Consistent.mine_plan (hs : Consistent s) (hw : s.work = none)
    (hp : (s.runtime.start t).pending) {route : RouteSpec} (hr : route ∈ s.mine) :
    route ∈ recorded s ∧ route ∈ (s.runtime.plan t).routes := by
  have hacc := hs.accounted
  unfold Accounted at hacc
  rw [hw] at hacc
  obtain ⟨hrec, hplan, -⟩ := hacc route hr
  exact ⟨hrec, hplan t hp⟩

theorem Consistent.quiet_step (hs : Consistent s) {a : Action ι κ} (hq : a.quiet)
    (hp : Permitted s a) (h : step s.runtime a = some r) :
    Consistent { s with runtime := r } := by
  obtain ⟨hper, hnet, hplan⟩ := kept_of_quiet hq h
  have hstart := start_of_quiet hq h
  have hpend : ∀ t, (r.start t).pending ↔ (s.runtime.start t).pending := by
    intro t
    obtain heq | ⟨-, hedge, -⟩ := hstart t
    · rw [heq]
    · exact hedge
  have hrec : recorded { s with runtime := r } = recorded s := by
    unfold recorded
    dsimp only
    rw [hper]
  constructor
  · exact hs.exclusive.step h
  · intro p w hw
    refine (hs.phase p w hw).of_quiet hs.exclusive hq ?_ ?_ h
    · intro hl
      have hnone : s.work = none := by
        cases a with
        | workerLock | monitorLock | stopLock | leftoverLock => exact hp
        | _ => cases hl
      exact absurd (hw.symm.trans hnone) (Option.some_ne_none _)
    · rintro t rfl rfl
      refine hp ?_
      dsimp only at hw
      rw [hw]
      rfl
  · intro t ht
    rw [hper]
    obtain heq | ⟨hedge, -⟩ := hstart t
    · exact hs.cleared t (heq ▸ ht)
    · exact hs.cleared t (hedge ht)
  · have hacc := hs.accounted
    unfold Accounted at hacc ⊢
    cases hw : s.work with
    | none =>
      simp only [hw] at hacc ⊢
      intro route hr
      obtain ⟨h1, h2, h3⟩ := hacc route hr
      refine ⟨hrec ▸ h1, fun t ht => ?_, fun ht => ?_⟩
      · rw [hplan]
        exact h2 t ((hpend t).mp ht)
      · rw [hnet]
        exact h3 fun t hpt => ht t ((hpend t).mpr hpt)
    | some work =>
      obtain ⟨p, w⟩ := work
      cases w with
      | undo rest =>
        simp only [hw] at hacc ⊢
        intro route hr
        obtain ⟨h1, h2⟩ := hacc route hr
        exact ⟨h1, hrec ▸ h2⟩
      | install | installed =>
        simp only [hw] at hacc ⊢
        exact hacc
  · exact hs.parted
  · exact hs.readded_deleted

theorem Consistent.publish_step (hs : Consistent s) (h : step s.runtime (.publish t) = some r) :
    Consistent { s with runtime := r } := by
  have hx := hs.exclusive.step h
  obtain ⟨hp, rfl⟩ := when_eq_some.mp h
  have hin : Inside s.runtime (.worker t) := by simp [Inside, hp]
  have hw : s.work = none := hs.work_eq_none hin fun w hw => by
    cases w <;> simp [WorkPhase, GivenUp, hp] at hw
  constructor
  · exact hx
  · intro p w hpw
    exact absurd (hpw.symm.trans hw) (Option.some_ne_none _)
  · intro m hm
    refine hs.cleared m ?_
    by_cases hmt : m = t
    · subst hmt
      simp at hm
    · simpa [hmt] using hm
  · unfold Accounted
    simp only [hw]
    intro route hr
    obtain ⟨hrec, hplan⟩ := hs.mine_plan (t := t) hw (by simp [hp]) hr
    refine ⟨hrec, fun m hm => ?_, fun _ => hplan⟩
    by_cases hmt : m = t
    · subst hmt
      exact hplan
    · exact absurd (by simpa [hmt] using hm)
        (hs.not_prepares hin (t := m) (fun he => hmt (by cases he; rfl))).2
  · exact hs.parted
  · exact hs.readded_deleted

theorem Consistent.recheck_step (hs : Consistent s)
    (h : step s.runtime (.recheckGeneration t) = some r) :
    Consistent { s with runtime := r, work := workAfter s (.recheckGeneration t) } := by
  have hx := hs.exclusive.step h
  obtain ⟨hp, rfl⟩ := when_eq_some.mp h
  have hin : Inside s.runtime (.worker t) := by simp [Inside, hp]
  have hw : s.work = none := hs.work_eq_none hin fun w hw => by
    cases w <;> simp [WorkPhase, GivenUp, hp] at hw
  have hmine := fun route (hr : route ∈ s.mine) => hs.mine_plan (t := t) hw (by simp [hp]) hr
  have hother : ∀ m, m ≠ t → ¬ (s.runtime.start m).unrecorded ∧ ¬ (s.runtime.start m).pending :=
    fun m hm => hs.not_prepares hin fun he => hm (by cases he; rfl)
  unfold workAfter
  dsimp only
  by_cases hg : s.runtime.generation = s.runtime.token t
  · simp only [if_pos hg] at hx ⊢
    constructor
    · exact hx
    · intro p w hpw
      exact absurd (hpw.symm.trans hw) (Option.some_ne_none _)
    · intro m hm
      by_cases hmt : m = t
      · subst hmt
        simp at hm
      · exact hs.cleared m (by simpa [hmt] using hm)
    · unfold Accounted
      simp only [hw]
      intro route hr
      obtain ⟨hrec, hplan⟩ := hmine route hr
      refine ⟨hrec, fun m hm => ?_, fun hnone => ?_⟩
      · by_cases hmt : m = t
        · subst hmt
          exact hplan
        · exact absurd (by simpa [hmt] using hm) (hother m hmt).2
      · exact absurd (hnone t) (by simp)
    · exact hs.parted
    · exact hs.readded_deleted
  · simp only [if_neg hg] at hx ⊢
    refine hs.undoes hx (fun rest => .inr ⟨by simp [GivenUp], rfl⟩) ?_ rfl hmine
    intro m hm
    by_cases hmt : m = t
    · subst hmt
      simp at hm
    · exact absurd (by simpa [hmt] using hm) (hother m hmt).1

theorem Consistent.install_step (hs : Consistent s) {network : PersistedNetworkState} {ok : Bool}
    (hperm : Permitted s (.installPlan t network ok))
    (h : step s.runtime (.installPlan t network ok) = some r) :
    Consistent { s with runtime := r, work := workAfter s (.installPlan t network ok) } := by
  have hx := hs.exclusive.step h
  obtain ⟨hp, rfl⟩ := when_eq_some.mp h
  have hin : Inside s.runtime (.worker t) := by simp [Inside, hp]
  have hw : s.work = some (.worker t, .installed network ok) := hperm
  have hacc := hs.accounted
  unfold Accounted at hacc
  simp only [hw] at hacc
  have hother : ∀ m, m ≠ t → ¬ (s.runtime.start m).unrecorded ∧ ¬ (s.runtime.start m).pending :=
    fun m hm => hs.not_prepares hin fun he => hm (by cases he; rfl)
  unfold workAfter
  cases ok with
  | true =>
    constructor
    · exact hx
    · intro p w hpw
      cases hpw
    · intro m hm
      by_cases hmt : m = t
      · subst hmt
        simp at hm
      · exact absurd (by simpa [hmt] using hm) (hother m hmt).1
    · intro route hr
      have hnet := (hacc route).mp hr
      refine ⟨hnet, fun m hm => ?_, fun hnone => ?_⟩
      · by_cases hmt : m = t
        · subst hmt
          simpa using hnet
        · exact absurd (by simpa [hmt] using hm) (hother m hmt).2
      · exact absurd (hnone t) (by simp)
    · exact hs.parted
    · exact hs.readded_deleted
  | false =>
    constructor
    · exact hx
    · intro p w hpw
      cases hpw
      exact .inr ⟨by simp [GivenUp], rfl⟩
    · intro m hm
      by_cases hmt : m = t
      · subst hmt
        simp at hm
      · exact absurd (by simpa [hmt] using hm) (hother m hmt).1
    · intro route hr
      have hnet := (hacc route).mp hr
      exact ⟨List.mem_reverse.mpr hnet, hnet⟩
    · exact hs.parted
    · exact hs.readded_deleted

/-- A monitor or a stop takes the network out of the state. -/
theorem Consistent.take_step (hs : Consistent s) {a : Action ι κ}
    (ha : (∃ t, p = .monitor t ∧ a = .monitorClear t) ∨ ∃ u, p = .stop u ∧ a = .stopTake u)
    (h : step s.runtime a = some r) :
    Consistent { s with
      runtime := r
      work := some (p, .undo s.runtime.network.routes.reverse) } := by
  have hx := hs.exclusive.step h
  obtain ⟨t, rfl, rfl⟩ | ⟨u, rfl, rfl⟩ := ha
  · obtain ⟨hp, rfl⟩ := when_eq_some.mp h
    have hin : Inside s.runtime (.monitor t) := by simp [Inside, hp]
    have hw : s.work = none := hs.work_eq_none hin fun w hw => by
      cases w <;> simp [WorkPhase, hp] at hw
    have hother := fun m => (hs.not_prepares hin (t := m) (by simp)).2
    exact hs.undoes hx (fun rest => by simp [WorkPhase]) hs.cleared rfl fun route hr =>
      hs.mine_network hw hother hr
  · obtain ⟨hp, rfl⟩ := when_eq_some.mp h
    have hin : Inside s.runtime (.stop u) := by simp [Inside, hp]
    have hw : s.work = none := hs.work_eq_none hin fun w hw => by
      cases w <;> simp [WorkPhase, hp] at hw
    have hother := fun m => (hs.not_prepares hin (t := m) (by simp)).2
    exact hs.undoes hx (fun rest => by simp [WorkPhase]) hs.cleared rfl fun route hr =>
      hs.mine_network hw hother hr

/-- The steps of the runtime keep the routes of the process accounted for. -/
theorem Consistent.runtime_step (hs : Consistent s) {a : Action ι κ} (hp : Permitted s a)
    (h : step s.runtime a = some r) :
    Consistent { s with runtime := r, work := workAfter s a } := by
  cases a with
  | cleanPersisted m | monitorUndo m | stopUndo m | leftoverClean m =>
    have hx := hs.exclusive.step h
    obtain ⟨-, rfl⟩ := when_eq_some.mp h
    exact hs.undone hp hx fun _ _ => rfl
  | installPlan m network ok => exact hs.install_step hp h
  | recheckGeneration m => exact hs.recheck_step h
  | publish m => exact hs.publish_step h
  | monitorClear m => exact hs.take_step (.inl ⟨m, rfl, rfl⟩) h
  | stopTake m => exact hs.take_step (.inr ⟨m, rfl, rfl⟩) h
  | _ => exact hs.quiet_step rfl hp h

end RuntimeSteps

section RouteSteps

variable {s u : RouteState ι κ} {p : Thread ι κ}

omit [DecidableEq ι] [DecidableEq κ] in
/-- A step of the work that leaves the routes of the process as they are. -/
theorem Consistent.work_step (hs : Consistent s) {w : Work} (hp : WorkPhase s.runtime p w)
    (hacc : Accounted { s with work := some (p, w) }) :
    Consistent { s with work := some (p, w) } where
  exclusive := hs.exclusive
  phase _ _ h := by
    cases h
    exact hp
  cleared := hs.cleared
  accounted := hacc
  parted := hs.parted
  readded_deleted := hs.readded_deleted

omit [DecidableEq ι] [DecidableEq κ] in
theorem Consistent.added_step (hs : Consistent s) {w : Work} {route : RouteSpec}
    (hp : WorkPhase s.runtime p w) (hacc : Accounted { s.added route with work := some (p, w) }) :
    Consistent { s.added route with work := some (p, w) } where
  exclusive := hs.exclusive
  phase _ _ h := by
    cases h
    exact hp
  cleared := hs.cleared
  accounted := hacc
  parted r hr := by
    obtain rfl | hr := Finset.mem_insert.mp hr
    · exact Finset.notMem_erase r s.deleted
    · exact fun hd => hs.parted r hr (Finset.mem_of_mem_erase hd)
  readded_deleted r hr :=
    Finset.erase_subset_erase route (fun x hx => hs.readded_deleted x hx) hr

omit [DecidableEq ι] [DecidableEq κ] in
/-- The routes of the process while it installs a plan. -/
theorem Consistent.mine_install (hs : Consistent s) {bypass tunnel : List RouteSpec} {nrpt : Bool}
    {network : PersistedNetworkState} (hw : s.work = some (p, .install bypass tunnel nrpt network))
    (route : RouteSpec) : route ∈ s.mine ↔ route ∈ network.routes := by
  have hacc := hs.accounted
  unfold Accounted at hacc
  simp only [hw] at hacc
  exact hacc route

omit [DecidableEq ι] [DecidableEq κ] in
theorem Consistent.addRoute_step (hs : Consistent s) {bypass tunnel : List RouteSpec}
    {nrpt : Bool} {network : PersistedNetworkState} {failure : Option Text}
    (hw : s.work = some (p, .install bypass tunnel nrpt network))
    (h : addStep s p failure nrpt network bypass tunnel = some u) : Consistent u := by
  have hmine := hs.mine_install hw
  have hphase : ∀ bypass tunnel network,
      WorkPhase s.runtime p (.install bypass tunnel nrpt network) := by
    intro _ _ _
    have hp := hs.phase _ _ hw
    cases p with
    | worker t => exact hp
    | monitor | stop => exact hp.elim
  have hadded : ∀ route r, r ∈ (s.added route).mine ↔ r ∈ network.routes ++ [route] := by
    intro route r
    unfold RouteState.added
    rw [Finset.mem_insert, hmine, List.mem_append, List.mem_singleton, or_comm]
  unfold addStep at h
  split at h
  · split at h
    · cases h
      exact hs.added_step (hphase _ _ _) (hadded _)
    · cases h
      exact hs.work_step (hphase _ _ _) hmine
  · split at h
    · cases h
      refine hs.work_step ?_ hmine
      have hp := hphase [] [] network
      cases p with
      | worker t => exact hp
      | monitor | stop => exact hp.elim
    · cases h
      exact hs.added_step (hphase _ _ _) (hadded _)
    · cases h
      exact hs.work_step (hphase _ _ _) hmine
  · cases h

omit [DecidableEq ι] [DecidableEq κ] in
theorem Consistent.applyNrpt_step (hs : Consistent s) {nrpt ok : Bool}
    {network : PersistedNetworkState} (hw : s.work = some (p, .install [] [] nrpt network)) :
    Consistent { s with work := some (p, if nrpt then .installed { network with nrpt := true } ok
      else .installed network true) } := by
  have hmine := hs.mine_install hw
  have hp := hs.phase _ _ hw
  cases p with
  | monitor | stop => exact hp.elim
  | worker t =>
    cases nrpt with
    | true => exact hs.work_step hp hmine
    | false => exact hs.work_step hp hmine

omit [DecidableEq ι] [DecidableEq κ] in
theorem Consistent.deleteRoute_step (hs : Consistent s) {route : RouteSpec}
    {rest : List RouteSpec} (hw : s.work = some (p, .undo (route :: rest))) :
    Consistent { s.erased route with work := some (p, .undo rest) } := by
  have hacc := hs.accounted
  unfold Accounted at hacc
  simp only [hw] at hacc
  constructor
  · exact hs.exclusive
  · intro q w hq
    cases hq
    have hp := hs.phase _ _ hw
    cases p with
    | worker | monitor | stop => exact hp
  · exact hs.cleared
  · intro r hr
    obtain ⟨hne, hr⟩ := Finset.mem_erase.mp hr
    obtain ⟨hin, hrec⟩ := hacc r hr
    exact ⟨(List.mem_cons.mp hin).resolve_left hne, hrec⟩
  · intro r hr hd
    obtain ⟨hne, hr⟩ := Finset.mem_erase.mp hr
    exact hs.parted r hr ((Finset.mem_insert.mp hd).resolve_left hne)
  · intro r hr
    exact Finset.mem_insert_of_mem (hs.readded_deleted r (Finset.mem_of_mem_erase hr))

omit [DecidableEq ι] [DecidableEq κ] in
theorem Consistent.readRecord_step (hs : Consistent s) (hw : s.work = none)
    (hp : Cleans s.runtime p) :
    Consistent { s with work := some (p, .undo (recorded s).reverse) } := by
  have hacc := hs.accounted
  unfold Accounted at hacc
  simp only [hw] at hacc
  refine hs.work_step ?_ fun route hr => ?_
  · cases p with
    | worker t => exact .inl hp
    | monitor t => exact hp.elim
    | stop u => exact .inr hp
  · obtain ⟨hrec, -⟩ := hacc route hr
    exact ⟨List.mem_reverse.mpr hrec, hrec⟩

omit [DecidableEq ι] [DecidableEq κ] in
theorem Consistent.beginInstall_step (hs : Consistent s) (hw : s.work = none) {t : ι}
    (hp : s.runtime.start t = .installing) (bypass tunnel : List RouteSpec) (nrpt : Bool) :
    Consistent { s with work := some (.worker t, .install bypass tunnel nrpt {}) } := by
  have hacc := hs.accounted
  unfold Accounted at hacc
  simp only [hw] at hacc
  have hnone : s.runtime.persisted = none := hs.cleared t (by simp [hp])
  refine hs.work_step hp fun route => ?_
  constructor
  · intro hr
    -- there is no record, so the process has no route
    have hrec := (hacc route hr).1
    unfold recorded at hrec
    rw [hnone] at hrec
    exact hrec
  · intro hr
    cases hr

theorem Consistent.step (hs : Consistent s) {a : RouteAction ι κ}
    (h : (routeSystem ι κ).step s a = some u) : Consistent u := by
  change routeStep s a = some u at h
  cases a with
  | runtime a =>
    simp only [routeStep] at h
    split_ifs at h with hp
    obtain ⟨r, hr, rfl⟩ := Option.map_eq_some_iff.mp h
    exact hs.runtime_step hp hr
  | readRecord p =>
    obtain ⟨⟨hw, hp⟩, rfl⟩ := when_eq_some.mp h
    exact hs.readRecord_step hw hp
  | beginInstall t plan tunnelLuid =>
    obtain ⟨⟨hw, hp⟩, rfl⟩ := when_eq_some.mp h
    exact hs.beginInstall_step hw hp _ _ _
  | addRoute failure =>
    simp only [routeStep] at h
    split at h
    · exact hs.addRoute_step ‹_› h
    · cases h
  | applyNrpt ok =>
    simp only [routeStep] at h
    split at h
    · cases h
      exact hs.applyNrpt_step ‹_›
    · cases h
  | deleteRoute =>
    simp only [routeStep] at h
    split at h
    · cases h
      exact hs.deleteRoute_step ‹_›
    · cases h
  | returns =>
    simp only [routeStep] at h
    split at h
    · obtain ⟨-, rfl⟩ := when_eq_some.mp h
      exact hs.undone ‹_› hs.exclusive hs.cleared
    · cases h
  | otherAdds route =>
    obtain ⟨-, rfl⟩ := when_eq_some.mp h
    refine ⟨hs.exclusive, hs.phase, hs.cleared, hs.accounted, hs.parted, fun r hr => ?_⟩
    dsimp only at hr ⊢
    split_ifs at hr with hd
    · obtain rfl | hr := Finset.mem_insert.mp hr
      · exact hd
      · exact hs.readded_deleted r hr
    · exact hs.readded_deleted r hr
  | otherDeletes route =>
    cases h
    exact ⟨hs.exclusive, hs.phase, hs.cleared, hs.accounted, hs.parted, hs.readded_deleted⟩

end RouteSteps

section Recovery

variable {s : RouteState ι κ}

theorem consistent_of_reachable (h : (routeSystem ι κ).Reachable s) : Consistent s := by
  refine h.invariant ?_ fun _ _ _ _ hs _ hu => hs.step hu
  rintro s ⟨persisted, table, rfl⟩
  have hx : Exclusive ({ initial with persisted := persisted } : State ι κ) :=
    ⟨exclusive_initial.guarded, fun _ _ => rfl⟩
  refine ⟨hx, ?_, ?_, ?_, ?_, ?_⟩
  · intro p w hw
    cases hw
  · intro t ht
    cases ht
  · intro route hr
    cases hr
  · intro route hr
    cases hr
  · intro route hr
    cases hr

theorem mem_foldl_erase {rest : List RouteSpec} {table : Finset RouteSpec} {route : RouteSpec} :
    route ∈ rest.foldl Finset.erase table ↔ route ∈ table ∧ route ∉ rest := by
  induction rest generalizing table with
  | nil => simp
  | cons r rest ih =>
    rw [List.foldl_cons, ih, Finset.mem_erase, List.mem_cons]
    tauto

theorem mem_undoNetworkState {network : PersistedNetworkState} {table : Finset RouteSpec}
    {route : RouteSpec} :
    route ∈ undoNetworkState network table ↔ route ∈ table ∧ route ∉ network.routes := by
  unfold undoNetworkState
  rw [mem_foldl_erase, List.mem_reverse]

omit [DecidableEq ι] [DecidableEq κ] in
/-- The cleanup of a new process deletes the routes on record. -/
theorem mem_cleanupPersistedNetworkState {route : RouteSpec} :
    route ∈ cleanupPersistedNetworkState s.runtime.persisted s.table ↔
      route ∈ s.table ∧ route ∉ recorded s := by
  unfold cleanupPersistedNetworkState recorded
  cases s.runtime.persisted with
  | none => simp
  | some network => exact mem_undoNetworkState

omit [DecidableEq ι] [DecidableEq κ] in
theorem Consistent.mine_recorded_or_unsaved (hs : Consistent s) :
    (unsaved s = [] ∧ ∀ route ∈ s.mine, route ∈ recorded s) ∨
      recorded s = [] ∧ ∀ route, route ∈ s.mine ↔ route ∈ unsaved s := by
  have hacc := hs.accounted
  unfold Accounted at hacc
  have hclear : ∀ p w, s.work = some (p, w) → (∀ rest, w ≠ .undo rest) → recorded s = [] := by
    intro p w hw hne
    have hp := hs.phase p w hw
    have hnone : s.runtime.persisted = none := by
      cases p with
      | worker t =>
        cases w with
        | undo rest => exact absurd rfl (hne rest)
        | install | installed =>
          have ht : s.runtime.start t = .installing := hp
          exact hs.cleared t (by simp [ht])
      | monitor | stop =>
        cases w with
        | undo rest => exact absurd rfl (hne rest)
        | install | installed => exact hp.elim
    unfold recorded
    rw [hnone]
    rfl
  unfold unsaved
  cases hw : s.work with
  | none =>
    simp only [hw] at hacc
    exact .inl ⟨rfl, fun route hr => (hacc route hr).1⟩
  | some work =>
    obtain ⟨p, w⟩ := work
    cases w with
    | undo rest =>
      simp only [hw] at hacc
      exact .inl ⟨rfl, fun route hr => (hacc route hr).2⟩
    | install | installed =>
      simp only [hw] at hacc
      exact .inr ⟨hclear _ _ hw (by simp), hacc⟩

omit [DecidableEq ι] [DecidableEq κ] in
theorem Consistent.recovers_iff (hs : Consistent s) : Recovers s ↔
    (∀ route ∈ unsaved s, route ∉ s.table) ∧
      ∀ route ∈ s.readded, route ∈ s.table → route ∉ recorded s := by
  unfold Recovers
  simp only [mem_cleanupPersistedNetworkState]
  have hsecond : (∀ route ∈ s.readded, route ∈ s.table → route ∈ s.table ∧ route ∉ recorded s) ↔
      ∀ route ∈ s.readded, route ∈ s.table → route ∉ recorded s :=
    forall₃_congr fun route _ ht => and_iff_right ht
  rw [hsecond]
  refine and_congr_left fun _ => ?_
  obtain ⟨hempty, hrec⟩ | ⟨hempty, hmine⟩ := hs.mine_recorded_or_unsaved
  · rw [hempty]
    exact ⟨fun _ _ hr => absurd hr List.not_mem_nil, fun _ route hr h => h.2 (hrec route hr)⟩
  · rw [hempty]
    constructor
    · intro h route hr ht
      exact h route ((hmine route).mpr hr) ⟨ht, List.not_mem_nil⟩
    · intro h route hr ht
      exact h route ((hmine route).mp hr) ht.1

/-- Nobody else adds a route that the process has deleted while the record still lists it. -/
def OthersKeepOff (s : RouteState ι κ) : RouteAction ι κ → Prop
  | .otherAdds route => route ∈ s.deleted → route ∉ recorded s
  | _ => True

instance (s : RouteState ι κ) (a : RouteAction ι κ) : Decidable (OthersKeepOff s a) := by
  rcases a with ⟨⟩
  all_goals
    unfold OthersKeepOff
    infer_instance

theorem persisted_of_step {r u : State ι κ} {a : Action ι κ} (h : step r a = some u) :
    u.persisted = r.persisted ∨ u.persisted = none ∨
      ∃ t network ok, a = .installPlan t network ok ∧ u.persisted = some network := by
  cases a with
  | cleanPersisted | monitorUndo | stopUndo | leftoverClean =>
    obtain ⟨-, rfl⟩ := when_eq_some.mp h
    exact .inr (.inl rfl)
  | installPlan t network ok =>
    obtain ⟨-, rfl⟩ := when_eq_some.mp h
    refine .inr (.inr ⟨t, network, ok, rfl, ?_⟩)
    split_ifs
    all_goals rfl
  | recheckGeneration =>
    obtain ⟨-, rfl⟩ := when_eq_some.mp h
    split_ifs
    all_goals exact .inl rfl
  | publish | monitorClear | stopTake =>
    obtain ⟨-, rfl⟩ := when_eq_some.mp h
    exact .inl rfl
  | _ => exact .inl (kept_of_quiet rfl h).1

/-- A route that someone else has added since the process deleted it is not on record. -/
def ReaddedOff (s : RouteState ι κ) : Prop := ∀ route ∈ s.readded, route ∉ recorded s

theorem ReaddedOff.runtime_step (hs : Consistent s) (ho : ReaddedOff s) {a : Action ι κ}
    (hp : Permitted s a) {r : State ι κ} (h : step s.runtime a = some r) :
    ReaddedOff { s with runtime := r, work := workAfter s a } := by
  intro route hr
  have hold := ho route hr
  unfold recorded at hold ⊢
  dsimp only
  obtain he | he | ⟨t, network, ok, rfl, he⟩ := persisted_of_step h
  · rw [he]
    exact hold
  · rw [he]
    exact List.not_mem_nil
  · -- the new record lists the routes of the process
    have hw : s.work = some (.worker t, .installed network ok) := hp
    have hacc := hs.accounted
    unfold Accounted at hacc
    simp only [hw] at hacc
    rw [he]
    intro hnet
    exact hs.parted route ((hacc route).mpr hnet) (hs.readded_deleted route hr)

omit [DecidableEq ι] [DecidableEq κ] in
/-- An addition leaves the record alone and adds no route of someone else. -/
theorem kept_of_addStep {u : RouteState ι κ} {p : Thread ι κ} {failure : Option Text} {nrpt : Bool}
    {network : PersistedNetworkState} {bypass tunnel : List RouteSpec}
    (h : addStep s p failure nrpt network bypass tunnel = some u) :
    u.runtime = s.runtime ∧ u.readded ⊆ s.readded := by
  unfold addStep at h
  split at h
  · split at h
    · cases h
      exact ⟨rfl, Finset.erase_subset _ _⟩
    · cases h
      exact ⟨rfl, Finset.Subset.refl _⟩
  · split at h
    · cases h
      exact ⟨rfl, Finset.Subset.refl _⟩
    · cases h
      exact ⟨rfl, Finset.erase_subset _ _⟩
    · cases h
      exact ⟨rfl, Finset.Subset.refl _⟩
  · cases h

theorem readdedOff_of_othersKeepOff (h : (routeSystem ι κ).ReachUnder OthersKeepOff s) :
    ReaddedOff s := by
  refine h.invariant ?_ ?_
  · rintro s ⟨persisted, table, rfl⟩ route hr
    cases hr
  · intro s a u hreach ho hok hu
    have hs := consistent_of_reachable hreach.reachable
    change routeStep s a = some u at hu
    cases a with
    | runtime a =>
      simp only [routeStep] at hu
      split_ifs at hu with hp
      obtain ⟨r, hr, rfl⟩ := Option.map_eq_some_iff.mp hu
      exact ho.runtime_step hs hp hr
    | readRecord p | beginInstall t plan tunnelLuid =>
      obtain ⟨-, rfl⟩ := when_eq_some.mp hu
      exact ho
    | addRoute failure =>
      simp only [routeStep] at hu
      split at hu
      · obtain ⟨hruntime, hsub⟩ := kept_of_addStep hu
        intro r hr
        unfold recorded
        rw [hruntime]
        exact ho r (hsub hr)
      · cases hu
    | applyNrpt ok =>
      simp only [routeStep] at hu
      split at hu
      · cases hu
        exact ho
      · cases hu
    | deleteRoute =>
      simp only [routeStep] at hu
      split at hu
      · cases hu
        exact fun r hr => ho r (Finset.mem_of_mem_erase hr)
      · cases hu
    | returns =>
      simp only [routeStep] at hu
      split at hu
      · obtain ⟨-, rfl⟩ := when_eq_some.mp hu
        exact ho
      · cases hu
    | otherAdds route =>
      obtain ⟨-, rfl⟩ := when_eq_some.mp hu
      intro r hr
      dsimp only at hr
      split_ifs at hr with hd
      · obtain rfl | hr := Finset.mem_insert.mp hr
        · exact hok hd
        · exact ho r hr
      · exact ho r hr
    | otherDeletes route =>
      cases hu
      exact ho

/-- A crash is recovered exactly where no route of an installation is in the table before its
record is saved, and no route on record has been deleted by the process and added by someone else
since; the latter never is where nobody adds such a route while it is on record. -/
theorem recovers_iff_recorded :
    (∀ s : RouteState ι κ, (routeSystem ι κ).Reachable s →
      (Recovers s ↔ (∀ route ∈ unsaved s, route ∉ s.table) ∧
        ∀ route ∈ s.readded, route ∈ s.table → route ∉ recorded s)) ∧
    ∀ s : RouteState ι κ, (routeSystem ι κ).ReachUnder OthersKeepOff s →
      (Recovers s ↔ ∀ route ∈ unsaved s, route ∉ s.table) := by
  constructor
  · exact fun s hs => (consistent_of_reachable hs).recovers_iff
  · intro s hs
    have hoff := readdedOff_of_othersKeepOff hs
    rw [(consistent_of_reachable hs.reachable).recovers_iff]
    exact and_iff_left fun route hr _ => hoff route hr

end Recovery

section Examples

private def lan : RouteSpec := tunnelRoute 9 (Ipv4Addr.ofOctets 10 0 0 0, 8)

private def lanPlan : NetworkPlan where
  tunnelRoutes := [(Ipv4Addr.ofOctets 10 0 0 0, 8)]
  bypassRoutes := []
  dnsServer := none
  managedDomains := []

private def fresh : RouteState Unit Unit where
  runtime := initial
  work := none
  table := ∅
  mine := ∅
  deleted := ∅
  readded := ∅

private theorem fresh_init : (routeSystem Unit Unit).init fresh := ⟨none, ∅, rfl⟩

/-- A start up to the first addition of a route. -/
private def addingActions : List (RouteAction Unit Unit) :=
  [.runtime (.beginStart ()), .runtime (.readGeneration ()), .runtime (.spawnWorker () true),
    .runtime (.workerLock ()), .runtime (.checkGeneration ()), .readRecord (.worker ()),
    .runtime (.cleanPersisted ()), .runtime (.buildPlan () true),
    .runtime (.engineStart () true), .runtime (.adapterLuid () true),
    .beginInstall () lanPlan 9, .addRoute none]

private def lanNetwork : PersistedNetworkState where
  routes := [lan]

private def publishActions : List (RouteAction Unit Unit) :=
  [.applyNrpt true, .runtime (.installPlan () lanNetwork true), .runtime (.recheckGeneration ()),
    .runtime (.publish ()), .runtime (.spawnMonitor () true)]

/-- A stop cancels the start while it installs its plan. -/
private def cancelActions : List (RouteAction Unit Unit) :=
  [.runtime (.stopCount ()), .applyNrpt true, .runtime (.installPlan () lanNetwork true),
    .runtime (.recheckGeneration ()), .deleteRoute, .returns]

/-- The routes of a start that has been published are recovered. -/
theorem recovers_published : ∃ s : RouteState Unit Unit, lan ∈ s.mine ∧ lan ∈ s.table ∧
    s.runtime.status = .running ∧ Recovers s := by
  have h0 : (routeSystem Unit Unit).ReachUnder OthersKeepOff fresh := .init fresh_init
  have h1 := h0.run addingActions (by decide) rfl
  have hr := h1.run publishActions (by decide) rfl
  refine ⟨_, ?_, ?_, ?_, (recovers_iff_recorded.2 _ hr).mpr ?_⟩
  · decide
  · decide
  · rfl
  · decide

/-- A crash right after the first addition leaves the route behind; and a route that a cancelled
start has deleted and someone else has added since is deleted again by the cleanup. -/
theorem not_recovers_unsaved_or_readded :
    (∃ s : RouteState Unit Unit, (routeSystem Unit Unit).Reachable s ∧ lan ∈ s.mine ∧
      lan ∈ s.table ∧ s.runtime.persisted = none ∧ ¬ Recovers s) ∧
    ∃ s : RouteState Unit Unit, (routeSystem Unit Unit).Reachable s ∧ s.work = none ∧
      lan ∈ s.readded ∧ lan ∈ s.table ∧ ¬ Recovers s := by
  have h0 : (routeSystem Unit Unit).Reachable fresh := .init fresh_init
  constructor
  · have hr := System.Reachable.run h0 addingActions rfl
    refine ⟨_, hr, ?_, ?_, rfl, ?_⟩
    · decide
    · decide
    · intro h
      exact h.1 lan (by decide) (by decide)
  · have h1 := System.Reachable.run h0 addingActions rfl
    have h2 := System.Reachable.run h1 cancelActions rfl
    have hr := System.Reachable.run h2 [.otherAdds lan] rfl
    refine ⟨_, hr, rfl, ?_, ?_, ?_⟩
    · decide
    · decide
    · intro h
      exact absurd (h.2 lan (by decide) (by decide)) (by decide)

end Examples

end NulConnect.Windows
