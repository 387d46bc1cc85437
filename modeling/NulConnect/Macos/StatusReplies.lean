import NulConnect.Macos.OneEngine
import NulConnect.Macos.Starting

/-! The replies of `helper_status` from the return of `start_tun` to the next request to stop: when
none of them says that the helper is plainly stopped. -/
namespace NulConnect.Macos
open Transition

variable {ι κ : Type*}

/-- How far a start has come by the reply. -/
def TunReply.rank : TunReply → ℕ
  | .starting => 0
  | .running | .stopping => 1
  | .failed _ => 2
  | .stopped => 3

/-- `watching`: a start has returned `starting` and nobody has asked to stop since. The replies are
those given meanwhile, since the `latest` start was accepted; `failed`: that start or its engine
has been found to have failed. `took` has the engine that each monitor took. -/
structure StatusHistory (ι : Type*) where
  watching : Bool
  replies : List TunReply
  latest : Option ι
  failed : Bool
  took : ι → Option ι

def StatusHistory.empty : StatusHistory ι where
  watching := false
  replies := []
  latest := none
  failed := false
  took _ := none

/-- The start call whose start was accepted has not returned. -/
@[simp] def StartPhase.called : StartPhase → Bool
  | .idle | .refused | .rejected => false
  | _ => true

/-- Someone relies on the status: while watching, and before that from the moment a start is
accepted. -/
def Armed (s : State ι κ) (g : StatusHistory ι) : Prop :=
  g.watching ∨ ∃ t, (s.start t).called ∧ s.replied t = false

variable [DecidableEq ι] [DecidableEq κ]

/-- The reply that `helper_status` ends with in this step. -/
def replyOf (s : State ι κ) (a : Action ι κ) : Option TunReply :=
  match a with
  | .queryStarting u | .queryFailure u | .queryEngine u =>
    match (step s a).map fun (t : State ι κ) => t.query u with
    | some (QueryPhase.answered reply) => some reply
    | _ => none
  | _ => none

def StatusHistory.record (g : StatusHistory ι) (s : State ι κ) (a : Action ι κ) :
    StatusHistory ι :=
  match a with
  | .beginStart t =>
    if s.tunStarting ∨ s.tunEngine ≠ none then g
    else { g with replies := [], latest := some t, failed := false }
  | .startReturns t => if s.replied t then g else { g with watching := true }
  | .stopRequest _ => { g with watching := false, replies := [] }
  | .reportFailure t _ | .monitorNotSpawned t _ =>
    { g with failed := g.failed || g.latest = some t }
  | .monitorTake t => { g with took := Function.update g.took t s.tunEngine }
  | .monitorReport t =>
    { g with failed := g.failed || ((s.outcome t).isSome && g.took t = g.latest) }
  | _ => if g.watching then { g with replies := g.replies ++ (replyOf s a).toList } else g

/-- The helper with the replies of `helper_status`. -/
def statusHistories (ι κ : Type*) [DecidableEq ι] [DecidableEq κ] :
    System (State ι κ × StatusHistory ι) (Action ι κ) :=
  (system ι κ).observe .empty StatusHistory.record

/-- While a start is watched, no reply is a plain `stopped`, no reply goes back behind an earlier
one, none says that the start has failed unless it or its engine has, and what has failed has left
its failure behind once nobody is about to report it. -/
structure NeverPlain (s : State ι κ) (g : StatusHistory ι) : Prop where
  notStopped : .stopped ∉ g.replies
  ordered : g.replies.Pairwise fun earlier later => earlier.rank ≤ later.rank
  caused : ∀ message, .failed message ∈ g.replies → g.failed
  settled : g.watching → s.tunStarting = false → s.tunEngine = none →
    (∀ t, s.start t ≠ .reporting) → (∀ t, ¬ (s.monitor t).empties) → s.tunFailure ≠ none

/-- The result of an engine is an error. While watching, what a status request has read is still
so when it reads on, and it does not look at an empty slot while a worker or a monitor is about to
report a failure. From the acceptance of a start on, no call of `stop_tun` is under way, the
monitor takes no engine that is still running, and nobody reports a failure of an earlier start. -/
def Steady (p : State ι κ × StatusHistory ι) : Action ι κ → Prop
  | .engineEnds _ r => ∃ message, r = .error message
  | .queryFailure _ => p.2.watching → p.1.tunStarting = false
  | .queryEngine _ => p.2.watching → p.1.tunStarting = false ∧ p.1.tunFailure = none ∧
      (p.1.tunEngine = none →
        (∀ t, p.1.start t ≠ .reporting) ∧ ∀ t, ¬ (p.1.monitor t).empties)
  | .stopClearFailure _ | .stopTake _ => ¬ Armed p.1 p.2
  | .monitorTake _ => Armed p.1 p.2 → ∀ e, p.1.tunEngine = some e → p.1.result e ≠ none
  | .reportFailure t _ | .monitorNotSpawned t _ => Armed p.1 p.2 → p.2.latest = some t
  | .monitorReport t => Armed p.1 p.2 → p.1.outcome t ≠ none → p.2.took t = p.2.latest
  | _ => True

/-- The workers publish errors only. -/
def ErrorsOnly : Action ι κ → Prop
  | .engineEnds _ r => ∃ message, r = .error message
  | _ => True

/-- What most steps leave alone. -/
structure StatusFrame (s u : State ι κ) : Prop where
  starting : u.tunStarting = s.tunStarting
  failure : u.tunFailure = s.tunFailure
  engine : u.tunEngine = s.tunEngine
  replied : u.replied = s.replied
  result : u.result = s.result
  outcome : u.outcome = s.outcome
  reporting : ∀ t, s.start t = .reporting → u.start t = .reporting
  emptying : ∀ t, (s.monitor t).empties → u.monitor t = s.monitor t

/-- What a step does to the fields that `helper_status` reads, and to the results on their way
there. -/
inductive StatusStep (s u : State ι κ) : Action ι κ → Prop where
  | keeps {a : Action ι κ} (h : StatusFrame s u) : StatusStep s u a
  | accepts (t : ι) (hs : s.tunStarting = false) (he : s.tunEngine = none)
      (hu : u.tunStarting = true) (hf : u.tunFailure = none) (hr : u.replied = s.replied)
      (hres : u.result = s.result) (hout : u.outcome = s.outcome) : StatusStep s u (.beginStart t)
  | returns (t : ι) (hsp : (s.start t).spawned)
      (h : u = { s with replied := Function.update s.replied t true }) :
      StatusStep s u (.startReturns t)
  | publishes (t : ι) (hs : s.start t = .publishing) (hu : u.tunEngine = some t)
      (h : StatusFrame { s with tunEngine := some t } u) : StatusStep s u (.publish t)
  | clears (t : ι)
      (hs : s.start t = .succeeded ∨ s.start t = .failing ∧ u.start t = .reporting)
      (h : StatusFrame { s with tunStarting := false } u) : StatusStep s u (.clearStarting t)
  | fails {a : Action ι κ} (t : ι) (message : String)
      (ha : a = .reportFailure t message ∨ a = .monitorNotSpawned t message)
      (hs : u.tunStarting = s.tunStarting) (hf : u.tunFailure = some message)
      (he : u.tunEngine = s.tunEngine) (hr : u.replied = s.replied) (hres : u.result = s.result)
      (hout : u.outcome = s.outcome) : StatusStep s u a
  | ends (t : ι) (r : EngineResult) (hn : s.result t = none)
      (h : u = { s with result := Function.update s.result t (some r) }) :
      StatusStep s u (.engineEnds t r)
  | takes (t e : ι) (hs : s.monitor t = .locked) (he : s.tunEngine = some e)
      (h : u = { s.setMonitor t (.taken e) with tunEngine := none }) :
      StatusStep s u (.monitorTake t)
  | takesResult (t e : ι) (hs : s.monitor t = .taken e)
      (h : u = { s.setMonitor t (.ending e) with
        outcome := Function.update s.outcome t (s.result e)
        result := Function.update s.result e none }) : StatusStep s u (.monitorTakeResult t)
  | restores (t e : ι) (hs : s.monitor t = .ending e)
      (h : u = (s.setMonitor t .restored).stopLive (some e)) : StatusStep s u (.monitorStop t)
  | finishes (t : ι) (hs : s.monitor t = .restored)
      (h : StatusFrame { s with
        monitor := Function.update s.monitor t .done
        tunFailure := match s.outcome t with
          | some (.ok _) => none
          | some (.error message) => some message
          | none => s.tunFailure } u) : StatusStep s u (.monitorReport t)
  | stops {a : Action ι κ} (c : Caller ι κ) (hin : Inside s (.stop c))
      (ha : a = .stopClearFailure c ∨ a = .stopTake c) (hst : u.tunStarting = s.tunStarting)
      (hr : u.replied = s.replied) (hres : u.result = s.result) (hout : u.outcome = s.outcome) :
      StatusStep s u a

variable {s u : State ι κ} {a : Action ι κ} {g : StatusHistory ι}

omit [DecidableEq κ] in
/-- A start that moves on from elsewhere. -/
theorem StatusFrame.ofStart {t : ι} {q : StartPhase} (hs : s.start t ≠ .reporting)
    (hu : u.start = Function.update s.start t q) (hst : u.tunStarting = s.tunStarting)
    (hf : u.tunFailure = s.tunFailure) (he : u.tunEngine = s.tunEngine)
    (hr : u.replied = s.replied) (hres : u.result = s.result) (hout : u.outcome = s.outcome)
    (hm : u.monitor = s.monitor) : StatusFrame s u where
  starting := hst
  failure := hf
  engine := he
  replied := hr
  result := hres
  outcome := hout
  reporting := fun m hm' => by
    have hne : m ≠ t := by
      rintro rfl
      exact hs hm'
    simpa [hu, hne] using hm'
  emptying := fun m _ => by rw [hm]

omit [DecidableEq κ] in
/-- A monitor that is not about to report anything moves on. -/
theorem StatusFrame.ofMonitor {t : ι} {q : MonitorPhase ι} (hs : ¬ (s.monitor t).empties)
    (hu : u.monitor = Function.update s.monitor t q) (hst : u.tunStarting = s.tunStarting)
    (hf : u.tunFailure = s.tunFailure) (he : u.tunEngine = s.tunEngine)
    (hr : u.replied = s.replied) (hres : u.result = s.result) (hout : u.outcome = s.outcome)
    (hstart : u.start = s.start) : StatusFrame s u where
  starting := hst
  failure := hf
  engine := he
  replied := hr
  result := hres
  outcome := hout
  reporting := fun m hm => by rwa [hstart]
  emptying := fun m hm => by
    have hne : m ≠ t := by
      rintro rfl
      exact hs hm
    simp [hu, hne]

theorem status_of_step (hx : Exclusive s) (h : step s a = some u) : StatusStep s u a := by
  cases a with
  | writeStarting m ok | spawnWorker m ok | snapshotNetwork m ok | decodeConfig m ok
  | engineStart m ok | interfaceName m ok | setupRoutes m ok | waitSetup m ok
  | writeRunning m ok =>
    obtain ⟨hp, rfl⟩ := when_eq_some.mp h
    cases ok
    all_goals exact .keeps (.ofStart (by simp [hp]) rfl rfl rfl rfl rfl rfl rfl rfl)
  | checkEngine m =>
    obtain ⟨hp, rfl⟩ := when_eq_some.mp h
    split_ifs
    all_goals exact .keeps (.ofStart (by simp [hp]) rfl rfl rfl rfl rfl rfl rfl rfl)
  | workerLock m | workerStopped m =>
    obtain ⟨⟨hp, -⟩, rfl⟩ := when_eq_some.mp h
    exact .keeps (.ofStart (by simp [hp]) rfl rfl rfl rfl rfl rfl rfl rfl)
  | abort m =>
    obtain ⟨hp, rfl⟩ := when_eq_some.mp h
    exact .keeps (.ofStart (by simp [hp]) rfl rfl rfl rfl rfl rfl rfl rfl)
  | beginStart m =>
    obtain ⟨hp, rfl⟩ := when_eq_some.mp h
    split_ifs with hbusy
    · exact .keeps (.ofStart (by simp [hp]) rfl rfl rfl rfl rfl rfl rfl rfl)
    · push Not at hbusy
      exact .accepts m (by simpa using hbusy.1) hbusy.2 rfl rfl rfl rfl rfl
  | startReturns m =>
    obtain ⟨hp, rfl⟩ := when_eq_some.mp h
    exact .returns m hp rfl
  | publish m =>
    obtain ⟨hp, rfl⟩ := when_eq_some.mp h
    exact .publishes m hp rfl (.ofStart (by simp [hp]) rfl rfl rfl rfl rfl rfl rfl rfl)
  | clearStarting m =>
    obtain ⟨hp, rfl⟩ := when_eq_some.mp h
    have hne : s.start m ≠ .reporting := by
      rcases hp with hp | hp <;> simp [hp]
    refine .clears m ?_ (.ofStart hne rfl rfl rfl rfl rfl rfl rfl rfl)
    rcases hp with hp | hp
    · exact Or.inl hp
    · exact Or.inr ⟨hp, by simp [hp]⟩
  | reportFailure m message =>
    obtain ⟨-, rfl⟩ := when_eq_some.mp h
    exact .fails m message (Or.inl rfl) rfl rfl rfl rfl rfl rfl
  | monitorNotSpawned m message =>
    obtain ⟨-, rfl⟩ := when_eq_some.mp h
    exact .fails m message (Or.inr rfl) rfl rfl rfl rfl rfl rfl
  | spawnMonitor m =>
    obtain ⟨hp, rfl⟩ := when_eq_some.mp h
    have hi : s.monitor m = .idle := hx.unmonitored m (by simp [hp])
    have hstart : StatusFrame s (s.setStart m .done) :=
      .ofStart (by simp [hp]) rfl rfl rfl rfl rfl rfl rfl rfl
    have hmon : StatusFrame (s.setStart m .done) ((s.setStart m .done).setMonitor m .sleeping) :=
      .ofMonitor (by simp [hi]) rfl rfl rfl rfl rfl rfl rfl rfl
    exact .keeps {
      starting := rfl
      failure := rfl
      engine := rfl
      replied := rfl
      result := rfl
      outcome := rfl
      reporting := fun t ht => hmon.reporting t (hstart.reporting t ht)
      emptying := hmon.emptying }
  | engineEnds m r =>
    obtain ⟨hp, rfl⟩ := when_eq_some.mp h
    exact .ends m r hp.2 rfl
  | monitorCheck m =>
    obtain ⟨hp, rfl⟩ := when_eq_some.mp h
    exact .keeps (.ofMonitor (by simp [hp]) rfl rfl rfl rfl rfl rfl rfl rfl)
  | monitorLock m =>
    obtain ⟨⟨hp, -⟩, rfl⟩ := when_eq_some.mp h
    exact .keeps (.ofMonitor (by simp [hp]) rfl rfl rfl rfl rfl rfl rfl rfl)
  | monitorTake m =>
    obtain ⟨hp, rfl⟩ := when_eq_some.mp h
    cases he : s.tunEngine with
    | none => exact .keeps (.ofMonitor (by simp [hp]) rfl rfl rfl rfl rfl rfl rfl rfl)
    | some e => exact .takes m e hp he rfl
  | monitorTakeResult m =>
    simp only [step] at h
    split at h
    · next e hp => exact .takesResult m e hp (Option.some.inj h).symm
    · cases h
  | monitorStop m =>
    simp only [step] at h
    split at h
    · next e hp => exact .restores m e hp (Option.some.inj h).symm
    · cases h
  | monitorReport m =>
    obtain ⟨hp, rfl⟩ := when_eq_some.mp h
    exact .finishes m hp ⟨rfl, rfl, rfl, rfl, rfl, rfl, fun _ ht => ht, fun _ _ => rfl⟩
  | stopClearFailure c =>
    obtain ⟨hp, rfl⟩ := when_eq_some.mp h
    exact .stops c (by simp [Inside, hp]) (Or.inl rfl) rfl rfl rfl rfl
  | stopTake c =>
    obtain ⟨hp, rfl⟩ := when_eq_some.mp h
    exact .stops c (by simp [Inside, hp]) (Or.inr rfl) rfl rfl rfl rfl
  | stopEngine c =>
    simp only [step] at h
    split at h
    · obtain rfl := Option.some.inj h
      exact .keeps ⟨rfl, rfl, rfl, rfl, rfl, rfl, fun _ ht => ht, fun _ _ => rfl⟩
    · cases h
  | stopRequest | stopLock | stopWrite | queryStarting | queryFailure | queryEngine =>
    obtain ⟨-, rfl⟩ := when_eq_some.mp h
    exact .keeps ⟨rfl, rfl, rfl, rfl, rfl, rfl, fun _ ht => ht, fun _ _ => rfl⟩

section Cover

omit [DecidableEq ι] [DecidableEq κ]

/-- The monitor has taken an engine that has ended, and is on its way to report how. -/
def WillReport (s : State ι κ) (t : ι) : Prop :=
  (∃ e, s.monitor t = .taken e ∧ s.result e ≠ none) ∨
    (((∃ e, s.monitor t = .ending e) ∨ s.monitor t = .restored) ∧ s.outcome t ≠ none)

/-- A start that is no longer starting shows in one of these places. -/
def Covered (s : State ι κ) : Prop :=
  s.tunFailure ≠ none ∨ s.tunEngine ≠ none ∨ (∃ t, s.start t = .reporting) ∨ ∃ t, WillReport s t

theorem WillReport.empties {t : ι} (h : WillReport s t) : (s.monitor t).empties := by
  rcases h with ⟨e, he, -⟩ | ⟨⟨e, he⟩ | he, -⟩
  all_goals simp [he]

/-- Only one monitor is past its lock. -/
theorem WillReport.unique (hx : Exclusive s) {t m : ι} (h : WillReport s t)
    (hm : (s.monitor m).holds) : t = m := by
  have hin : Inside s (.monitor t) := Emptying.inside (p := .monitor t) h.empties
  have hin' : Inside s (.monitor m) := hm
  exact Thread.monitor.inj (hx.guarded.unique hin hin')

theorem WillReport.covered {t : ι} (h : WillReport s t) : Covered s :=
  Or.inr (Or.inr (Or.inr ⟨t, h⟩))

/-- What stays where it is still covers the start, and what a monitor will report has to be
looked at. -/
theorem Covered.mono (hc : Covered s) (hf : s.tunFailure ≠ none → u.tunFailure ≠ none)
    (he : s.tunEngine ≠ none → u.tunEngine ≠ none)
    (hrep : ∀ t, s.start t = .reporting → u.start t = .reporting)
    (hwill : ∀ t, WillReport s t → Covered u) : Covered u := by
  rcases hc with hfail | hslot | ⟨t, ht⟩ | ⟨t, ht⟩
  · exact Or.inl (hf hfail)
  · exact Or.inr (Or.inl (he hslot))
  · exact Or.inr (Or.inr (Or.inl ⟨t, hrep t ht⟩))
  · exact hwill t ht

theorem StatusFrame.covered (f : StatusFrame s u) (hc : Covered s) : Covered u := by
  apply hc.mono (by rw [f.failure]; exact id) (by rw [f.engine]; exact id) f.reporting
  intro t ht
  have hstill : WillReport u t := by
    unfold WillReport
    rw [f.emptying t ht.empties, f.result, f.outcome]
    exact ht
  exact hstill.covered

end Cover

omit [DecidableEq κ] in
theorem covered_of_step (hx : Exclusive s)
    (hout : ∀ t r, s.outcome t = some r → ∃ message, r = .error message)
    (hstop : ∀ c, a ≠ .stopClearFailure c ∧ a ≠ .stopTake c)
    (htake : ∀ t e, a = .monitorTake t → s.tunEngine = some e → s.result e ≠ none)
    (h : StatusStep s u a) (hc : Covered s) :
    Covered u ∨ u.tunStarting = true ∧ s.tunStarting = false ∧ s.tunEngine = none := by
  cases h with
  | keeps f => exact Or.inl (f.covered hc)
  | accepts t hs he hu => exact Or.inr ⟨hu, hs, he⟩
  | returns t _ h =>
    subst h
    exact Or.inl hc
  | publishes t _ hu => exact Or.inl (Or.inr (Or.inl (by simp [hu])))
  | clears t _ f => exact Or.inl (f.covered hc)
  | fails _ message _ _ hf => exact Or.inl (Or.inl (by simp [hf]))
  | ends t r hn h =>
    subst h
    left
    refine hc.mono id id (fun _ => id) ?_
    intro m hm
    apply WillReport.covered (t := m)
    rcases hm with ⟨e, hm, hr⟩ | hm
    · have het : e ≠ t := by
        rintro rfl
        exact hr hn
      exact Or.inl ⟨e, hm, by simpa [het] using hr⟩
    · exact Or.inr hm
  | takes t e _ he h =>
    subst h
    have hwill : WillReport { s.setMonitor t (.taken e) with tunEngine := none } t :=
      Or.inl ⟨e, by simp, htake t e rfl he⟩
    exact Or.inl hwill.covered
  | takesResult t e hs h =>
    subst h
    left
    refine hc.mono id id (fun _ => id) ?_
    intro m hm
    obtain rfl : m = t := hm.unique hx (by simp [hs])
    have hr : s.result e ≠ none := by
      rcases hm with ⟨e', he', hr⟩ | ⟨⟨e', he'⟩ | he', -⟩
      all_goals simp_all
    apply WillReport.covered (t := m)
    exact Or.inr ⟨Or.inl ⟨e, by simp⟩, by simpa using hr⟩
  | restores t e hs h =>
    subst h
    left
    refine hc.mono id id (fun _ => id) ?_
    intro m hm
    obtain rfl : m = t := hm.unique hx (by simp [hs])
    have hr : s.outcome m ≠ none := by
      rcases hm with ⟨e', he', -⟩ | ⟨-, hr⟩
      · simp [hs] at he'
      · exact hr
    apply WillReport.covered (t := m)
    exact Or.inr ⟨Or.inr (by simp), hr⟩
  | finishes t hs f =>
    left
    have hfail := f.failure
    dsimp only at hfail
    cases ho : s.outcome t with
    | some r =>
      obtain ⟨message, rfl⟩ := hout t r ho
      exact Or.inl (by simp [hfail, ho])
    | none =>
      rw [ho] at hfail
      apply hc.mono (by rw [hfail]; exact id) (by rw [f.engine]; exact id) f.reporting
      intro m hm
      obtain rfl : m = t := hm.unique hx (by simp [hs])
      rcases hm with ⟨e', he', -⟩ | ⟨-, hr⟩
      · simp [hs] at he'
      · exact absurd ho hr
  | stops c _ ha =>
    rcases ha with ha | ha
    · exact absurd ha (hstop c).1
    · exact absurd ha (hstop c).2

/-- What the replies rest on. -/
structure WatchKept (s : State ι κ) (g : StatusHistory ι) : Prop where
  hosted : Hosted s
  flag : ∃ o, FlagAccount s o
  published : ∀ t, s.start t = .published → s.tunEngine = some t
  results : ∀ e r, s.result e = some r → ∃ message, r = .error message
  outcomes : ∀ t r, s.outcome t = some r → ∃ message, r = .error message
  covered : Armed s g → s.tunStarting = true ∨ Covered s
  succeeded : Armed s g → ∀ t, s.start t = .succeeded → Covered s

/-- What the replies so far say of the state. -/
structure RepliesKept (s : State ι κ) (g : StatusHistory ι) : Prop where
  quiet : g.watching = false → g.replies = []
  notStopped : .stopped ∉ g.replies
  ordered : g.replies.Pairwise fun earlier later => earlier.rank ≤ later.rank
  advanced : ∀ r ∈ g.replies, 1 ≤ r.rank → s.tunStarting = false
  failed : ∀ r ∈ g.replies, 2 ≤ r.rank → s.tunFailure ≠ none

omit [DecidableEq κ] in
theorem StatusStep.replied {t : ι} (h : StatusStep s u a) (ht : u.replied t = false) :
    s.replied t = false := by
  cases h with
  | keeps f => rwa [← f.replied]
  | accepts _ _ _ _ _ hr => rwa [← hr]
  | returns m _ h =>
    subst h
    by_cases htm : t = m
    · subst htm
      simp at ht
    · simpa [htm] using ht
  | publishes _ _ _ f | clears _ _ f | finishes _ _ f => rwa [f.replied] at ht
  | fails _ _ _ _ _ _ hr => rwa [← hr]
  | ends _ _ _ h | takes _ _ _ _ h | takesResult _ _ _ h | restores _ _ _ h =>
    subst h
    exact ht
  | stops _ _ _ _ hr => rwa [← hr]

theorem StartPhase.called_succ (p : StartPhase) :
    ∀ q ∈ p.succ, q.called → q.flagged = p.flagged → p.called := by
  cases p <;> decide

theorem StartPhase.called_of_inProgress {p : StartPhase} (h : p.inProgress) : p.called := by
  cases p <;> simp_all

theorem StartPhase.called_of_spawned {p : StartPhase} (h : p.spawned) : p.called := by
  cases p <;> simp_all

/-- A call that has not returned has not begun with this step, unless its start was accepted. -/
theorem called_of_step {t : ι} (h : step s a = some u) (hu : (u.start t).called) :
    (s.start t).called ∨ u.tunStarting = true ∧ s.tunStarting = false ∧ s.tunEngine = none := by
  cases flag_of_step h with
  | keeps hf hedge hr =>
    left
    rcases hedge t with hsame | hedge
    · rwa [hsame] at hu
    · rcases start_of_step h t with hsame | hmem
      · rwa [hsame] at hu
      · exact StartPhase.called_succ _ _ hmem hu hedge.1
  | sets m hf he hf' => exact Or.inr ⟨hf', hf, he⟩
  | clears m hm _ _ _ hframe =>
    left
    by_cases htm : t = m
    · subst htm
      exact StartPhase.called_of_inProgress hm
    · rwa [hframe t htm] at hu

theorem watching_of_record (h : step s a = some u) (hu : (g.record s a).watching) : Armed s g := by
  cases a with
  | beginStart m =>
    left
    simp only [StatusHistory.record] at hu
    split at hu <;> exact hu
  | startReturns m =>
    simp only [StatusHistory.record] at hu
    split at hu
    · exact Or.inl hu
    · rename_i hr
      have hsp : (s.start m).spawned := (when_eq_some.mp h).1
      exact Or.inr ⟨m, StartPhase.called_of_spawned hsp, by simpa using hr⟩
  | stopRequest r => cases hu
  | reportFailure | monitorNotSpawned | monitorTake | monitorReport => exact Or.inl hu
  | _ =>
    left
    simp only [StatusHistory.record] at hu
    split at hu <;> exact hu

/-- A start is watched only from its acceptance on, which sets the flag. -/
theorem armed_of_step (hx : Exclusive s) (h : step s a = some u) (hu : Armed u (g.record s a)) :
    Armed s g ∨ u.tunStarting = true ∧ s.tunStarting = false ∧ s.tunEngine = none := by
  rcases hu with hw | ⟨t, hcalled, hr⟩
  · exact Or.inl (watching_of_record h hw)
  · rcases called_of_step h hcalled with hs | hnew
    · exact Or.inl (Or.inr ⟨t, hs, (status_of_step hx h).replied hr⟩)
    · exact Or.inr hnew

omit [DecidableEq κ] in
/-- The flag stays set until a worker clears it. -/
theorem StatusStep.starting (h : StatusStep s u a) (hs : s.tunStarting = true) :
    u.tunStarting = true ∨ ∃ t, (s.start t = .succeeded ∨ u.start t = .reporting) ∧
      StatusFrame { s with tunStarting := false } u := by
  cases h with
  | keeps f => exact Or.inl (f.starting.trans hs)
  | accepts _ _ _ hu => exact Or.inl hu
  | returns _ _ h | ends _ _ _ h | takes _ _ _ _ h | takesResult _ _ _ h | restores _ _ _ h =>
    subst h
    exact Or.inl hs
  | publishes _ _ _ f | finishes _ _ f => exact Or.inl (f.starting.trans hs)
  | clears t ht f => exact Or.inr ⟨t, ht.imp_right And.right, f⟩
  | fails _ _ _ hst | stops _ _ _ hst => exact Or.inl (hst.trans hs)

omit [DecidableEq κ] in
/-- Only an accepted start sets the flag. -/
theorem StatusStep.accepted (h : StatusStep s u a) (hs : s.tunStarting = false)
    (hu : u.tunStarting = true) :
    ∃ t, a = .beginStart t ∧ s.tunStarting = false ∧ s.tunEngine = none := by
  have hsame (hst : u.tunStarting = s.tunStarting) : False := by
    rw [hu, hs] at hst
    cases hst
  cases h with
  | keeps f => exact (hsame f.starting).elim
  | accepts t _ he => exact ⟨t, rfl, hs, he⟩
  | returns _ _ h | ends _ _ _ h | takes _ _ _ _ h | takesResult _ _ _ h | restores _ _ _ h =>
    subst h
    exact (hsame rfl).elim
  | publishes _ _ _ f | finishes _ _ f => exact (hsame f.starting).elim
  | clears _ _ f =>
    have hclear := f.starting
    rw [hu] at hclear
    cases hclear
  | fails _ _ _ hst | stops _ _ _ hst => exact (hsame hst).elim

omit [DecidableEq κ] in
theorem StatusStep.result {e : ι} {r : EngineResult} (h : StatusStep s u a)
    (hr : u.result e = some r) : s.result e = some r ∨ a = .engineEnds e r := by
  cases h with
  | keeps f => exact Or.inl (by rwa [← f.result])
  | accepts _ _ _ _ _ _ hres => exact Or.inl (by rwa [← hres])
  | returns _ _ h | takes _ _ _ _ h | restores _ _ _ h =>
    subst h
    exact Or.inl hr
  | publishes _ _ _ f | clears _ _ f | finishes _ _ f =>
    rw [f.result] at hr
    exact Or.inl hr
  | fails _ _ _ _ _ _ _ hres => exact Or.inl (by rwa [← hres])
  | ends t r' _ h =>
    subst h
    by_cases het : e = t
    · subst het
      have hsame : r' = r := by simpa using hr
      subst hsame
      exact Or.inr rfl
    · exact Or.inl (by simpa [het] using hr)
  | takesResult t e' _ h =>
    subst h
    by_cases het : e = e'
    · subst het
      simp at hr
    · exact Or.inl (by simpa [het] using hr)
  | stops _ _ _ _ _ hres => exact Or.inl (by rwa [← hres])

omit [DecidableEq κ] in
theorem StatusStep.outcome {t : ι} {r : EngineResult} (h : StatusStep s u a)
    (hr : u.outcome t = some r) : s.outcome t = some r ∨ ∃ e, s.result e = some r := by
  cases h with
  | keeps f => exact Or.inl (by rwa [← f.outcome])
  | accepts _ _ _ _ _ _ _ hout => exact Or.inl (by rwa [← hout])
  | returns _ _ h | takes _ _ _ _ h | restores _ _ _ h | ends _ _ _ h =>
    subst h
    exact Or.inl hr
  | publishes _ _ _ f | clears _ _ f | finishes _ _ f =>
    rw [f.outcome] at hr
    exact Or.inl hr
  | fails _ _ _ _ _ _ _ _ hout => exact Or.inl (by rwa [← hout])
  | takesResult m e _ h =>
    subst h
    by_cases htm : t = m
    · subst htm
      exact Or.inr ⟨e, by simpa using hr⟩
    · exact Or.inl (by simpa [htm] using hr)
  | stops _ _ _ _ _ _ hout => exact Or.inl (by rwa [← hout])

namespace WatchKept

omit [DecidableEq ι] [DecidableEq κ] in
/-- No start is at its end while the flag is clear and the slot empty. -/
theorem not_ending (hs : WatchKept s g) (hf : s.tunStarting = false) (he : s.tunEngine = none)
    {t : ι} : s.start t ≠ .succeeded ∧ s.start t ≠ .published := by
  constructor
  · intro ht
    obtain ⟨o, ho⟩ := hs.flag
    have hset : s.tunStarting = true := ho.flag.mpr ⟨t, by simp [ht]⟩
    rw [hf] at hset
    cases hset
  · intro ht
    rw [hs.published t ht] at he
    cases he

theorem published_step (hs : WatchKept s g) (h : Macos.step s a = some u) {t : ι}
    (ht : u.start t = .published) : u.tunEngine = some t := by
  by_cases hp : s.start t = .published
  · have hslot := hs.published t hp
    have hin : Inside s (.worker t) := by simp [Inside, hp]
    cases status_of_step hs.hosted.exclusive h with
    | keeps f => exact f.engine.trans hslot
    | accepts _ _ he =>
      rw [he] at hslot
      cases hslot
    | returns _ _ hu | ends _ _ _ hu | takesResult _ _ _ hu | restores _ _ _ hu =>
      subst hu
      exact hslot
    | publishes m hm =>
      have hin' : Inside s (.worker m) := by simp [Inside, hm]
      have hsame := Thread.worker.inj (hs.hosted.exclusive.guarded.unique hin hin')
      subst hsame
      rw [hp] at hm
      cases hm
    | clears _ _ f | finishes _ _ f => exact f.engine.trans hslot
    | fails _ _ _ _ _ he => exact he.trans hslot
    | takes m e hm =>
      have hin' : Inside s (.monitor m) := by simp [Inside, hm]
      cases hs.hosted.exclusive.guarded.unique hin hin'
    | stops c hin' => cases hs.hosted.exclusive.guarded.unique hin hin'
  · have hmoved : a.startOf = some t := by
      by_contra hno
      exact hp ((start_of_others h hno).symm.trans ht)
    -- No other step of the start leads there.
    by_cases ha : a = .publish t
    · subst ha
      obtain ⟨-, rfl⟩ := when_eq_some.mp h
      rfl
    · rcases start_of_step h t with hsame | hmem
      · exact absurd (hsame.symm.trans ht) hp
      · have hpub : s.start t = .publishing := by
          rw [ht] at hmem
          revert hmem
          cases s.start t <;> simp
        cases a <;> simp_all [Macos.step]

/-- While a start is watched, it stays covered. -/
theorem covered_step (hs : WatchKept s g) (hok : Steady (s, g) a) (ha : Armed s g)
    (h : Macos.step s a = some u) (hc : Covered s) :
    Covered u ∨ u.tunStarting = true ∧ s.tunStarting = false ∧ s.tunEngine = none := by
  have hx := hs.hosted.exclusive
  apply covered_of_step hx hs.outcomes ?_ ?_ (status_of_step hx h) hc
  · intro c
    constructor
    · rintro rfl
      exact hok ha
    · rintro rfl
      exact hok ha
  · rintro t e rfl he
    exact hok ha e he

theorem armed_step (hs : WatchKept s g) (hok : Steady (s, g) a) (h : Macos.step s a = some u)
    (hu : Armed u (g.record s a)) : u.tunStarting = true ∨ Covered u := by
  have hx := hs.hosted.exclusive
  rcases armed_of_step hx h hu with ha | ⟨hset, -, -⟩
  · rcases hs.covered ha with hset | hc
    · rcases (status_of_step hx h).starting hset with hset' | ⟨t, ht | ht, f⟩
      · exact Or.inl hset'
      · exact Or.inr (f.covered (hs.succeeded ha t ht))
      · exact Or.inr (Or.inr (Or.inr (Or.inl ⟨t, ht⟩)))
    · rcases hs.covered_step hok ha h hc with hc' | ⟨hset, -, -⟩
      · exact Or.inr hc'
      · exact Or.inl hset
  · exact Or.inl hset

theorem succeeded_step (hs : WatchKept s g) (hok : Steady (s, g) a) (h : Macos.step s a = some u)
    (hu : Armed u (g.record s a)) {t : ι} (ht : u.start t = .succeeded) : Covered u := by
  have hx := hs.hosted.exclusive
  have hfrom : s.start t = .succeeded ∨ s.start t = .published := by
    rcases start_of_step h t with hsame | hmem
    · exact Or.inl (hsame.symm.trans ht)
    · rw [ht] at hmem
      right
      revert hmem
      cases s.start t <;> simp
  have hno : ¬ (s.tunStarting = false ∧ s.tunEngine = none) := by
    rintro ⟨hf, he⟩
    rcases hfrom with hsucc | hpub
    · exact (hs.not_ending hf he).1 hsucc
    · exact (hs.not_ending hf he).2 hpub
  rcases armed_of_step hx h hu with ha | ⟨-, hnew⟩
  · have hc : Covered s := by
      rcases hfrom with hsucc | hpub
      · exact hs.succeeded ha t hsucc
      · exact Or.inr (Or.inl (by simp [hs.published t hpub]))
    rcases hs.covered_step hok ha h hc with hc' | ⟨-, hnew⟩
    · exact hc'
    · exact absurd hnew hno
  · exact absurd hnew hno

theorem step (hs : WatchKept s g) (hok : Steady (s, g) a) (h : Macos.step s a = some u) :
    WatchKept u (g.record s a) where
  hosted := hs.hosted.step h
  flag := by
    obtain ⟨o, ho⟩ := hs.flag
    exact ⟨_, ho.step h⟩
  published _ ht := hs.published_step h ht
  results e r hr := by
    rcases (status_of_step hs.hosted.exclusive h).result hr with hr' | rfl
    · exact hs.results e r hr'
    · exact hok
  outcomes t r hr := by
    rcases (status_of_step hs.hosted.exclusive h).outcome hr with hr' | ⟨e, hr'⟩
    · exact hs.outcomes t r hr'
    · exact hs.results e r hr'
  covered := hs.armed_step hok h
  succeeded hu _ ht := hs.succeeded_step hok h hu ht

end WatchKept

namespace RepliesKept

/-- A failure stays while a start is watched. -/
theorem failure_step (hw : WatchKept s g) (hok : Steady (s, g) a) (ha : g.watching)
    (h : Macos.step s a = some u) (hf : s.tunFailure ≠ none) :
    u.tunFailure ≠ none ∨ ∃ t, a = .beginStart t ∧ s.tunStarting = false ∧ s.tunEngine = none := by
  cases status_of_step hw.hosted.exclusive h with
  | keeps f => exact Or.inl (by rwa [f.failure])
  | accepts t hs he => exact Or.inr ⟨t, rfl, hs, he⟩
  | returns _ _ hu | ends _ _ _ hu | takes _ _ _ _ hu | takesResult _ _ _ hu | restores _ _ _ hu =>
    subst hu
    exact Or.inl hf
  | publishes _ _ _ f | clears _ _ f => exact Or.inl (by rwa [f.failure])
  | fails _ message _ _ hf' => exact Or.inl (by simp [hf'])
  | finishes t _ f =>
    left
    rw [f.failure]
    dsimp only
    cases ho : s.outcome t with
    | some r =>
      obtain ⟨message, rfl⟩ := hw.outcomes t r ho
      simp
    | none => exact hf
  | stops c _ hc =>
    rcases hc with rfl | rfl
    · exact absurd (Or.inl ha) hok
    · exact absurd (Or.inl ha) hok

/-- What is known of the earlier replies outlives a step that accepts no start. -/
theorem keep (hs : RepliesKept s g) (hw : WatchKept s g) (hok : Steady (s, g) a)
    (h : Macos.step s a = some u)
    (hn : ¬ ∃ t, a = .beginStart t ∧ s.tunStarting = false ∧ s.tunEngine = none) :
    RepliesKept u g where
  quiet := hs.quiet
  notStopped := hs.notStopped
  ordered := hs.ordered
  advanced := fun r hr hrank => by
    have hclear := hs.advanced r hr hrank
    by_contra hset
    exact hn ((status_of_step hw.hosted.exclusive h).accepted hclear (by simpa using hset))
  failed := fun r hr hrank => by
    have hwatch : g.watching := by
      by_contra hno
      rw [hs.quiet (by simpa using hno)] at hr
      cases hr
    rcases failure_step hw hok hwatch h (hs.failed r hr hrank) with hf | hacc
    · exact hf
    · exact absurd hacc hn

omit [DecidableEq ι] [DecidableEq κ] in
theorem nil (hg : g.replies = []) : RepliesKept s g :=
  ⟨fun _ => hg, by simp [hg], by simp [hg], by simp [hg], by simp [hg]⟩

omit [DecidableEq ι] [DecidableEq κ] in
theorem rank_le_two (hs : RepliesKept s g) {r : TunReply} (hr : r ∈ g.replies) : r.rank ≤ 2 := by
  cases r with
  | stopped => exact absurd hr hs.notStopped
  | starting | running | stopping | failed => simp [TunReply.rank]

omit [DecidableEq ι] [DecidableEq κ] in
/-- One more reply, which goes back behind none of the others. -/
theorem append (hs : RepliesKept s g) (hg : g.watching) {r : TunReply} (hne : r ≠ .stopped)
    (hle : ∀ r' ∈ g.replies, r'.rank ≤ r.rank) (hadv : 1 ≤ r.rank → s.tunStarting = false)
    (hfail : 2 ≤ r.rank → s.tunFailure ≠ none) :
    RepliesKept s { g with replies := g.replies ++ [r] } where
  quiet := fun hno => by
    rw [hg] at hno
    cases hno
  notStopped := by
    rw [List.mem_append, not_or]
    exact ⟨hs.notStopped, by simpa using hne.symm⟩
  ordered := by
    rw [List.pairwise_append]
    refine ⟨hs.ordered, by simp, ?_⟩
    intro r' hr' r'' hr''
    rw [List.mem_singleton.mp hr'']
    exact hle r' hr'
  advanced := fun r' hr' hrank => by
    rcases List.mem_append.mp hr' with hold | hnew
    · exact hs.advanced r' hold hrank
    · rw [List.mem_singleton.mp hnew] at hrank
      exact hadv hrank
  failed := fun r' hr' hrank => by
    rcases List.mem_append.mp hr' with hold | hnew
    · exact hs.failed r' hold hrank
    · rw [List.mem_singleton.mp hnew] at hrank
      exact hfail hrank

omit [DecidableEq ι] [DecidableEq κ] in
/-- A slot that is looked at while a start is watched is not empty: the start would be nowhere. -/
theorem slot_of_steady (hw : WatchKept s g) {v : κ} (hok : Steady (s, g) (.queryEngine v))
    (hg : g.watching) : s.tunEngine ≠ none := by
  obtain ⟨hclear, hf, hempty⟩ := hok hg
  intro he
  obtain ⟨hrep, hmon⟩ := hempty he
  rcases hw.covered (Or.inl hg) with hset | hf' | he' | ⟨t, ht⟩ | ⟨t, ht⟩
  · rw [hclear] at hset
    cases hset
  · exact absurd hf hf'
  · exact absurd he he'
  · exact absurd ht (hrep t)
  · exact absurd ht.empties (hmon t)

/-- A reply goes to the others in the state it was read from. -/
theorem reply_step (hs : RepliesKept s g) (hw : WatchKept s g) (hok : Steady (s, g) a)
    (hg : g.watching) {r : TunReply} (h : Macos.step s a = some u) (hr : replyOf s a = some r) :
    RepliesKept s { g with replies := g.replies ++ [r] } := by
  cases a with
  | queryStarting v =>
    simp only [replyOf, h, Option.map_some] at hr
    obtain ⟨-, rfl⟩ := when_eq_some.mp h
    by_cases hset : s.tunStarting = true
    · obtain rfl : TunReply.starting = r := by simpa [hset] using hr
      apply hs.append hg (by simp) ?_ (by simp [TunReply.rank]) (by simp [TunReply.rank])
      intro r' hr'
      by_contra hlt
      have hzero : TunReply.starting.rank = 0 := rfl
      have hclear := hs.advanced r' hr' (by omega)
      rw [hset] at hclear
      cases hclear
    · simp [hset] at hr
  | queryFailure v =>
    simp only [replyOf, h, Option.map_some] at hr
    obtain ⟨-, rfl⟩ := when_eq_some.mp h
    cases hf : s.tunFailure with
    | none => simp [hf] at hr
    | some message =>
      obtain rfl : TunReply.failed message = r := by simpa [hf] using hr
      apply hs.append hg (by simp)
      · intro r' hr'
        exact hs.rank_le_two hr'
      · intro _
        exact hok hg
      · intro _
        simp [hf]
  | queryEngine v =>
    simp only [replyOf, h, Option.map_some] at hr
    obtain ⟨-, rfl⟩ := when_eq_some.mp h
    obtain ⟨hclear, hf, -⟩ := hok hg
    cases he : s.tunEngine with
    | none => exact absurd he (slot_of_steady hw hok hg)
    | some e =>
      have hrank : r ≠ .stopped ∧ r.rank = 1 := by
        have hr' : (if engineStatus (s.result e) = .stopped then TunReply.stopping
            else TunReply.running) = r := by simpa [he] using hr
        subst hr'
        split <;> simp [TunReply.rank]
      apply hs.append hg hrank.1
      · intro r' hr'
        by_contra hlt
        exact hs.failed r' hr' (by omega) hf
      · intro _
        exact hclear
      · intro htwo
        omega
  | _ => cases hr

/-- A reply changes nothing but the request it belongs to. -/
theorem of_replied (hs : RepliesKept s g) (h : Macos.step s a = some u) {r : TunReply}
    (hr : replyOf s a = some r) : RepliesKept u g := by
  have hsame : u.tunStarting = s.tunStarting ∧ u.tunFailure = s.tunFailure := by
    cases a with
    | queryStarting v | queryFailure v | queryEngine v =>
      obtain ⟨-, rfl⟩ := when_eq_some.mp h
      exact ⟨rfl, rfl⟩
    | _ => cases hr
  exact {
    quiet := hs.quiet
    notStopped := hs.notStopped
    ordered := hs.ordered
    advanced := fun r hr hrank => hsame.1.trans (hs.advanced r hr hrank)
    failed := fun r hr hrank => by
      rw [hsame.2]
      exact hs.failed r hr hrank }

/-- The steps that leave the period as it is. -/
theorem period_step (hs : RepliesKept s g) (hw : WatchKept s g) (hok : Steady (s, g) a)
    (h : Macos.step s a = some u) (hn : ∀ t, a ≠ .beginStart t) : RepliesKept u
      (if g.watching then { g with replies := g.replies ++ (replyOf s a).toList } else g) := by
  have hkeep := hs.keep hw hok h fun hb => hb.elim fun t ht => hn t ht.1
  split
  · rename_i hg
    cases hr : replyOf s a with
    | none => simpa using hkeep
    | some r => exact (hs.reply_step hw hok hg h hr).of_replied h hr
  · exact hkeep

theorem step (hs : RepliesKept s g) (hw : WatchKept s g) (hok : Steady (s, g) a)
    (h : Macos.step s a = some u) : RepliesKept u (g.record s a) := by
  cases a with
  | beginStart t =>
    simp only [StatusHistory.record]
    split
    · rename_i hbusy
      apply hs.keep hw hok h
      rintro ⟨-, -, hf, he⟩
      rcases hbusy with hset | hne
      · rw [hf] at hset
        cases hset
      · exact hne he
    · exact nil rfl
  | startReturns t =>
    have hkeep := hs.keep hw hok h (by simp)
    simp only [StatusHistory.record]
    split
    · exact hkeep
    · exact { hkeep with quiet := fun hno => by cases hno }
  | stopRequest v => exact nil rfl
  | reportFailure | monitorNotSpawned | monitorTake | monitorReport =>
    have hkeep := hs.keep hw hok h (by simp)
    exact ⟨hkeep.quiet, hkeep.notStopped, hkeep.ordered, hkeep.advanced, hkeep.failed⟩
  | _ => exact hs.period_step hw hok h (by simp)

end RepliesKept

/-- A failure that shows while a start is watched is one of that start. -/
structure Blamed (s : State ι κ) (g : StatusHistory ι) : Prop where
  shown : Armed s g → s.tunFailure ≠ none → g.failed
  caused : ∀ message, .failed message ∈ g.replies → g.failed

namespace Blamed

theorem failed_record (hn : ¬ ∃ t, a = .beginStart t ∧ s.tunStarting = false ∧ s.tunEngine = none)
    (hg : g.failed) : (g.record s a).failed := by
  cases a with
  | beginStart t =>
    have hbusy : s.tunStarting ∨ s.tunEngine ≠ none := by
      by_contra hno
      push Not at hno
      exact hn ⟨t, rfl, by simpa using hno.1, hno.2⟩
    rw [StatusHistory.record, if_pos hbusy]
    exact hg
  | reportFailure | monitorNotSpawned | monitorReport => simp [StatusHistory.record, hg]
  | stopRequest | monitorTake => exact hg
  | _ =>
    simp only [StatusHistory.record]
    split <;> exact hg

/-- Where a reply comes from. -/
theorem mem_record {r : TunReply} (hr : r ∈ (g.record s a).replies) :
    (r ∈ g.replies ∧ ¬ ∃ t, a = .beginStart t ∧ s.tunStarting = false ∧ s.tunEngine = none) ∨
      g.watching ∧ replyOf s a = some r := by
  cases a with
  | beginStart t =>
    simp only [StatusHistory.record] at hr
    split at hr
    · rename_i hbusy
      refine Or.inl ⟨hr, ?_⟩
      rintro ⟨-, -, hf, he⟩
      simp [hf, he] at hbusy
    · cases hr
  | stopRequest => cases hr
  | reportFailure | monitorNotSpawned | monitorReport | monitorTake => exact Or.inl ⟨hr, by simp⟩
  | startReturns t =>
    simp only [StatusHistory.record] at hr
    split at hr
    all_goals exact Or.inl ⟨hr, by simp⟩
  | _ =>
    simp only [StatusHistory.record] at hr
    split at hr
    · rename_i hg
      rcases List.mem_append.mp hr with hold | hnew
      · exact Or.inl ⟨hold, by simp⟩
      · exact Or.inr ⟨hg, by simpa using hnew⟩
    · exact Or.inl ⟨hr, by simp⟩

theorem failure_of_replyOf {message : String} (hr : replyOf s a = some (.failed message))
    (h : Macos.step s a = some u) : s.tunFailure ≠ none := by
  cases a with
  | queryStarting v =>
    simp only [replyOf, h, Option.map_some] at hr
    obtain ⟨-, rfl⟩ := when_eq_some.mp h
    cases hset : s.tunStarting <;> simp [hset] at hr
  | queryFailure v =>
    simp only [replyOf, h, Option.map_some] at hr
    obtain ⟨-, rfl⟩ := when_eq_some.mp h
    intro hf
    simp [hf] at hr
  | queryEngine v =>
    simp only [replyOf, h, Option.map_some] at hr
    obtain ⟨-, rfl⟩ := when_eq_some.mp h
    cases he : s.tunEngine with
    | none => simp [he] at hr
    | some e =>
      have hr' : (if engineStatus (s.result e) = .stopped then TunReply.stopping
          else TunReply.running) = .failed message := by simpa [he] using hr
      split at hr' <;> cases hr'
  | _ => cases hr

theorem shown_step (hs : Blamed s g) (hw : WatchKept s g) (hok : Steady (s, g) a)
    (h : Macos.step s a = some u) (hu : Armed u (g.record s a)) (hf : u.tunFailure ≠ none) :
    (g.record s a).failed := by
  have hx := hw.hosted.exclusive
  by_cases hacc : ∃ t, a = .beginStart t ∧ s.tunStarting = false ∧ s.tunEngine = none
  · obtain ⟨t, rfl, hclear, he⟩ := hacc
    obtain ⟨-, rfl⟩ := when_eq_some.mp h
    simp [hclear, he] at hf
  have hstatus := status_of_step hx h
  have ha : Armed s g := by
    rcases armed_of_step hx h hu with ha | ⟨hset, hclear, -⟩
    · exact ha
    · exact absurd (hstatus.accepted hclear hset) hacc
  have hold (hsame : u.tunFailure = s.tunFailure) : (g.record s a).failed := by
    rw [hsame] at hf
    exact failed_record hacc (hs.shown ha hf)
  cases hstatus with
  | keeps f => exact hold f.failure
  | accepts t hclear he => exact absurd ⟨t, rfl, hclear, he⟩ hacc
  | returns _ _ hu' | ends _ _ _ hu' | takes _ _ _ _ hu' | takesResult _ _ _ hu'
  | restores _ _ _ hu' =>
    subst hu'
    exact hold rfl
  | publishes _ _ _ f | clears _ _ f => exact hold f.failure
  | fails t message hrep =>
    rcases hrep with rfl | rfl
    all_goals
      have hlatest : g.latest = some t := hok ha
      simp [StatusHistory.record, hlatest]
  | finishes t _ f =>
    cases ho : s.outcome t with
    | none =>
      apply hold
      rw [f.failure]
      simp [ho]
    | some r =>
      have htook : g.took t = g.latest := hok ha (by simp [ho])
      simp [StatusHistory.record, ho, htook]
  | stops c _ hc =>
    rcases hc with rfl | rfl
    all_goals exact absurd ha hok

theorem step (hs : Blamed s g) (hw : WatchKept s g) (hok : Steady (s, g) a)
    (h : Macos.step s a = some u) : Blamed u (g.record s a) := by
  constructor
  · exact hs.shown_step hw hok h
  · intro message hr
    rcases mem_record hr with ⟨hold, hn⟩ | ⟨hg, hnew⟩
    · exact failed_record hn (hs.caused message hold)
    · have hf := failure_of_replyOf hnew h
      have hn : ¬ ∃ t, a = .beginStart t ∧ s.tunStarting = false ∧ s.tunEngine = none := by
        rintro ⟨t, rfl, -⟩
        cases hnew
      exact failed_record hn (hs.shown (Or.inl hg) hf)

end Blamed

theorem watchKept_of_steady {p : State ι κ × StatusHistory ι}
    (h : (statusHistories ι κ).ReachUnder Steady p) :
    WatchKept p.1 p.2 ∧ RepliesKept p.1 p.2 ∧ Blamed p.1 p.2 := by
  apply h.invariant (I := fun p => WatchKept p.1 p.2 ∧ RepliesKept p.1 p.2 ∧ Blamed p.1 p.2)
  · rintro ⟨s, g⟩ ⟨hs, hg⟩
    dsimp only at hs hg
    subst hs hg
    refine ⟨?_, RepliesKept.nil rfl, ?_⟩
    · exact {
        hosted := hosted_initial
        flag := ⟨True, flagAccount_initial⟩
        published := fun t ht => by cases ht
        results := fun e r hr => by cases hr
        outcomes := fun t r hr => by cases hr
        covered := fun ha => by
          rcases ha with ha | ⟨t, ht, -⟩
          · cases ha
          · cases ht
        succeeded := fun _ t ht => by cases ht }
    · exact ⟨fun _ hf => absurd rfl hf, fun _ hr => by cases hr⟩
  · rintro ⟨s, g⟩ a ⟨u, g'⟩ _ ⟨hw, hr, hb⟩ hok hu
    obtain ⟨hstep, hg⟩ := System.observe_step.mp hu
    dsimp only at hstep hg
    rw [hg]
    exact ⟨hw.step hok hstep, hr.step hw hok hstep, hb.step hw hok hstep⟩

theorem neverPlain_of_steady {p : State ι κ × StatusHistory ι}
    (h : (statusHistories ι κ).ReachUnder Steady p) : NeverPlain p.1 p.2 := by
  obtain ⟨hw, hr, hb⟩ := watchKept_of_steady h
  constructor
  · exact hr.notStopped
  · exact hr.ordered
  · exact hb.caused
  · intro hwatch hclear he hrep hmon
    rcases hw.covered (Or.inl hwatch) with hset | hf | he' | ⟨t, ht⟩ | ⟨t, ht⟩
    · rw [hclear] at hset
      cases hset
    · exact hf
    · exact absurd he he'
    · exact absurd ht (hrep t)
    · exact absurd ht.empties (hmon t)

instance (r : EngineResult) : Decidable (∃ message, r = .error message) :=
  match r with
  | .error message => isTrue ⟨message, rfl⟩
  | .ok _ => isFalse (by simp)

instance (a : Action ι κ) : Decidable (ErrorsOnly a) := by
  rcases a with ⟨⟩
  all_goals
    unfold ErrorsOnly
    infer_instance

instance [Fintype ι] (s : State ι κ) (g : StatusHistory ι) : Decidable (Armed s g) := by
  unfold Armed
  infer_instance

instance [Fintype ι] (p : State ι κ × StatusHistory ι) (a : Action ι κ) :
    Decidable (Steady p a) := by
  rcases a with ⟨⟩
  all_goals
    unfold Steady
    infer_instance

/-- A start that returns and cannot convert its configuration. -/
private def failActions : List (Action Unit Unit) :=
  [.beginStart (), .writeStarting () true, .spawnWorker () true, .startReturns (), .workerLock (),
    .checkEngine (), .snapshotNetwork () true, .decodeConfig () false, .clearStarting ()]

theorem neverPlain_failed : ∃ p : State Unit Unit × StatusHistory Unit,
    p.2.replies = [.failed "decode"] ∧ NeverPlain p.1 p.2 := by
  have h0 : (statusHistories Unit Unit).ReachUnder Steady
      (initial, StatusHistory.empty) := .init ⟨rfl, rfl⟩
  have h1 := h0.run failActions (by decide) rfl
  have h2 := h1.run [.reportFailure () "decode", .queryStarting (), .queryFailure ()]
    (by decide) rfl
  exact ⟨_, rfl, neverPlain_of_steady h2⟩

/-- The worker clears `tun_starting` before it reports its failure. -/
theorem failure_seen_as_stop : ¬ ∀ p : State Unit Unit × StatusHistory Unit,
    (statusHistories Unit Unit).ReachUnder (fun _ a => ErrorsOnly a) p → NeverPlain p.1 p.2 := by
  intro hall
  have h0 : (statusHistories Unit Unit).ReachUnder (fun _ a => ErrorsOnly a)
      (initial, StatusHistory.empty) := .init ⟨rfl, rfl⟩
  have h1 := h0.run failActions (by decide) rfl
  have h2 := h1.run [.queryStarting (), .queryFailure (), .queryEngine ()] (by decide) rfl
  exact (hall _ h2).notStopped (by decide)

end NulConnect.Macos
