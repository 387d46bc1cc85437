import NulConnect.Macos.Steps

/-! The flag `tun_starting`: who sets it, who clears it, and the starts that leave it set. -/
namespace NulConnect.Macos
open Transition

/-- The `start_tun` call has set the flag and not yet returned, or its worker thread exists and has
not yet cleared it. -/
@[simp] def StartPhase.inProgress : StartPhase → Bool
  | .accepted | .written | .queued | .locked | .snapshotting | .decoding | .starting | .started
  | .routing | .probing | .publishing | .published | .aborting | .failing | .succeeded => true
  | _ => false

/-- The flag was set for this start and nothing has cleared it since. -/
@[simp] def StartPhase.flagged (p : StartPhase) : Bool := p.inProgress || p == .rejected

variable {ι κ : Type*} [DecidableEq ι] [DecidableEq κ] {s u : State ι κ} {a : Action ι κ}

/-- The flag is set only while a start is in progress, so that once none is, the next one is
accepted. -/
structure FlagReleased (s : State ι κ) : Prop where
  held : s.tunStarting → ∃ t, (s.start t).inProgress
  later : (∀ t, ¬ (s.start t).inProgress) → s.tunEngine = none → ∀ t, s.start t = .idle →
    ∃ u, step s (.beginStart t) = some u ∧ u.start t = .accepted

/-- `start_tun` can write its state and spawn its worker. -/
def Spawns : Action ι κ → Prop
  | .writeStarting _ ok | .spawnWorker _ ok => ok = true
  | _ => True

instance (a : Action ι κ) : Decidable (Spawns a) := by
  rcases a with ⟨⟩
  all_goals
    unfold Spawns
    infer_instance

/-- What a step may do to a start whose flag it neither sets nor clears. -/
def FlagEdge (a : Action ι κ) (_ : ι) (p q : StartPhase) : Prop :=
  q.flagged = p.flagged ∧ (q = .rejected ↔ ¬ Spawns a)

/-- What a step does to the flag. -/
inductive FlagStep (s u : State ι κ) (a : Action ι κ) : Prop where
  | keeps (hf : u.tunStarting = s.tunStarting)
      (h : ∀ t, u.start t = s.start t ∨ FlagEdge a t (s.start t) (u.start t))
      (hr : ¬ Spawns a → ∃ t, u.start t = .rejected)
  | sets (t : ι) (hf : s.tunStarting = false) (he : s.tunEngine = none)
      (hf' : u.tunStarting = true) (hok : Spawns a)
      (h : u.start = Function.update s.start t .accepted)
  | clears (t : ι) (hs : (s.start t).inProgress) (hf' : u.tunStarting = false) (hok : Spawns a)
      (hu : (u.start t).flagged = false) (h : ∀ t' ≠ t, u.start t' = s.start t')

theorem flag_of_step (h : step s a = some u) : FlagStep s u a := by
  cases a with
  | beginStart m =>
    obtain ⟨hp, rfl⟩ := when_eq_some.mp h
    split_ifs with hbusy
    · exact .keeps rfl
        (update_moved (R := FlagEdge (.beginStart m)) (by simp [FlagEdge, Spawns, hp]))
        fun hn => absurd trivial hn
    · push Not at hbusy
      exact .sets m (by simpa using hbusy.1) hbusy.2 rfl trivial rfl
  | clearStarting m =>
    obtain ⟨hp, rfl⟩ := when_eq_some.mp h
    refine .clears m ?_ rfl trivial ?_ fun t ht => ?_
    · obtain hp | hp := hp
      all_goals simp [hp]
    · obtain hp | hp := hp
      all_goals simp [hp]
    · simp [ht]
  | writeStarting m ok | spawnWorker m ok =>
    obtain ⟨hp, rfl⟩ := when_eq_some.mp h
    cases ok
    · refine .keeps rfl (update_moved (R := FlagEdge _) ?_) fun _ => ⟨m, by simp⟩
      simp [FlagEdge, Spawns, hp]
    · refine .keeps rfl (update_moved (R := FlagEdge _) ?_) fun hn => absurd rfl hn
      simp [FlagEdge, Spawns, hp]
  | snapshotNetwork m ok | decodeConfig m ok | engineStart m ok | interfaceName m ok
  | setupRoutes m ok | waitSetup m ok | writeRunning m ok =>
    obtain ⟨hp, rfl⟩ := when_eq_some.mp h
    cases ok
    all_goals
      refine .keeps rfl (update_moved (R := FlagEdge _) ?_) fun hn => absurd trivial hn
      simp [FlagEdge, Spawns, hp]
  | workerLock m | workerStopped m =>
    obtain ⟨⟨hp, -⟩, rfl⟩ := when_eq_some.mp h
    refine .keeps rfl (update_moved (R := FlagEdge _) ?_) fun hn => absurd trivial hn
    simp [FlagEdge, Spawns, hp]
  | checkEngine m =>
    obtain ⟨hp, rfl⟩ := when_eq_some.mp h
    split_ifs
    all_goals
      refine .keeps rfl (update_moved (R := FlagEdge _) ?_) fun hn => absurd trivial hn
      simp [FlagEdge, Spawns, hp]
  | abort m | publish m | reportFailure m | spawnMonitor m | monitorNotSpawned m =>
    obtain ⟨hp, rfl⟩ := when_eq_some.mp h
    refine .keeps rfl (update_moved (R := FlagEdge _) ?_) fun hn => absurd trivial hn
    simp [FlagEdge, Spawns, hp]
  | monitorTake m =>
    obtain ⟨-, rfl⟩ := when_eq_some.mp h
    cases s.tunEngine
    all_goals exact .keeps rfl (fun _ => .inl rfl) fun hn => absurd trivial hn
  | monitorTakeResult m | monitorStop m | stopEngine c =>
    simp only [step] at h
    split at h
    · obtain rfl := Option.some.inj h
      exact .keeps rfl (fun _ => .inl rfl) fun hn => absurd trivial hn
    · cases h
  | startReturns | engineEnds | monitorCheck | monitorLock | monitorReport | stopRequest | stopLock
  | stopClearFailure | stopTake | stopWrite | queryStarting | queryFailure | queryEngine =>
    obtain ⟨-, rfl⟩ := when_eq_some.mp h
    exact .keeps rfl (fun _ => .inl rfl) fun hn => absurd trivial hn

/-- At most one start is flagged, the flag is set exactly while one is, and all steps so far could
write and spawn exactly where no start was rejected. -/
structure FlagAccount (s : State ι κ) (o : Prop) : Prop where
  alone : ∀ t t', (s.start t).flagged → (s.start t').flagged → t = t'
  flag : s.tunStarting = true ↔ ∃ t, (s.start t).flagged
  spared : o ↔ ∀ t, s.start t ≠ .rejected

omit [DecidableEq ι] [DecidableEq κ] in
theorem flagAccount_initial : FlagAccount (initial : State ι κ) True where
  alone := by simp [initial]
  flag := by simp [initial]
  spared := by simp [initial]

namespace FlagAccount

variable {o : Prop}

omit [DecidableEq ι] [DecidableEq κ] in
theorem not_flagged (hs : FlagAccount s o) (h : s.tunStarting = false) (t : ι) :
    (s.start t).flagged = false := by
  by_contra ht
  have hset := hs.flag.mpr ⟨t, (Bool.not_eq_false _).mp ht⟩
  rw [h] at hset
  cases hset

theorem step (hs : FlagAccount s o) (h : Macos.step s a = some u) :
    FlagAccount u (o ∧ Spawns a) := by
  cases flag_of_step h with
  | keeps hf hedge hr =>
    have hflag : ∀ t, (u.start t).flagged = (s.start t).flagged := by
      intro t
      obtain ht | ht := hedge t
      · rw [ht]
      · exact ht.1
    refine ⟨fun t t' ht ht' => ?_, ?_, ?_⟩
    · rw [hflag] at ht ht'
      exact hs.alone t t' ht ht'
    · simp only [hf, hflag, hs.flag]
    · constructor
      · rintro ⟨ho, hok⟩ t ht
        obtain hst | hst := hedge t
        · exact hs.spared.mp ho t (hst ▸ ht)
        · exact hst.2.mp ht hok
      · intro hn
        constructor
        · refine hs.spared.mpr fun t ht => ?_
          obtain hst | hst := start_of_step h t
          · exact hn t (hst.trans ht)
          · rw [ht] at hst
            exact absurd hst List.not_mem_nil
        · by_contra hok
          obtain ⟨t, ht⟩ := hr hok
          exact hn t ht
  | sets m hf he hf' hok hstart =>
    have hnone := hs.not_flagged hf
    have hflag : ∀ t, (u.start t).flagged = true ↔ t = m := by
      intro t
      by_cases htm : t = m
      · subst m
        simp [hstart]
      · rw [hstart, Function.update_of_ne htm, hnone t]
        simp [htm]
    refine ⟨fun t t' ht ht' => ?_, ?_, ?_⟩
    · rw [(hflag t).mp ht, (hflag t').mp ht']
    · exact ⟨fun _ => ⟨m, (hflag m).mpr rfl⟩, fun _ => hf'⟩
    · rw [and_iff_left hok, hs.spared]
      refine forall_congr' fun t => ?_
      by_cases htm : t = m
      · subst m
        have hnot : s.start t ≠ .rejected := by
          intro ht
          have := hnone t
          simp [ht] at this
        simp [hstart, hnot]
      · rw [hstart, Function.update_of_ne htm]
  | clears m hm hf' hok hu hframe =>
    have hmf : (s.start m).flagged := by simp only [StartPhase.flagged, hm, Bool.true_or]
    have hnone : ∀ t, (u.start t).flagged = false := by
      intro t
      by_cases htm : t = m
      · rw [htm]
        exact hu
      · rw [hframe t htm]
        by_contra ht
        exact htm (hs.alone t m ((Bool.not_eq_false _).mp ht) hmf)
    refine ⟨fun t _ ht => ?_, ?_, ?_⟩
    · rw [hnone t] at ht
      cases ht
    · simp only [hf', hnone]
      simp
    · rw [and_iff_left hok, hs.spared]
      refine forall_congr' fun t => ?_
      by_cases htm : t = m
      · subst m
        have hsn : s.start t ≠ .rejected := by
          intro ht
          simp [ht] at hm
        have hun : u.start t ≠ .rejected := by
          intro ht
          simp [ht] at hu
        simp [hsn, hun]
      · rw [hframe t htm]

end FlagAccount

/-- The helper, and whether every write and every spawn of `start_tun` so far succeeded. -/
def spawning (ι κ : Type*) [DecidableEq ι] [DecidableEq κ] :
    System (State ι κ × Prop) (Action ι κ) :=
  (system ι κ).observe True fun o _ a => o ∧ Spawns a

variable {o : Prop}

theorem flagAccount_of_reachable (h : (spawning ι κ).Reachable (s, o)) : FlagAccount s o := by
  refine h.invariant (I := fun q => FlagAccount q.1 q.2) ?_ ?_
  · rintro ⟨s, o⟩ ⟨hs, ho⟩
    dsimp only at hs ho
    subst hs ho
    exact flagAccount_initial
  · rintro ⟨s, o⟩ a ⟨u, o'⟩ _ hs _ hu
    obtain ⟨hstep, ho⟩ := System.observe_step.mp hu
    dsimp only at hstep ho
    rw [ho]
    exact hs.step hstep

/-- The flag is always released exactly in the runs in which no write and no spawn of `start_tun`
has failed. -/
theorem flagReleased_iff_spawns (h : (spawning ι κ).Reachable (s, o)) : FlagReleased s ↔ o := by
  have hs := flagAccount_of_reachable h
  rw [hs.spared]
  constructor
  · intro hr t ht
    have hflagged : (s.start t).flagged := by simp [ht]
    obtain ⟨t', ht'⟩ := hr.held (hs.flag.mpr ⟨t, hflagged⟩)
    have hsame := hs.alone t t' hflagged (by simp only [StartPhase.flagged, ht', Bool.true_or])
    subst hsame
    simp [ht] at ht'
  · intro hn
    have hheld : s.tunStarting → ∃ t, (s.start t).inProgress := by
      intro hset
      obtain ⟨t, ht⟩ := hs.flag.mp hset
      exact ⟨t, by simpa [hn t] using ht⟩
    refine ⟨hheld, fun hidle hengine t ht => ?_⟩
    have hclear : ¬ (s.tunStarting ∨ s.tunEngine ≠ none) := by
      rintro (hset | hne)
      · obtain ⟨t', ht'⟩ := hheld hset
        exact hidle t' ht'
      · exact hne hengine
    refine ⟨_, when_eq_some.mpr ⟨ht, rfl⟩, ?_⟩
    rw [if_neg hclear]
    simp

/-- The start has been accepted and its engine has not been put in the slot. -/
@[simp] def StartPhase.unpublished : StartPhase → Bool
  | .accepted | .written | .queued | .locked | .snapshotting | .decoding | .starting | .started
  | .routing | .probing | .publishing | .aborting => true
  | _ => false

theorem StartPhase.unpublished_succ (p : StartPhase) :
    ∀ q ∈ p.succ, q.unpublished → p.unpublished ∨ p = .idle := by
  cases p <;> decide

theorem StartPhase.flagged_of_unpublished {p : StartPhase} (h : p.unpublished) : p.flagged := by
  cases p <;> simp_all

def SlotFree (s : State ι κ) : Prop := ∀ t, (s.start t).unpublished → s.tunEngine = none

theorem SlotFree.step (hs : SlotFree s) (hu : FlagAccount u o) (h : Macos.step s a = some u) :
    SlotFree u := by
  intro t ht
  have hflagged := StartPhase.flagged_of_unpublished ht
  by_contra hne
  obtain ⟨e, he⟩ := Option.ne_none_iff_exists'.mp hne
  obtain hold | rfl := engine_of_step h he
  · have hbusy : ¬ (s.start t).unpublished := fun hp => by simp [hs t hp] at hold
    obtain hst | hst := start_of_step h t
    · exact hbusy (hst ▸ ht)
    · have hidle := (StartPhase.unpublished_succ _ _ hst ht).resolve_left hbusy
      have hmoved : u.start t ≠ s.start t := by
        intro heq
        simp [heq, hidle] at ht
      cases flag_of_step h with
      | keeps _ hedge _ =>
        have hedge := (hedge t).resolve_left hmoved
        rw [hedge.1, hidle] at hflagged
        cases hflagged
      | sets m _ hempty _ _ _ =>
        simp [hempty] at hold
      | clears m _ _ _ hcleared hframe =>
        by_cases htm : t = m
        · rw [htm, hcleared] at hflagged
          cases hflagged
        · exact hmoved (hframe t htm)
  · obtain ⟨hp, rfl⟩ := when_eq_some.mp h
    have hsame := hu.alone t e hflagged (by simp)
    subst hsame
    simp at ht

theorem slotFree_of_reachable (h : (spawning ι κ).Reachable (s, o)) : SlotFree s := by
  refine h.invariant (I := fun q => SlotFree q.1) ?_ ?_
  · rintro ⟨s, o⟩ ⟨hs, -⟩ t ht
    dsimp only at hs ht
    subst hs
    cases ht
  · rintro ⟨s, o⟩ a ⟨u, o'⟩ hreach hs _ hu
    have hu' := flagAccount_of_reachable (hreach.step trivial hu)
    exact hs.step hu' (System.observe_step.mp hu).1

/-- A start whose worker waits for the lock holds the flag. -/
theorem flagReleased_queued : ∃ s : State Unit Unit, s.tunStarting ∧ FlagReleased s := by
  have h0 : (spawning Unit Unit).Reachable (initial, True) := .init ⟨rfl, rfl⟩
  have h1 := h0.step (a := Action.beginStart ()) trivial rfl
  have h2 := h1.step (a := Action.writeStarting () true) trivial rfl
  have h3 := h2.step (a := Action.spawnWorker () true) trivial rfl
  exact ⟨_, rfl, (flagReleased_iff_spawns h3).mpr ⟨⟨⟨trivial, trivial⟩, rfl⟩, rfl⟩⟩

/-- A start that cannot write its state returns and leaves the flag set. -/
theorem unwritten_start_blocks : ¬ ∀ s : State Bool Unit,
    (system Bool Unit).Reachable s → FlagReleased s := by
  intro hall
  have h0 : (system Bool Unit).Reachable initial := .init rfl
  have hr := h0.run [.beginStart false, .writeStarting false false] rfl
  obtain ⟨t, ht⟩ := (hall _ hr).held rfl
  revert ht
  cases t
  · decide
  · decide

end NulConnect.Macos
