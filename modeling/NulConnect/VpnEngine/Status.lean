import NulConnect.VpnEngine.FirstFailure

/-! What `status` answers beside `cancel`, `stop` and `take_result` on one engine: the slot that it
reads is filled by a worker, emptied by `take_result` and left alone by `cancel` and `stop`. -/
namespace NulConnect.VpnEngine
open Net Transition

/-- Where a call of `cancel` or of `stop` is: before `close` is stored, before the handles of the
workers are taken, and waiting for the workers. -/
inductive StopCall where
  | idle
  | cancel (joins : Bool)
  | joinWorkers
  | wait
deriving DecidableEq

structure Used (κ : Type*) where
  owned : Owned κ
  stopping : κ → StopCall

def Used.initial {κ : Type*} : Used κ where
  owned := .initial
  stopping _ := .idle

inductive UsedAction (κ : Type*) where
  | owned (a : OwnedAction κ)
  /-- `cancel` or `stop` is called. -/
  | call (k : κ) (joins : Bool)
  | cancel (k : κ)
  | joinWorkers (k : κ)
  | wait (k : κ)

section Steps

variable {κ : Type*} [DecidableEq κ]

/-- A step of a worker or of a call. `cancel` stores `close`; `stop` then joins the workers. -/
def usedStep (c : WorkerConfig) (s : Used κ) : UsedAction κ → Option (Used κ)
  | .owned a => (ownedStep c s.owned a).map fun owned => { s with owned := owned }
  | .call k joins =>
    match s.stopping k with
    | .idle => some { s with stopping := Function.update s.stopping k (.cancel joins) }
    | _ => none
  | .cancel k =>
    match s.stopping k with
    | .cancel joins => some { s with
        owned.engine.shared.close := true
        stopping := Function.update s.stopping k (if joins then .joinWorkers else .idle) }
    | _ => none
  | .joinWorkers k =>
    match s.stopping k with
    | .joinWorkers =>
      if s.owned.handles then some { s with
        owned.handles := false
        stopping := Function.update s.stopping k .wait }
      else some { s with stopping := Function.update s.stopping k .idle }
    | _ => none
  | .wait k =>
    match s.stopping k with
    | .wait => when s.owned.engine.Ended { s with
        stopping := Function.update s.stopping k .idle }
    | _ => none

end Steps

inductive EngineEvent where
  /-- A worker publishes its failure. -/
  | failed
  /-- `cancel` or `stop` is called. -/
  | called
  /-- `take_result` takes a value out of the slot. -/
  | took
  | answered (status : VpnEngineStatus)
  | stopReturned
  /-- `take_result` returns `Some`. -/
  | takeReturned
deriving DecidableEq

def Used.event {κ : Type*} (s : Used κ) : UsedAction κ → Option EngineEvent
  | .owned (.worker a) => (publication s.owned.engine a).map fun _ => .failed
  | .owned (.status _) => some (.answered s.owned.status)
  | .owned (.take _) => s.owned.engine.shared.result.map fun _ => .took
  -- `take_result` calls `cancel` itself
  | .owned (.cancel _) => some .called
  | .owned a => (s.owned.returns a).map fun _ => .takeReturned
  | .call _ _ => some .called
  | .cancel _ => none
  | .joinWorkers _ => if s.owned.handles then none else some .stopReturned
  | .wait _ => some .stopReturned

/-- The runs of an engine with their events, the last one first. -/
def engineEvents (κ : Type*) [DecidableEq κ] (c : WorkerConfig) :
    System (Used κ × List EngineEvent) (UsedAction κ) :=
  System.observe { init := fun s => s = Used.initial, step := usedStep c } []
    fun events s a => (s.event a).toList ++ events

def EngineEvent.Ends (e : EngineEvent) : Prop :=
  e = .answered .stopped ∨ e = .stopReturned ∨ e = .takeReturned

/-- Once it has ended, the engine is `Stopped` in every later answer; and it is `Running` only where
no failure has been published and neither `cancel` nor `stop` has been called. -/
structure StaysStopped (events : List EngineEvent) : Prop where
  ended : ∀ status before, .answered status :: before <:+ events →
    ∀ e earlier, e :: earlier <:+ before → e.Ends → status = .stopped
  running : ∀ earlier, .answered .running :: earlier <:+ events →
    .failed ∉ earlier ∧ .called ∉ earlier

def failedSinceTaken : List EngineEvent → Bool
  | [] => false
  | .failed :: _ => true
  | .took :: _ => false
  | _ :: earlier => failedSinceTaken earlier

/-- Every call of `status` comes while no value has been taken and neither `cancel` nor `stop` has
been called, or while a failure has been published since. -/
def StatusInTime (events : List EngineEvent) : Prop :=
  ∀ status earlier, .answered status :: earlier <:+ events →
    failedSinceTaken earlier ∨ .took ∉ earlier ∧ .called ∉ earlier

section Coherent

variable {events earlier : List EngineEvent}

theorem failed_of_failedSinceTaken (h : failedSinceTaken events) : .failed ∈ events := by
  induction events with
  | nil => simp [failedSinceTaken] at h
  | cons e earlier ih =>
    cases e with
    | failed => exact List.mem_cons_self
    | took => simp [failedSinceTaken] at h
    | called | answered | stopReturned | takeReturned => exact List.mem_cons_of_mem _ (ih h)

theorem failedSinceTaken_of_failed (hfailed : .failed ∈ events) (htook : .took ∉ events) :
    failedSinceTaken events := by
  induction events with
  | nil => cases hfailed
  | cons e earlier ih =>
    have hearlier : .took ∉ earlier := fun h => htook (List.mem_cons_of_mem _ h)
    cases e with
    | failed => rfl
    | took => exact absurd List.mem_cons_self htook
    | called | answered | stopReturned | takeReturned =>
      have hmem : .failed ∈ earlier := by simpa using hfailed
      exact ih hmem hearlier

/-- What must have come before an event. -/
def EngineEvent.Follows (earlier : List EngineEvent) : EngineEvent → Prop
  | .failed | .called => True
  | .took => failedSinceTaken earlier
  | .answered status => status = .stopped ↔ failedSinceTaken earlier
  | .stopReturned => .called ∈ earlier
  | .takeReturned => .took ∈ earlier

def Coherent : List EngineEvent → Prop
  | [] => True
  | e :: earlier => e.Follows earlier ∧ Coherent earlier

theorem Coherent.suffix (h : Coherent events) (hsuffix : earlier <:+ events) :
    Coherent earlier := by
  induction events with
  | nil =>
    have hnil : earlier = [] := List.suffix_nil.mp hsuffix
    rw [hnil]
    trivial
  | cons e rest ih =>
    cases List.suffix_cons_iff.mp hsuffix with
    | inl heq => rw [heq]; exact h
    | inr hrest => exact ih h.2 hrest

theorem Coherent.failed_of_took (h : Coherent events) (htook : .took ∈ events) :
    .failed ∈ events := by
  obtain ⟨later, earlier, hsplit⟩ := List.append_of_mem htook
  have hsuffix : .took :: earlier <:+ events := ⟨later, hsplit.symm⟩
  have hfailed : .failed ∈ earlier := failed_of_failedSinceTaken (h.suffix hsuffix).1
  exact hsuffix.subset (List.mem_cons_of_mem _ hfailed)

/-- Where the engine has ended, a failure has been published or it was told to stop. -/
theorem Coherent.failed_or_called_of_ends {e : EngineEvent} (h : Coherent (e :: earlier))
    (hends : e.Ends) : .failed ∈ earlier ∨ .called ∈ earlier := by
  rcases hends with rfl | rfl | rfl
  · have hstopped : VpnEngineStatus.stopped = .stopped ↔ failedSinceTaken earlier := h.1
    exact Or.inl (failed_of_failedSinceTaken (hstopped.mp rfl))
  · exact Or.inr h.1
  · exact Or.inl (h.2.failed_of_took h.1)

theorem Coherent.staysStopped_iff (h : Coherent events) :
    StaysStopped events ↔ StatusInTime events := by
  constructor
  · intro hstays status earlier hsuffix
    have hanswer : status = .stopped ↔ failedSinceTaken earlier := (h.suffix hsuffix).1
    cases status with
    | stopped => exact Or.inl (hanswer.mp rfl)
    | running =>
      have hnone := hstays.running earlier hsuffix
      have htook : .took ∉ earlier := fun ht => hnone.1 ((h.suffix hsuffix).2.failed_of_took ht)
      exact Or.inr ⟨htook, hnone.2⟩
  · intro hinTime
    have hrunning : ∀ earlier, .answered .running :: earlier <:+ events →
        .failed ∉ earlier ∧ .called ∉ earlier := by
      intro earlier hsuffix
      have hanswer : VpnEngineStatus.running = .stopped ↔ failedSinceTaken earlier :=
        (h.suffix hsuffix).1
      have hnot : ¬ failedSinceTaken earlier := fun hf => by cases hanswer.mpr hf
      cases hinTime .running earlier hsuffix with
      | inl hf => exact absurd hf hnot
      | inr hquiet =>
        exact ⟨fun hf => hnot (failedSinceTaken_of_failed hf hquiet.1), hquiet.2⟩
    constructor
    · intro status before hsuffix e earlier hbefore hends
      cases status with
      | stopped => rfl
      | running =>
        have hnone := hrunning before hsuffix
        have hcoherent : Coherent (e :: earlier) := (h.suffix hsuffix).2.suffix hbefore
        have hsub : earlier ⊆ before := fun x hx => hbefore.subset (List.mem_cons_of_mem e hx)
        cases hcoherent.failed_or_called_of_ends hends with
        | inl hf => exact absurd (hsub hf) hnone.1
        | inr hc => exact absurd (hsub hc) hnone.2
    · exact hrunning

end Coherent

section Runs

variable {κ : Type*} {c : WorkerConfig} {s t : Used κ} {events : List EngineEvent}

/-- How the events stand to the state: the slot holds a failure that was published since a value
was last taken, and every call under way has left its event. -/
structure Told (s : Used κ) (events : List EngineEvent) : Prop where
  coherent : Coherent events
  slot : s.owned.engine.shared.result.isSome = failedSinceTaken events
  stopping : ∀ k, s.stopping k ≠ .idle → .called ∈ events
  taking : ∀ k, (s.owned.call k).value ≠ none → .took ∈ events

/-- A step that leaves the slot alone and tells nothing new. -/
theorem Told.unchanged (h : Told s events)
    (hslot : t.owned.engine.shared.result = s.owned.engine.shared.result)
    (hstopping : ∀ k, t.stopping k ≠ .idle → s.stopping k ≠ .idle)
    (htaking : ∀ k, (t.owned.call k).value ≠ none → (s.owned.call k).value ≠ none) :
    Told t events where
  coherent := h.coherent
  slot := by rw [hslot, h.slot]
  stopping k hk := h.stopping k (hstopping k hk)
  taking k hk := h.taking k (htaking k hk)

/-- A step that tells of an event that is neither a failure nor a take, and leaves the slot
alone. -/
theorem Told.tell (h : Told s events) {e : EngineEvent} (hfollows : e.Follows events)
    (hfailed : e ≠ .failed) (htook : e ≠ .took) : Told s (e :: events) where
  coherent := ⟨hfollows, h.coherent⟩
  slot := by
    rw [h.slot]
    cases e with
    | failed => exact absurd rfl hfailed
    | took => exact absurd rfl htook
    | called | answered | stopReturned | takeReturned => rfl
  stopping k hk := List.mem_cons_of_mem _ (h.stopping k hk)
  taking k hk := List.mem_cons_of_mem _ (h.taking k hk)

variable [DecidableEq κ]

theorem value_update_of_ne {call : κ → Call} {k j : κ} {next : Call}
    (hvalue : next.value ≠ none → (call k).value ≠ none)
    (h : (Function.update call k next j).value ≠ none) : (call j).value ≠ none := by
  by_cases hj : j = k
  · subst hj
    rw [Function.update_self] at h
    exact hvalue h
  · rwa [Function.update_of_ne hj] at h

theorem stopping_update_of_ne {stopping : κ → StopCall} {k j : κ} {next : StopCall}
    (hidle : stopping k ≠ .idle) (h : Function.update stopping k next j ≠ .idle) :
    stopping j ≠ .idle := by
  by_cases hj : j = k
  · rwa [hj]
  · rwa [Function.update_of_ne hj] at h

omit [DecidableEq κ] in
theorem Told.worker (h : Told s events) {a : Action} {engine : Engine}
    (hengine : workerStep c s.owned.engine a = some engine) :
    Told { s with owned.engine := engine } ((s.event (.owned (.worker a))).toList ++ events) := by
  have hresult := (workerStep_publishes hengine).result
  cases hp : publication s.owned.engine a with
  | none =>
    rw [hp, Option.map_none, Option.or_none] at hresult
    simp only [Used.event, hp, Option.map_none, Option.toList_none, List.nil_append]
    exact h.unchanged hresult (fun _ hk => hk) (fun _ hk => hk)
  | some err =>
    rw [hp, Option.map_some] at hresult
    simp only [Used.event, hp, Option.map_some, Option.toList_some, List.singleton_append]
    exact {
      coherent := ⟨trivial, h.coherent⟩
      slot := by
        show engine.shared.result.isSome = true
        rw [hresult, Option.isSome_or, Option.isSome_some, Bool.or_true]
      stopping := fun k hk => List.mem_cons_of_mem _ (h.stopping k hk)
      taking := fun k hk => List.mem_cons_of_mem _ (h.taking k hk) }

theorem Told.take (h : Told s events) {k : κ} {owned : Owned κ}
    (howned : ownedStep c s.owned (.take k) = some owned) :
    Told { s with owned := owned } ((s.event (.owned (.take k))).toList ++ events) := by
  cases hcall : s.owned.call k with
  | cancel | joinWorkers | wait => simp [ownedStep, hcall] at howned
  | idle =>
    cases hv : s.owned.engine.shared.result with
    | none =>
      simp only [ownedStep, hcall, hv, Option.some.injEq] at howned
      subst howned
      simpa only [Used.event, hv, Option.map_none, Option.toList_none, List.nil_append] using h
    | some v =>
      simp only [ownedStep, hcall, hv, Option.some.injEq] at howned
      subst howned
      have hslot : failedSinceTaken events := by rw [← h.slot, hv]; rfl
      simp only [Used.event, hv, Option.map_some, Option.toList_some, List.singleton_append]
      exact {
        coherent := ⟨hslot, h.coherent⟩
        slot := rfl
        stopping := fun j hj => List.mem_cons_of_mem _ (h.stopping j hj)
        taking := fun _ _ => List.mem_cons_self }

theorem Told.goesOn (h : Told s events) {k : κ} (hvalue : (s.owned.call k).value ≠ none)
    (next : Call) (close handles : Bool) :
    Told { s with
      owned.engine.shared.close := close
      owned.handles := handles
      owned.call := Function.update s.owned.call k next } events :=
  h.unchanged rfl (fun _ hk => hk) fun _ hk => value_update_of_ne (fun _ => hvalue) hk

theorem Told.owned (h : Told s events) {a : OwnedAction κ} {owned : Owned κ}
    (howned : ownedStep c s.owned a = some owned) :
    Told { s with owned := owned } ((s.event (.owned a)).toList ++ events) := by
  cases a with
  | worker a =>
    obtain ⟨engine, hengine, rfl⟩ := Option.map_eq_some_iff.mp howned
    exact h.worker hengine
  | status k =>
    have hsame : s.owned = owned := Option.some.inj howned
    subst hsame
    refine h.tell ?_ (by simp) (by simp)
    show s.owned.status = .stopped ↔ failedSinceTaken events
    rw [← h.slot, Owned.status]
    cases s.owned.engine.shared.result <;> simp
  | take k => exact h.take howned
  | cancel k =>
    cases hcall : s.owned.call k with
    | idle | joinWorkers | wait => simp [ownedStep, hcall] at howned
    | cancel v =>
      simp only [ownedStep, hcall, Option.some.injEq] at howned
      subst howned
      have hvalue : (s.owned.call k).value ≠ none := by simp [hcall, Call.value]
      have hgoes := h.goesOn hvalue (.joinWorkers v) true s.owned.handles
      exact hgoes.tell trivial (by simp) (by simp)
  | joinWorkers k =>
    cases hcall : s.owned.call k with
    | idle | cancel | wait => simp [ownedStep, hcall] at howned
    | joinWorkers v =>
      have hvalue : (s.owned.call k).value ≠ none := by simp [hcall, Call.value]
      by_cases hhandles : s.owned.handles
      · simp only [ownedStep, hcall, if_pos hhandles, Option.some.injEq] at howned
        subst howned
        simp only [Used.event, Owned.returns, hcall, if_pos hhandles, Option.map_none,
          Option.toList_none, List.nil_append]
        exact h.goesOn hvalue (.wait v) s.owned.engine.shared.close false
      · simp only [ownedStep, hcall, if_neg hhandles, Option.some.injEq] at howned
        subst howned
        simp only [Used.event, Owned.returns, hcall, if_neg hhandles, Option.map_some,
          Option.toList_some, List.singleton_append]
        have hgoes := h.goesOn hvalue .idle s.owned.engine.shared.close s.owned.handles
        exact hgoes.tell (h.taking k hvalue) (by simp) (by simp)
  | wait k =>
    cases hcall : s.owned.call k with
    | idle | cancel | joinWorkers => simp [ownedStep, hcall] at howned
    | wait v =>
      have hvalue : (s.owned.call k).value ≠ none := by simp [hcall, Call.value]
      simp only [ownedStep, hcall, when_eq_some] at howned
      obtain ⟨-, rfl⟩ := howned
      simp only [Used.event, Owned.returns, hcall, Option.map_some, Option.toList_some,
        List.singleton_append]
      have hgoes := h.goesOn hvalue .idle s.owned.engine.shared.close s.owned.handles
      exact hgoes.tell (h.taking k hvalue) (by simp) (by simp)

theorem Told.stops (h : Told s events) {k : κ} (hidle : s.stopping k ≠ .idle) (next : StopCall)
    (close handles : Bool) :
    Told { s with
      owned.engine.shared.close := close
      owned.handles := handles
      stopping := Function.update s.stopping k next } events :=
  h.unchanged rfl (fun _ hk => stopping_update_of_ne hidle hk) (fun _ hk => hk)

theorem Told.step (h : Told s events) {a : UsedAction κ} (hstep : usedStep c s a = some t) :
    Told t ((s.event a).toList ++ events) := by
  cases a with
  | owned a =>
    obtain ⟨owned, howned, rfl⟩ := Option.map_eq_some_iff.mp hstep
    exact h.owned howned
  | call k joins =>
    cases hk : s.stopping k with
    | cancel | joinWorkers | wait => simp [usedStep, hk] at hstep
    | idle =>
      simp only [usedStep, hk, Option.some.injEq] at hstep
      subst hstep
      have htold : Told s (.called :: events) := h.tell trivial (by simp) (by simp)
      exact {
        coherent := htold.coherent
        slot := htold.slot
        stopping := fun _ _ => List.mem_cons_self
        taking := htold.taking }
  | cancel k =>
    cases hk : s.stopping k with
    | idle | joinWorkers | wait => simp [usedStep, hk] at hstep
    | cancel joins =>
      simp only [usedStep, hk, Option.some.injEq] at hstep
      subst hstep
      exact h.stops (by simp [hk]) _ true s.owned.handles
  | joinWorkers k =>
    cases hk : s.stopping k with
    | idle | cancel | wait => simp [usedStep, hk] at hstep
    | joinWorkers =>
      have hidle : s.stopping k ≠ .idle := by simp [hk]
      by_cases hhandles : s.owned.handles
      · simp only [usedStep, hk, if_pos hhandles, Option.some.injEq] at hstep
        subst hstep
        simp only [Used.event, if_pos hhandles, Option.toList_none, List.nil_append]
        exact h.stops hidle .wait s.owned.engine.shared.close false
      · simp only [usedStep, hk, if_neg hhandles, Option.some.injEq] at hstep
        subst hstep
        simp only [Used.event, if_neg hhandles, Option.toList_some, List.singleton_append]
        have hstops := h.stops hidle .idle s.owned.engine.shared.close s.owned.handles
        exact hstops.tell (h.stopping k hidle) (by simp) (by simp)
  | wait k =>
    cases hk : s.stopping k with
    | idle | cancel | joinWorkers => simp [usedStep, hk] at hstep
    | wait =>
      have hidle : s.stopping k ≠ .idle := by simp [hk]
      simp only [usedStep, hk, when_eq_some] at hstep
      obtain ⟨-, rfl⟩ := hstep
      have hstops := h.stops hidle .idle s.owned.engine.shared.close s.owned.handles
      exact hstops.tell (h.stopping k hidle) (by simp) (by simp)

theorem told_of_reachable {p : Used κ × List EngineEvent}
    (h : (engineEvents κ c).Reachable p) : Told p.1 p.2 := by
  apply h.invariant (I := fun q => Told q.1 q.2)
  · intro q hq
    have hs : q.1 = .initial := hq.1
    have hevents : q.2 = [] := hq.2
    rw [hs, hevents]
    exact {
      coherent := trivial
      slot := rfl
      stopping := fun _ hk => absurd rfl hk
      taking := fun _ hk => absurd rfl hk }
  · intro q a q' _ hq _ hstep
    have hobserved := System.observe_step.mp hstep
    rw [hobserved.2]
    exact hq.step hobserved.1

/-- Whatever the order of the workers and the calls. -/
theorem staysStopped_iff_inTime (h : (engineEvents κ c).Reachable (s, events)) :
    StaysStopped events ↔ StatusInTime events :=
  (told_of_reachable h).coherent.staysStopped_iff

/-- The downlink worker fails; whoever sees it stops the engine, and asks again. -/
theorem staysStopped_failed : ∃ events : List EngineEvent,
    events = [.answered .stopped, .stopReturned, .called, .answered .stopped, .failed] ∧
      (StaysStopped events ↔ StatusInTime events) := by
  have h0 : (engineEvents Unit
      { packetInformation := false, exitOnFatalError := true }).Reachable (.initial, []) :=
    .init ⟨rfl, rfl⟩
  have hstops : ∃ s, (engineEvents Unit
      { packetInformation := false, exitOnFatalError := true }).Reachable
      (s, [.answered .stopped, .stopReturned, .called, .answered .stopped, .failed]) :=
    ⟨_, h0.run [.owned (.worker .downlink),
      .owned (.worker (.downlinkPacket (.error (.internal [])) (.ok ()))),
      .owned (.worker .downlink), .owned (.worker .downlink), .owned (.worker .downlink),
      .owned (.status ()), .call () true, .cancel (), .joinWorkers (), .owned (.worker .uplink),
      .owned (.worker .uplink), .wait (), .owned (.status ())] rfl⟩
  obtain ⟨s, hs⟩ := hstops
  exact ⟨_, rfl, staysStopped_iff_inTime hs⟩

/-- `cancel`, and then `status`. -/
theorem runs_on_when_cancelled : ¬ ∀ (c : WorkerConfig) (s : Used Unit)
    (events : List EngineEvent), (engineEvents Unit c).Reachable (s, events) →
      StaysStopped events := by
  intro hall
  have h0 : (engineEvents Unit
      { packetInformation := false, exitOnFatalError := true }).Reachable (.initial, []) :=
    .init ⟨rfl, rfl⟩
  have hcancelled := h0.run [.call () false, .cancel (), .owned (.status ())] rfl
  have hstays := hall _ _ _ hcancelled
  have hnone := hstays.running [.called] (List.suffix_refl _)
  exact hnone.2 List.mem_cons_self

end Runs

end NulConnect.VpnEngine
