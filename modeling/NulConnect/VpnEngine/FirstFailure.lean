import Mathlib.Logic.Function.Basic
import NulConnect.VpnEngine
import NulConnect.VpnEngine.Workers

/-! The result slot of the engine between its workers and the callers of `take_result`: the failure
that is reported is the one that was published first. -/
namespace NulConnect.VpnEngine
open Net Transition

abbrev SessionResult := Except AtrError ℕ

/-- Where a call of `take_result` is that has taken a value: before `close` is stored, before the
handles of the workers are taken, and waiting for the workers. -/
inductive Call where
  | idle
  | cancel (value : SessionResult)
  | joinWorkers (value : SessionResult)
  | wait (value : SessionResult)

structure Owned (κ : Type*) where
  engine : Engine
  handles : Bool
  call : κ → Call

def Owned.initial {κ : Type*} : Owned κ where
  engine := VpnEngine.initial
  handles := true
  call _ := .idle

inductive OwnedAction (κ : Type*) where
  | worker (a : Action)
  | status (k : κ)
  | take (k : κ)
  | cancel (k : κ)
  | joinWorkers (k : κ)
  | wait (k : κ)

def workerStep (c : WorkerConfig) (s : Engine) : Action → Option Engine
  | .cancel | .takeResult => none
  | a => step c s a

def Owned.status {κ : Type*} (s : Owned κ) : VpnEngineStatus :=
  if s.engine.shared.result.isSome then .stopped else .running

def Engine.Ended (s : Engine) : Prop := s.uplink = .done ∧ s.downlink = .done

instance Engine.decidableEnded (s : Engine) : Decidable s.Ended := by
  unfold Engine.Ended
  infer_instance

variable {κ : Type*}

def Call.value : Call → Option SessionResult
  | .idle => none
  | .cancel value | .joinWorkers value | .wait value => some value

def Worker.publishing {Retry : Type} : Worker Retry → Option AtrError
  | .setResult err => some err
  | _ => none

/-- The error of `set_result` in this step, whether the slot is empty or not. -/
def publication (s : Engine) : Action → Option AtrError
  | .uplink => s.uplink.publishing
  | .downlink => s.downlink.publishing
  | _ => none

/-- What has been published, taken and returned, the last one first; `alone`: no call has taken
a value while another one was still on its way. -/
structure FailureHistory where
  published : List AtrError
  taken : List SessionResult
  returned : List SessionResult
  alone : Prop

def FailureHistory.empty : FailureHistory where
  published := []
  taken := []
  returned := []
  alone := True

def Owned.returns (s : Owned κ) : OwnedAction κ → Option SessionResult
  | .joinWorkers k =>
    match s.call k with
    | .joinWorkers value => if s.handles then none else some value
    | _ => none
  | .wait k =>
    match s.call k with
    | .wait value => some value
    | _ => none
  | _ => none

def FailureHistory.record (g : FailureHistory) (s : Owned κ) (a : OwnedAction κ) :
    FailureHistory :=
  match a with
  | .worker a => { g with published := (publication s.engine a).toList ++ g.published }
  | .take _ =>
    match s.engine.shared.result with
    | none => g
    | some value => { g with
        taken := value :: g.taken
        alone := g.alone ∧ ∀ k, (s.call k).value = none }
  | _ => { g with returned := (s.returns a).toList ++ g.returned }

variable [DecidableEq κ] {c : WorkerConfig}

/-- A step of the workers or of a call of `status` or `take_result`. The other parts of `cancel`
wake the workers up, whose calls may fail at any time. -/
def ownedStep (c : WorkerConfig) (s : Owned κ) : OwnedAction κ → Option (Owned κ)
  | .worker a => (workerStep c s.engine a).map fun engine => { s with engine := engine }
  | .status _ => some s
  | .take k =>
    match s.call k with
    | .idle =>
      match s.engine.shared.result with
      | none => some s
      | some value => some { s with
          engine.shared.result := none
          call := Function.update s.call k (.cancel value) }
    | _ => none
  | .cancel k =>
    match s.call k with
    | .cancel value => some { s with
        engine.shared.close := true
        call := Function.update s.call k (.joinWorkers value) }
    | _ => none
  | .joinWorkers k =>
    match s.call k with
    | .joinWorkers value =>
      if s.handles then some { s with
        handles := false
        call := Function.update s.call k (.wait value) }
      else some { s with call := Function.update s.call k .idle }
    | _ => none
  | .wait k =>
    match s.call k with
    | .wait _ => when s.engine.Ended { s with call := Function.update s.call k .idle }
    | _ => none

def owned (κ : Type*) [DecidableEq κ] (c : WorkerConfig) : System (Owned κ) (OwnedAction κ) where
  init s := s = .initial
  step := ownedStep c

/-- The runs of workers and callers with what they have published, taken and returned. -/
def failureHistories (κ : Type*) [DecidableEq κ] (c : WorkerConfig) :
    System (Owned κ × FailureHistory) (OwnedAction κ) :=
  (owned κ c).observe .empty FailureHistory.record

/-- Before anything is taken, whoever finds the engine closed finds its error; no step puts
another value in the place of one; and the first call that takes a value takes the error that was
published first, as does the first one to return where calls do not overlap. -/
structure FirstReported (c : WorkerConfig) (s : Owned κ) (g : FailureHistory) : Prop where
  closed : g.taken = [] → s.engine.shared.close = true →
    ∃ err, s.engine.shared.result = some (.error err)
  unchanged : ∀ a t, ownedStep c s a = some t → ∀ value value',
    s.engine.shared.result = some value → t.engine.shared.result = some value' → value' = value
  taken : ∀ value, g.taken.getLast? = some value →
    ∃ err, g.published.getLast? = some err ∧ value = .error err
  returned : g.alone → ∀ value, g.returned.getLast? = some value →
    ∃ err, g.published.getLast? = some err ∧ value = .error err

section Workers

variable {Retry : Type} {s t : Shared} {w w' : Worker Retry} {onOpen : Retry → Option AtrError}
  {stopped : AtrError} {outcome : Outcome Retry}

theorem advance_publishes (h : advance onOpen stopped s w = some (t, w')) :
    t.result = s.result.or (w.publishing.map .error) ∧
      (t.close = true → s.close = true ∨ w = .storeClose) ∧
      (w' = .storeClose → w.publishing ≠ none) := by
  cases w with
  | condition =>
    obtain ⟨rfl, rfl⟩ := Prod.mk.inj (Option.some.inj h)
    refine ⟨Option.or_none.symm, Or.inl, ?_⟩
    split_ifs <;> simp
  | packet => cases h
  | unlessClosed retry =>
    by_cases hc : s.close
    · simp only [advance, if_pos hc] at h
      obtain ⟨rfl, rfl⟩ := Prod.mk.inj (Option.some.inj h)
      exact ⟨Option.or_none.symm, Or.inl, by simp⟩
    · cases ho : onOpen retry with
      | none | some err =>
        simp only [advance, if_neg hc, ho] at h
        obtain ⟨rfl, rfl⟩ := Prod.mk.inj (Option.some.inj h)
        exact ⟨Option.or_none.symm, Or.inl, by simp⟩
  | behind =>
    by_cases hc : s.close
    · simp only [advance, if_pos hc] at h
      obtain ⟨rfl, rfl⟩ := Prod.mk.inj (Option.some.inj h)
      exact ⟨Option.or_none.symm, Or.inl, by simp⟩
    · simp only [advance, if_neg hc] at h
      obtain ⟨rfl, rfl⟩ := Prod.mk.inj (Option.some.inj h)
      exact ⟨Option.or_none.symm, Or.inl, by simp⟩
  | setResult err =>
    obtain ⟨rfl, rfl⟩ := Prod.mk.inj (Option.some.inj h)
    exact ⟨rfl, Or.inl, fun _ => Option.some_ne_none err⟩
  | storeClose =>
    obtain ⟨rfl, rfl⟩ := Prod.mk.inj (Option.some.inj h)
    exact ⟨Option.or_none.symm, fun _ => Or.inr rfl, by simp⟩
  | done => cases h

theorem takeTurn_publishes (h : takeTurn s outcome w = some (t, w')) :
    t.result = s.result ∧ t.close = s.close ∧ w' ≠ .storeClose := by
  cases w with
  | packet =>
    cases outcome with
    | next | carried | unlessClosed | fail =>
      obtain ⟨rfl, rfl⟩ := Prod.mk.inj (Option.some.inj h)
      exact ⟨rfl, rfl, by simp⟩
  | condition | unlessClosed | behind | setResult | storeClose | done => cases h

end Workers

/-- A worker has published its error and not yet closed the engine. -/
def Engine.Closing (s : Engine) : Prop := s.uplink = .storeClose ∨ s.downlink = .storeClose

/-- What a step of a worker does to the slot and to `close`. -/
structure Publishes (s t : Engine) (published : Option AtrError) : Prop where
  result : t.shared.result = s.shared.result.or (published.map .error)
  close : t.shared.close = true → s.shared.close = true ∨ s.Closing
  closing : t.Closing → s.Closing ∨ published ≠ none

theorem workerStep_publishes {s t : Engine} {a : Action} (h : workerStep c s a = some t) :
    Publishes s t (publication s a) := by
  cases a with
  | cancel | takeResult => cases h
  | uplink =>
    obtain ⟨⟨shared, w⟩, hw, rfl⟩ := Option.map_eq_some_iff.mp h
    obtain ⟨hresult, hclose, hclosing⟩ := advance_publishes hw
    refine ⟨hresult, fun hc => (hclose hc).imp_right Or.inl, ?_⟩
    rintro (hup | hdown)
    · exact Or.inr (hclosing hup)
    · exact Or.inl (Or.inr hdown)
  | downlink =>
    obtain ⟨⟨shared, w⟩, hw, rfl⟩ := Option.map_eq_some_iff.mp h
    obtain ⟨hresult, hclose, hclosing⟩ := advance_publishes hw
    refine ⟨hresult, fun hc => (hclose hc).imp_right Or.inr, ?_⟩
    rintro (hup | hdown)
    · exact Or.inl (Or.inl hup)
    · exact Or.inr (hclosing hdown)
  | uplinkPacket received accepted written =>
    obtain ⟨⟨shared, w⟩, hw, rfl⟩ := Option.map_eq_some_iff.mp h
    obtain ⟨hresult, hclose, hnot⟩ := takeTurn_publishes hw
    refine ⟨by simpa [publication] using hresult, fun hc => Or.inl (hclose ▸ hc), ?_⟩
    rintro (hup | hdown)
    · exact absurd hup hnot
    · exact Or.inl (Or.inr hdown)
  | downlinkPacket read sent =>
    obtain ⟨⟨shared, w⟩, hw, rfl⟩ := Option.map_eq_some_iff.mp h
    obtain ⟨hresult, hclose, hnot⟩ := takeTurn_publishes hw
    refine ⟨by simpa [publication] using hresult, fun hc => Or.inl (hclose ▸ hc), ?_⟩
    rintro (hup | hdown)
    · exact Or.inl (Or.inl hup)
    · exact absurd hdown hnot

/-- The values taken are those returned and at most one more, which a call is about to return. -/
def Serial (value : κ → Option SessionResult) (taken returned : List SessionResult) : Prop :=
  (taken = returned ∧ ∀ k, value k = none) ∨
    ∃ k v, taken = v :: returned ∧ value k = some v ∧ ∀ k', k' ≠ k → value k' = none

def Owned.value (s : Owned κ) (k : κ) : Option SessionResult := (s.call k).value

structure Reported (s : Owned κ) (g : FailureHistory) : Prop where
  slot : g.taken.getLast?.or s.engine.shared.result = g.published.getLast?.map .error
  closed : g.taken = [] → s.engine.shared.close = true → g.published ≠ []
  closing : s.engine.Closing → g.published ≠ []
  calls : ∀ k, s.value k ≠ none → g.taken ≠ []
  serial : g.alone → Serial s.value g.taken g.returned

section Calls

variable {s t : Owned κ} {g : FailureHistory} {k : κ} {v : SessionResult}

theorem value_update (call : Call) :
    (fun k' => (Function.update s.call k call k').value) =
      Function.update s.value k call.value := by
  funext k'
  by_cases hk : k' = k
  · rw [hk, Function.update_self, Function.update_self]
  · rw [Function.update_of_ne hk, Function.update_of_ne hk]
    rfl

theorem value_update_same {call : Call} (hv : s.value k = call.value) :
    (fun k' => (Function.update s.call k call k').value) = s.value := by
  rw [value_update, ← hv, Function.update_eq_self]

theorem Serial.begin {value : κ → Option SessionResult} {taken returned : List SessionResult}
    (h : Serial value taken returned) (halone : ∀ k, value k = none) (k : κ) (v : SessionResult) :
    Serial (Function.update value k (some v)) (v :: taken) returned := by
  rcases h with ⟨htaken, -⟩ | ⟨k', v', -, hvalue, -⟩
  · refine Or.inr ⟨k, v, by rw [htaken], Function.update_self .., fun k' hk => ?_⟩
    rw [Function.update_of_ne hk]
    exact halone k'
  · rw [halone k'] at hvalue
    cases hvalue

theorem Serial.return {value : κ → Option SessionResult} {taken returned : List SessionResult}
    (h : Serial value taken returned) (hv : value k = some v) :
    Serial (Function.update value k none) taken (v :: returned) := by
  rcases h with ⟨-, hnone⟩ | ⟨k', v', htaken, hvalue, hothers⟩
  · rw [hnone k] at hv
    cases hv
  · have hk : k = k' := by
      by_contra hne
      rw [hothers k hne] at hv
      cases hv
    subst hk
    rw [hv] at hvalue
    cases hvalue
    refine Or.inl ⟨htaken, fun k'' => ?_⟩
    by_cases hk : k'' = k
    · rw [hk, Function.update_self]
    · rw [Function.update_of_ne hk]
      exact hothers k'' hk

omit [DecidableEq κ] in
theorem Reported.worker (h : Reported s g) {engine : Engine} {published : Option AtrError}
    (hstep : Publishes s.engine engine published) :
    Reported { s with engine := engine }
      { g with published := published.toList ++ g.published } := by
  have hlast : (published.toList ++ g.published).getLast? = g.published.getLast?.or published := by
    rw [List.getLast?_append]
    cases published <;> rfl
  have hmore : g.published ≠ [] → published.toList ++ g.published ≠ [] :=
    List.append_ne_nil_of_right_ne_nil _
  have hnew : published ≠ none → published.toList ++ g.published ≠ [] := by
    cases published with
    | none => exact fun hne => absurd rfl hne
    | some err => exact fun _ => List.cons_ne_nil _ _
  constructor
  · show g.taken.getLast?.or engine.shared.result =
      (published.toList ++ g.published).getLast?.map .error
    rw [hstep.result, ← Option.or_assoc, h.slot, hlast]
    cases g.published.getLast? <;> simp
  · intro htaken hclose
    rcases hstep.close hclose with hbefore | hclosing
    · exact hmore (h.closed htaken hbefore)
    · exact hmore (h.closing hclosing)
  · intro hclosing
    rcases hstep.closing hclosing with hbefore | hpublished
    · exact hmore (h.closing hbefore)
    · exact hnew hpublished
  · exact h.calls
  · exact h.serial

theorem Reported.take (h : Reported s g) (hv : s.engine.shared.result = some v) (k : κ) :
    Reported { s with
        engine.shared.result := none
        call := Function.update s.call k (.cancel v) }
      { g with
        taken := v :: g.taken
        alone := g.alone ∧ ∀ k, (s.call k).value = none } := by
  have hslot := h.slot
  rw [hv] at hslot
  constructor
  · show (v :: g.taken).getLast?.or none = g.published.getLast?.map .error
    rw [← hslot, List.getLast?_cons]
    cases g.taken.getLast? <;> rfl
  · exact fun hnil => absurd hnil (List.cons_ne_nil _ _)
  · exact h.closing
  · exact fun _ _ => List.cons_ne_nil _ _
  · rintro ⟨halone, hidle⟩
    show Serial (fun k' => (Function.update s.call k (.cancel v) k').value) _ _
    rw [value_update]
    exact (h.serial halone).begin hidle k v

theorem Reported.goOn (h : Reported s g) (hv : s.value k = some v) {call : Call}
    (hcall : call.value = some v) (close handles : Bool) :
    Reported { s with
        engine.shared.close := close
        handles := handles
        call := Function.update s.call k call } g := by
  have hsame : (fun k' => (Function.update s.call k call k').value) = s.value :=
    value_update_same (hv.trans hcall.symm)
  have htaken : g.taken ≠ [] := h.calls k (by simp [hv])
  constructor
  · exact h.slot
  · exact fun hnil => absurd hnil htaken
  · exact h.closing
  · exact fun _ _ => htaken
  · intro halone
    show Serial (fun k' => (Function.update s.call k call k').value) _ _
    rw [hsame]
    exact h.serial halone

theorem Reported.return (h : Reported s g) (hv : s.value k = some v) :
    Reported { s with call := Function.update s.call k .idle }
      { g with returned := v :: g.returned } := by
  have htaken : g.taken ≠ [] := h.calls k (by simp [hv])
  constructor
  · exact h.slot
  · exact h.closed
  · exact h.closing
  · exact fun _ _ => htaken
  · intro halone
    show Serial (fun k' => (Function.update s.call k .idle k').value) _ _
    rw [value_update]
    exact (h.serial halone).return hv

theorem Reported.step {a : OwnedAction κ} (h : Reported s g) (hstep : ownedStep c s a = some t) :
    Reported t (g.record s a) := by
  cases a with
  | worker a =>
    obtain ⟨engine, hengine, rfl⟩ := Option.map_eq_some_iff.mp hstep
    exact h.worker (workerStep_publishes hengine)
  | status k =>
    obtain rfl := Option.some.inj hstep
    exact h
  | take k =>
    cases hcall : s.call k with
    | cancel | joinWorkers | wait => simp [ownedStep, hcall] at hstep
    | idle =>
      cases hv : s.engine.shared.result with
      | none =>
        simp only [ownedStep, hcall, hv, Option.some.injEq] at hstep
        subst hstep
        simpa only [FailureHistory.record, hv] using h
      | some v =>
        simp only [ownedStep, hcall, hv, Option.some.injEq] at hstep
        subst hstep
        simpa only [FailureHistory.record, hv] using h.take hv k
  | cancel k =>
    cases hcall : s.call k with
    | idle | joinWorkers | wait => simp [ownedStep, hcall] at hstep
    | cancel v =>
      simp only [ownedStep, hcall, Option.some.injEq] at hstep
      subst hstep
      exact h.goOn (k := k) (v := v) (congrArg Call.value hcall) rfl true s.handles
  | joinWorkers k =>
    cases hcall : s.call k with
    | idle | cancel | wait => simp [ownedStep, hcall] at hstep
    | joinWorkers v =>
      have hv : s.value k = some v := congrArg Call.value hcall
      by_cases hhandles : s.handles
      · simp only [ownedStep, hcall, if_pos hhandles, Option.some.injEq] at hstep
        subst hstep
        have hnone : s.returns (.joinWorkers k) = none := by
          simp only [Owned.returns, hcall, if_pos hhandles]
        simp only [FailureHistory.record, hnone]
        exact h.goOn hv rfl s.engine.shared.close false
      · simp only [ownedStep, hcall, if_neg hhandles, Option.some.injEq] at hstep
        subst hstep
        have hreturns : s.returns (.joinWorkers k) = some v := by
          simp only [Owned.returns, hcall, if_neg hhandles]
        simp only [FailureHistory.record, hreturns]
        exact h.return hv
  | wait k =>
    cases hcall : s.call k with
    | idle | cancel | joinWorkers => simp [ownedStep, hcall] at hstep
    | wait v =>
      have hv : s.value k = some v := congrArg Call.value hcall
      simp only [ownedStep, hcall, when_eq_some] at hstep
      obtain ⟨-, rfl⟩ := hstep
      have hreturns : s.returns (.wait k) = some v := by simp only [Owned.returns, hcall]
      simp only [FailureHistory.record, hreturns]
      exact h.return hv

theorem ownedStep_unchanged {a : OwnedAction κ} (hstep : ownedStep c s a = some t)
    {v' : SessionResult} (hv : s.engine.shared.result = some v)
    (hv' : t.engine.shared.result = some v') : v' = v := by
  cases a with
  | worker a =>
    obtain ⟨engine, hengine, rfl⟩ := Option.map_eq_some_iff.mp hstep
    have hresult := (workerStep_publishes hengine).result
    rw [hv, Option.some_or] at hresult
    exact Option.some.inj (hv'.symm.trans hresult)
  | status k =>
    obtain rfl := Option.some.inj hstep
    exact Option.some.inj (hv'.symm.trans hv)
  | take k =>
    cases hcall : s.call k with
    | cancel | joinWorkers | wait => simp [ownedStep, hcall] at hstep
    | idle =>
      simp only [ownedStep, hcall, hv, Option.some.injEq] at hstep
      subst hstep
      cases hv'
  | cancel k | joinWorkers k | wait k =>
    have hsame : t.engine.shared.result = s.engine.shared.result := by
      simp only [ownedStep] at hstep
      split at hstep
      · grind [when_eq_some]
      · cases hstep
    rw [hsame, hv] at hv'
    exact (Option.some.inj hv').symm

end Calls

theorem reported_of_reachable {p : Owned κ × FailureHistory}
    (h : (failureHistories κ c).Reachable p) : Reported p.1 p.2 := by
  refine h.invariant (I := fun q => Reported q.1 q.2) ?_ ?_
  · rintro ⟨s, g⟩ ⟨hs, hg⟩
    dsimp only at hs hg
    subst hs hg
    have hopen : (Owned.initial : Owned κ).engine.shared.close = false := rfl
    have hclosing : ¬ (Owned.initial : Owned κ).engine.Closing := by
      simp [Engine.Closing, Owned.initial, VpnEngine.initial]
    exact ⟨rfl, by simp [hopen], fun hc => absurd hc hclosing, fun _ hv => absurd rfl hv,
      fun _ => Or.inl ⟨rfl, fun _ => rfl⟩⟩
  · rintro ⟨s, g⟩ a ⟨t, g'⟩ _ hs - ht
    obtain ⟨hstep, hg⟩ := System.observe_step.mp ht
    dsimp only at hstep hg hs ⊢
    rw [hg]
    exact hs.step hstep

/-- Whatever the order of the workers and the callers. -/
theorem firstReported_of_reachable {s : Owned κ} {g : FailureHistory}
    (h : (failureHistories κ c).Reachable (s, g)) : FirstReported c s g := by
  have hs : Reported s g := reported_of_reachable h
  have htaken : ∀ value, g.taken.getLast? = some value →
      ∃ err, g.published.getLast? = some err ∧ value = .error err := by
    intro value hvalue
    have hslot := hs.slot
    rw [hvalue, Option.some_or] at hslot
    obtain ⟨err, herr, heq⟩ := Option.map_eq_some_iff.mp hslot.symm
    exact ⟨err, herr, heq.symm⟩
  constructor
  · intro hnil hclose
    have hslot := hs.slot
    rw [hnil, List.getLast?_nil, Option.none_or] at hslot
    have hpublished := hs.closed hnil hclose
    rw [List.getLast?_eq_some_getLast hpublished] at hslot
    exact ⟨_, hslot⟩
  · exact fun a t hstep value value' hv hv' => ownedStep_unchanged hstep hv hv'
  · exact htaken
  · intro halone value hvalue
    rcases hs.serial halone with ⟨hsame, -⟩ | ⟨k, v, hcons, -⟩
    · exact htaken value (hsame ▸ hvalue)
    · apply htaken value
      rw [hcons, List.getLast?_cons, hvalue]
      rfl

/-- Both workers have decided to fail before either publishes. -/
theorem firstReported_bothFail : ∃ (s : Owned Unit) (g : FailureHistory),
    g.taken = [.error (.internal [])] ∧ g.published = [.networkFailed [], .internal []] ∧
      FirstReported { packetInformation := false, exitOnFatalError := true } s g := by
  have h0 : (failureHistories Unit
      { packetInformation := false, exitOnFatalError := true }).Reachable
      (.initial, .empty) := .init ⟨rfl, rfl⟩
  have h := h0.run [.worker .downlink, .worker .uplink,
    .worker (.downlinkPacket (.error (.internal [])) (.ok ())),
    .worker (.uplinkPacket (.error { kind := .other, message := [] }) false (.ok 0)),
    .worker .downlink, .worker .downlink, .worker .uplink, .take (), .cancel ()] rfl
  exact ⟨_, _, rfl, rfl, firstReported_of_reachable h⟩

end NulConnect.VpnEngine
