import NulConnect.Transition.System
import NulConnect.Transition.Update
import Mathlib.Tactic

/-! The wake-up protocol of the stack loop: the `armed` flag of `StackWaker`, the input
channel and the passes of `run_transport_stack` over the flows. -/
namespace NulConnect.TunStack.Waker
open Transition

/-- What the input channel carries; the packet itself plays no part in waking the loop. -/
inductive StackEvent where
  | packet
  | wake
deriving DecidableEq, Repr

/-- Where the loop stands in an iteration. A pass still has the flows `todo` to visit. -/
inductive LoopPc (φ : Type*) where
  | rearm
  | drain
  | pass (todo : List φ)
  | wait
deriving DecidableEq

/-- A flow thread: after publishing the `n`-th piece of work for `f` it calls `wake`, which
swaps `armed` and, where that was clear, sends. -/
inductive ThreadPc (φ : Type*) where
  | idle
  | published (f : φ) (n : ℕ)
  | swapped (f : φ) (n : ℕ)
deriving DecidableEq

structure State (φ τ : Type*) where
  loop : LoopPc φ
  armed : Bool
  input : List StackEvent
  nextEvent : Option StackEvent
  /-- the keys of the flow tables -/
  flows : List φ
  thread : τ → ThreadPc φ
  /-- pieces of work published for a flow -/
  published : φ → ℕ
  /-- how many of them there were at the last visit to the flow; a visit that leaves a chunk in its
  channel for want of room counts, for the application wakes that flow -/
  observed : φ → ℕ
  /-- the last of them whose `wake` has returned -/
  woken : φ → ℕ

inductive Action (φ τ : Type*) where
  | rearm
  | takeNext
  | tryRecv
  | accept (f : φ)
  | visit (f : φ)
  | reap (f : φ)
  | sleep
  | recv
  | timeout
  | packet
  | publish (t : τ) (f : φ)
  | swap (t : τ)
  | send (t : τ)

variable {φ τ : Type*}

def initial : State φ τ where
  loop := .rearm
  armed := false
  input := []
  nextEvent := none
  flows := []
  thread _ := .idle
  published _ := 0
  observed _ := 0
  woken _ := 0

variable [DecidableEq φ] [DecidableEq τ]

def State.wakeReturned (s : State φ τ) (t : τ) (f : φ) (n : ℕ) : State φ τ :=
  { s with
    thread := Function.update s.thread t .idle
    woken := Function.update s.woken f (max (s.woken f) n) }

def step (s : State φ τ) : Action φ τ → Option (State φ τ)
  | .rearm => when (s.loop = .rearm) { s with armed := false, loop := .drain }
  -- `next_event.take()` comes first in the chain of events
  | .takeNext => when (s.loop = .drain ∧ s.nextEvent ≠ none) { s with nextEvent := none }
  | .tryRecv =>
    match s.input with
    | _ :: rest => when (s.loop = .drain ∧ s.nextEvent = none) { s with input := rest }
    | [] => when (s.loop = .drain ∧ s.nextEvent = none) { s with loop := .pass s.flows }
  | .accept f =>
    match s.loop with
    | .pass todo => some { s with flows := f :: s.flows, loop := .pass (f :: todo) }
    | _ => none
  | .visit f =>
    match s.loop with
    | .pass todo => when (f ∈ todo)
        { s with
          loop := .pass (todo.filter (· ≠ f))
          observed := Function.update s.observed f (s.published f) }
    | _ => none
  | .reap f =>
    match s.loop with
    | .pass todo => when (f ∉ todo) { s with flows := s.flows.filter (· ≠ f) }
    | _ => none
  | .sleep => when (s.loop = .pass []) { s with loop := .wait }
  | .recv =>
    match s.input with
    | e :: rest => when (s.loop = .wait)
        { s with input := rest, nextEvent := some e, loop := .rearm }
    | [] => none
  | .timeout => when (s.loop = .wait ∧ s.input = []) { s with loop := .rearm }
  | .packet => some { s with input := s.input ++ [.packet] }
  | .publish t f => when (s.thread t = .idle)
      { s with
        published := Function.update s.published f (s.published f + 1)
        thread := Function.update s.thread t (.published f (s.published f + 1)) }
  -- `self.armed.swap(true, ..)`: only the thread that found it clear goes on to send
  | .swap t =>
    match s.thread t with
    | .published f n =>
      if s.armed then some (s.wakeReturned t f n)
      else some { s with
        armed := true
        thread := Function.update s.thread t (.swapped f n) }
    | _ => none
  | .send t =>
    match s.thread t with
    | .swapped f n => some { s.wakeReturned t f n with input := s.input ++ [.wake] }
    | _ => none

/-- The stack loop with the flow threads `τ` working for the flows `φ`. -/
def system (φ τ : Type*) [DecidableEq φ] [DecidableEq τ] :
    System (State φ τ) (Action φ τ) where
  init s := s = initial
  step := step

section Properties

variable {φ τ : Type*} {s : State φ τ}

def Sending (s : State φ τ) : Prop := ∃ t f n, s.thread t = .swapped f n

/-- The loop does not sleep on work whose `wake` has returned and which its last visit to
the flow did not find, unless an event is in the channel or about to be sent. -/
def NoLostWakeup (s : State φ τ) : Prop :=
  s.loop = .wait → ∀ f ∈ s.flows, s.observed f < s.woken f → s.input ≠ [] ∨ Sending s

/-- The drain does not swallow the wake that `armed` stands for: when it takes a `Wake`
while `armed` is set, another one is in the channel or about to be sent. -/
def DrainKeepsWake (s : State φ τ) (a : Action φ τ) : Prop :=
  match a, s.input with
  | .tryRecv, .wake :: rest => s.armed = true → .wake ∈ rest ∨ Sending s
  | _, _ => True

def Passed (s : State φ τ) (f : φ) : Prop :=
  match s.loop with
  | .pass todo => f ∉ todo
  | .wait => True
  | _ => False

structure Invariant (s : State φ τ) : Prop where
  threads : ∀ t f n, s.thread t = .published f n ∨ s.thread t = .swapped f n →
    n ≤ s.published f
  woken_le : ∀ f, s.woken f ≤ s.published f
  /-- While `armed` is set, the wake it stands for is on its way. -/
  armed : s.loop ≠ .rearm → s.armed = true → .wake ∈ s.input ∨ Sending s
  /-- While `armed` is clear, nothing was signalled behind the back of the pass. -/
  clear : s.armed = false → ∀ f ∈ s.flows, Passed s f →
    s.woken f ≤ s.observed f ∧ ∀ t n, s.thread t = .swapped f n → n ≤ s.observed f

theorem invariant_initial : Invariant (initial : State φ τ) := by
  constructor <;> simp [initial, Passed]

theorem Invariant.noLostWakeup (hs : Invariant s) : NoLostWakeup s := by
  intro hw f hf hlt
  have ha : s.armed = true := by
    by_contra hc
    have := (hs.clear (by simpa using hc) f hf (by simp [Passed, hw])).1
    omega
  rcases hs.armed (by simp [hw]) ha with h | h
  · exact Or.inl (List.ne_nil_of_mem h)
  · exact Or.inr h

end Properties

omit [DecidableEq φ] in
/-- A thread that is not sending may change without touching `Sending`. -/
theorem Sending.update {s : State φ τ} (t : τ) (hs : Sending s)
    (ht : ∀ f n, s.thread t ≠ .swapped f n) (pc : ThreadPc φ) :
    ∃ w f n, Function.update s.thread t pc w = .swapped f n := by
  obtain ⟨w, f, n, hw⟩ := hs
  have hwt : w ≠ t := fun he => ht f n (he ▸ hw)
  exact ⟨w, f, n, by rw [Function.update_of_ne hwt, hw]⟩

omit [DecidableEq φ] [DecidableEq τ] in
/-- A step of the loop: what it has passed it has just observed, or had passed before. -/
theorem Invariant.loop_step {s t : State φ τ} (hs : Invariant s) (hthread : t.thread = s.thread)
    (hpub : t.published = s.published) (hwoken : t.woken = s.woken)
    (harmed : t.loop ≠ .rearm → t.armed = true → .wake ∈ t.input ∨ Sending s)
    (hclear : t.armed = false → ∀ f ∈ t.flows, Passed t f → t.observed f = s.published f ∨
      s.armed = false ∧ f ∈ s.flows ∧ Passed s f ∧ t.observed f = s.observed f) :
    Invariant t := by
  constructor
  · intro w f n hw
    rw [hthread] at hw
    rw [hpub]
    exact hs.threads w f n hw
  · intro f
    rw [hwoken, hpub]
    exact hs.woken_le f
  · unfold Sending
    rw [hthread]
    exact harmed
  · intro ha f hf hp
    rw [hwoken, hthread]
    obtain hobs | ⟨ha', hf', hp', hobs⟩ := hclear ha f hf hp
    · rw [hobs]
      exact ⟨hs.woken_le f, fun w n hw => hs.threads w f n (.inr hw)⟩
    · rw [hobs]
      exact hs.clear ha' f hf' hp'

omit [DecidableEq φ] [DecidableEq τ] in
theorem Invariant.pass_step {s : State φ τ} (hs : Invariant s) {todo : List φ}
    (hl : s.loop = .pass todo) {todo' flows : List φ} {observed : φ → ℕ}
    (h : ∀ f ∈ flows, f ∉ todo' → observed f = s.published f ∨
      f ∈ s.flows ∧ f ∉ todo ∧ observed f = s.observed f) :
    Invariant { s with loop := .pass todo', flows := flows, observed := observed } := by
  refine hs.loop_step rfl rfl rfl (fun _ ha => hs.armed (by simp [hl]) ha) fun ha f hf hp => ?_
  obtain hobs | ⟨hf', hp', hobs⟩ := h f hf hp
  · exact .inl hobs
  · refine .inr ⟨ha, hf', ?_, hobs⟩
    unfold Passed
    rw [hl]
    exact hp'

theorem Invariant.publish_step {s : State φ τ} (hs : Invariant s) {t : τ} (ht : s.thread t = .idle)
    (f : φ) : Invariant { s with
      published := Function.update s.published f (s.published f + 1)
      thread := Function.update s.thread t (.published f (s.published f + 1)) } := by
  have hle : ∀ g, s.published g ≤ Function.update s.published f (s.published f + 1) g := by
    intro g
    by_cases hg : g = f
    · subst hg
      simp
    · simp [hg]
  constructor
  · intro w g n hw
    dsimp only at hw ⊢
    by_cases hwt : w = t
    · subst hwt
      simp only [Function.update_self, reduceCtorEq, or_false, ThreadPc.published.injEq] at hw
      obtain ⟨rfl, rfl⟩ := hw
      simp
    · rw [Function.update_of_ne hwt] at hw
      exact (hs.threads w g n hw).trans (hle g)
  · intro g
    exact (hs.woken_le g).trans (hle g)
  · intro hl ha
    exact (hs.armed hl ha).imp id fun h => h.update t (by simp [ht]) _
  · intro ha g hg hp
    obtain ⟨hwoken, hswapped⟩ := hs.clear ha g hg hp
    refine ⟨hwoken, fun w n hw => ?_⟩
    by_cases hwt : w = t
    · subst hwt
      simp at hw
    · exact hswapped w n (by simpa [hwt] using hw)

/-- A thread returns from `wake`; with `armed` clear, no pass has missed its work. -/
theorem Invariant.wakeReturned {s : State φ τ} (hs : Invariant s) {t : τ} {f : φ} {n : ℕ}
    (ht : s.thread t = .published f n ∨ s.thread t = .swapped f n) {input : List StackEvent}
    (harmed : s.loop ≠ .rearm → s.armed = true → .wake ∈ input ∨
      Sending (s.wakeReturned t f n))
    (hclear : s.armed = false → s.thread t = .swapped f n) :
    Invariant { s.wakeReturned t f n with input := input } := by
  have hother : ∀ w pc, pc ≠ .idle → (s.wakeReturned t f n).thread w = pc → s.thread w = pc := by
    intro w pc hpc hw
    exact eq_of_update_ne hw hpc.symm
  have hn := hs.threads t f n ht
  constructor
  · intro w g m hw
    exact hs.threads w g m (hw.imp (hother w _ (by simp)) (hother w _ (by simp)))
  · intro g
    by_cases hg : g = f
    · subst hg
      have := hs.woken_le g
      simp only [State.wakeReturned, Function.update_self]
      omega
    · simpa [State.wakeReturned, hg] using hs.woken_le g
  · exact harmed
  · intro ha g hg hp
    obtain ⟨hwoken, hswapped⟩ := hs.clear ha g hg hp
    refine ⟨?_, fun w m hw => hswapped w m (hother w _ (by simp) hw)⟩
    by_cases hgf : g = f
    · subst hgf
      have := hswapped t n (hclear ha)
      simp only [State.wakeReturned, Function.update_self]
      omega
    · simpa [State.wakeReturned, hgf] using hwoken

omit [DecidableEq φ] in
theorem Invariant.swapped_step {s : State φ τ} (hs : Invariant s) {t : τ} {f : φ} {n : ℕ}
    (ht : s.thread t = .published f n) : Invariant { s with
      armed := true
      thread := Function.update s.thread t (.swapped f n) } := by
  constructor
  · intro w g m hw
    dsimp only at hw ⊢
    by_cases hwt : w = t
    · subst hwt
      simp only [Function.update_self, reduceCtorEq, false_or, ThreadPc.swapped.injEq] at hw
      obtain ⟨rfl, rfl⟩ := hw
      exact hs.threads w f n (.inl ht)
    · rw [Function.update_of_ne hwt] at hw
      exact hs.threads w g m hw
  · exact hs.woken_le
  · intro _ _
    exact .inr ⟨t, f, n, Function.update_self t _ s.thread⟩
  · intro ha
    cases ha

theorem Invariant.step {s t : State φ τ} {a : Action φ τ} (hs : Invariant s)
    (hok : DrainKeepsWake s a) (h : step s a = some t) : Invariant t := by
  cases a with
  | rearm =>
    obtain ⟨hl, rfl⟩ := when_eq_some.mp h
    exact hs.loop_step rfl rfl rfl (fun _ ha => by cases ha) fun _ _ _ hp => hp.elim
  | takeNext =>
    obtain ⟨⟨hl, -⟩, rfl⟩ := when_eq_some.mp h
    refine hs.loop_step rfl rfl rfl hs.armed fun _ f _ hp => ?_
    simp [Passed, hl] at hp
  | tryRecv =>
    simp only [Waker.step] at h
    cases hi : s.input with
    | nil =>
      simp only [hi, when_eq_some] at h
      obtain ⟨⟨hl, -⟩, rfl⟩ := h
      exact hs.loop_step rfl rfl rfl (fun _ ha => hi ▸ hs.armed (by simp [hl]) ha)
        fun _ f hf hp => absurd hf hp
    | cons e rest =>
      simp only [hi, when_eq_some] at h
      obtain ⟨⟨hl, -⟩, rfl⟩ := h
      refine hs.loop_step rfl rfl rfl (fun _ ha => ?_) fun _ f _ hp => ?_
      · obtain hw | hsend := hs.armed (by simp [hl]) ha
        · rw [hi] at hw
          obtain rfl | hw := List.mem_cons.mp hw
          · simp only [DrainKeepsWake, hi] at hok
            exact hok ha
          · exact .inl hw
        · exact .inr hsend
      · simp [Passed, hl] at hp
  | accept f =>
    simp only [Waker.step] at h
    split at h
    · rename_i todo hl
      obtain rfl := Option.some.inj h
      refine hs.pass_step hl fun g hg hp => .inr ?_
      obtain ⟨hgf, hgt⟩ := List.ne_and_not_mem_of_not_mem_cons hp
      exact ⟨(List.mem_cons.mp hg).resolve_left hgf, hgt, rfl⟩
    · contradiction
  | visit f =>
    simp only [Waker.step] at h
    split at h
    · rename_i todo hl
      obtain ⟨hf, rfl⟩ := when_eq_some.mp h
      refine hs.pass_step hl fun g hg hp => ?_
      by_cases hgf : g = f
      · subst hgf
        exact .inl (Function.update_self g _ s.observed)
      · refine .inr ⟨hg, fun hgt => hp ?_, Function.update_of_ne hgf _ s.observed⟩
        exact List.mem_filter.mpr ⟨hgt, by simpa using hgf⟩
    · contradiction
  | reap f =>
    simp only [Waker.step] at h
    split at h
    · rename_i todo hl
      obtain ⟨hf, rfl⟩ := when_eq_some.mp h
      have hpass : { s with flows := s.flows.filter (· ≠ f) } =
          { s with
            loop := .pass todo
            flows := s.flows.filter (· ≠ f)
            observed := s.observed } := by
        rw [← hl]
      rw [hpass]
      exact hs.pass_step hl fun g hg hp => .inr ⟨List.mem_of_mem_filter hg, hp, rfl⟩
    · contradiction
  | sleep =>
    obtain ⟨hl, rfl⟩ := when_eq_some.mp h
    refine hs.loop_step rfl rfl rfl (fun _ ha => hs.armed (by simp [hl]) ha) fun ha f hf _ => ?_
    exact .inr ⟨ha, hf, by simp [Passed, hl], rfl⟩
  | recv =>
    simp only [Waker.step] at h
    split at h
    · obtain ⟨hl, rfl⟩ := when_eq_some.mp h
      exact hs.loop_step rfl rfl rfl (fun hne => absurd rfl hne) fun _ _ _ hp => hp.elim
    · contradiction
  | timeout =>
    obtain ⟨hl, rfl⟩ := when_eq_some.mp h
    exact hs.loop_step rfl rfl rfl (fun hne => absurd rfl hne) fun _ _ _ hp => hp.elim
  | packet =>
    cases h
    refine hs.loop_step rfl rfl rfl (fun hl ha => ?_) fun ha f hf hp => .inr ⟨ha, hf, hp, rfl⟩
    exact (hs.armed hl ha).imp (List.mem_append_left _) id
  | publish t f =>
    obtain ⟨ht, rfl⟩ := when_eq_some.mp h
    exact hs.publish_step ht f
  | swap t =>
    simp only [Waker.step] at h
    cases hp : s.thread t with
    | published f n =>
      simp only [hp] at h
      split_ifs at h with ha
      · obtain rfl := Option.some.inj h
        refine hs.wakeReturned (.inl hp) (fun hl _ => ?_) fun hf =>
          absurd (ha.symm.trans hf) (by simp)
        exact (hs.armed hl ha).imp id fun hsend => hsend.update t (by simp [hp]) .idle
      · obtain rfl := Option.some.inj h
        exact hs.swapped_step hp
    | idle | swapped f n => simp [hp] at h
  | send t =>
    simp only [Waker.step] at h
    cases hp : s.thread t with
    | swapped f n =>
      simp only [hp] at h
      obtain rfl := Option.some.inj h
      exact hs.wakeReturned (.inr hp) (fun _ _ => .inl (by simp)) fun _ => hp
    | idle | published f n => simp [hp] at h

/-- In every run whose drains keep the wake that `armed` stands for, no wake-up is lost. -/
theorem noLostWakeup_of_drainKeepsWake (s : State φ τ)
    (hs : (system φ τ).ReachUnder DrainKeepsWake s) : NoLostWakeup s :=
  Invariant.noLostWakeup (hs.invariant (fun _ hi => hi ▸ invariant_initial)
    fun _ _ _ _ hi hok h => hi.step hok h)

/-- A wake signalled while the loop is past the flow is still in the channel when it
waits. -/
theorem noLostWakeup_signalled :
    ∃ s, (system Unit Unit).ReachUnder DrainKeepsWake s ∧ s.loop = .wait ∧
      s.observed () < s.woken () ∧ NoLostWakeup s :=
  have hs := ((((((((System.ReachUnder.init rfl).step (a := .rearm) trivial rfl).step
    (a := .tryRecv) trivial rfl).step (a := .accept ()) trivial rfl).step
    (a := .visit ()) trivial rfl).step (a := .publish () ()) trivial rfl).step
    (a := .swap ()) trivial rfl).step (a := .send ()) trivial rfl).step (a := .sleep) trivial rfl
  ⟨_, hs, rfl, by decide, noLostWakeup_of_drainKeepsWake _ hs⟩

/-- A thread that swaps `armed` between the rearm and the end of the drain has its wake
swallowed; the next thread finds `armed` set, sends nothing, and the loop sleeps. -/
theorem drain_swallows_wake :
    ¬ ∀ s : State Unit Bool, (system Unit Bool).Reachable s → NoLostWakeup s := by
  intro h
  have hr := System.Reachable.run (S := system Unit Bool) (.init rfl)
    [.rearm, .tryRecv, .accept (), .visit (), .sleep, .timeout, .rearm,
      .publish false (), .swap false, .send false, .tryRecv, .tryRecv, .visit (),
      .publish true (), .swap true, .sleep] rfl
  obtain hi | ⟨t, f, n, ht⟩ := h _ hr rfl () (.head _) (by decide)
  · exact hi rfl
  · cases t <;> cases ht

end NulConnect.TunStack.Waker
