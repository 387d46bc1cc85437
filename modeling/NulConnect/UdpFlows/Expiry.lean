import NulConnect.UdpFlows.Table

/-! How long UDP flows stay in the table: the passes stamp and judge them by the wall clock,
which need not show how much time has gone by. -/
namespace NulConnect.UdpFlows
open Transition TunStack

namespace Flow

variable {f f' : Flow} {a : ThreadAction} {n now : ℕ} {bound : Endpoint} {taken : Bool}

/-- The steps that are no datagram leave the stamp of a flow. -/
structure Unstamped (f f' : Flow) : Prop where
  lastActivity : f'.lastActivity = f.lastActivity
  inTable : f'.inTable = f.inTable

theorem trySend_frame (f : Flow) (data : Datagram) : f.Unstamped (f.trySend data).1 ∧
    (f.trySend data).1.closed = f.closed := by
  obtain h | ⟨queue, -, h⟩ := trySend_cases f data
  all_goals
    rw [h]
    exact ⟨⟨rfl, rfl⟩, rfl⟩

theorem accept_stamp (f : Flow) (data : Datagram) (now : ℕ) :
    (f.accept data now).1.lastActivity = now ∧ (f.accept data now).1.inTable = f.inTable := by
  unfold accept
  dsimp only
  split_ifs
  · obtain ⟨hsame, -⟩ := trySend_frame { f with lastActivity := now } data
    exact ⟨hsame.lastActivity, hsame.inTable⟩
  all_goals exact ⟨rfl, rfl⟩

theorem tryConnect_unstamped (f : Flow) : f.Unstamped f.tryConnect := by
  unfold tryConnect
  split_ifs
  · split
    all_goals exact ⟨rfl, rfl⟩
  · exact ⟨rfl, rfl⟩

theorem handOver_unstamped (h : f.handOver = some (f', n)) : f.Unstamped f' := by
  unfold handOver at h
  split at h
  · rename_i queue data rest hq hp
    obtain ⟨hsame, -⟩ := trySend_frame { f with pending := rest } data
    obtain rfl := congrArg Prod.fst (Option.some.inj h)
    exact ⟨hsame.lastActivity, hsame.inTable⟩
  · cases h

theorem tryRecv_stamp (h : f.tryRecv bound taken now = some (f', n)) :
    f'.lastActivity = now ∧ f'.inTable = f.inTable := by
  unfold tryRecv at h
  split at h
  · cases taken with
    | true | false =>
      obtain rfl := congrArg Prod.fst (Option.some.inj h)
      exact ⟨rfl, rfl⟩
  · cases h

theorem endRecv_unstamped (h : f.endRecv = some f') : f.Unstamped f' := by
  unfold endRecv at h
  split at h
  · cases h
  all_goals
    obtain rfl := Option.some.inj h
    exact ⟨rfl, rfl⟩

end Flow

/-- For each flow, the clock in the pass that saw its last datagram. A datagram counts once a pass
has seen it. -/
abbrev Stamps := ℕ → Clock

namespace Stamps

def record (o : Stamps) (s : State) : Action → Stamps
  | .take =>
    match s.phase with
    | .taking v ((source, _) :: _) =>
      Function.update o ((s.find ⟨v.handle, source⟩).getD s.flows.length) s.clock
    | _ => o
  | .tryRecv _ =>
    match s.phase with
    | .hearing _ _ i => Function.update o i s.clock
    | _ => o
  | _ => o

end Stamps

/-- The passes, with the time of the last datagram of each flow. -/
abbrev stampedSystem : System (State × Stamps) Action :=
  passSystem.observe (fun _ => ⟨0, 0⟩) Stamps.record

/-- Between two readings the wall clock shows that a flow's time is over just if it is. -/
def Clock.Agrees (now then_ : Clock) : Prop :=
  udpFlowIdleTimeoutMs ≤ now.wall - then_.wall ↔ udpFlowIdleTimeoutMs ≤ now.elapsed - then_.elapsed

namespace State

variable {s t : State} {a : Action} {o : Stamps} {i : ℕ} {f f' : Flow}

/-- The clock of a pass agrees with those of the last datagrams of the open flows, when the
pass comes to judge these. -/
def ClockAgrees (q : State × Stamps) : Action → Prop
  | .endVisits => ∀ i f, q.1.flows[i]? = some f → f.inTable → ¬ f.closed →
      q.1.clock.Agrees (q.2 i)
  | _ => True

structure Timed (s : State) (o : Stamps) : Prop where
  stamp : ∀ i f, s.flows[i]? = some f → f.inTable → f.lastActivity = (o i).wall
  past : ∀ i f, s.flows[i]? = some f → f.inTable → (o i).elapsed ≤ s.clock.elapsed
  agreed : s.phase = .reaping → ∀ i f, s.flows[i]? = some f → f.inTable → ¬ f.closed →
    s.clock.Agrees (o i)
  recent : s.phase = .between → ∀ i f, s.flows[i]? = some f → f.inTable →
    s.clock.elapsed - (o i).elapsed < udpFlowIdleTimeoutMs

theorem timed_initial (clock : Clock) (o : Stamps) : (initial clock).Timed o where
  stamp _ _ h := by cases h
  past _ _ h := by cases h
  agreed _ _ _ h := by cases h
  recent _ _ _ h := by cases h

/-- The phases in which the loop does not judge flows, nor stand between two passes. -/
def Phase.busy : Phase → Bool
  | .between | .reaping => false
  | _ => true

namespace Timed

/-- Only the table, the clock and the phase matter. -/
theorem congr (ht : s.Timed o) (hf : t.flows = s.flows) (hc : t.clock = s.clock)
    (hp : t.phase = s.phase) : t.Timed o := by
  obtain ⟨h₁, h₂, h₃, h₄⟩ := ht
  constructor
  · rwa [hf]
  · rwa [hf, hc]
  · rwa [hp, hf, hc]
  · rwa [hp, hf, hc]

theorem move (ht : s.Timed o) {p : Phase} (hp : Phase.busy p) : { s with phase := p }.Timed o := by
  refine ⟨ht.stamp, ht.past, fun h => ?_, fun h => ?_⟩
  all_goals
    have hph : p = _ := h
    rw [hph] at hp
    cases hp

/-- A step on a flow that leaves its stamp, while the pass is still to judge it. -/
theorem setFlow (ht : s.Timed o) (hf : s.flows[i]? = some f) (hu : f.Unstamped f') {p : Phase}
    (hp : Phase.busy p) (up down : UInt64) :
    { s.setFlow i f' with phase := p, uploadBytes := up, downloadBytes := down }.Timed o := by
  refine ⟨fun j g hg hin => ?_, fun j g hg hin => ?_, fun h => ?_, fun h => ?_⟩
  · obtain ⟨rfl, rfl⟩ | ⟨-, hg⟩ := get_setFlow hf hg
    · rw [hu.lastActivity]
      exact ht.stamp j f hf (hu.inTable ▸ hin)
    · exact ht.stamp j g hg hin
  · obtain ⟨rfl, rfl⟩ | ⟨-, hg⟩ := get_setFlow hf hg
    · exact ht.past j f hf (hu.inTable ▸ hin)
    · exact ht.past j g hg hin
  all_goals
    have hph : p = _ := h
    rw [hph] at hp
    cases hp

/-- A datagram: the flow gets the clock of the pass. -/
theorem stamped (ht : s.Timed o) (hp : Phase.busy t.phase) (hc : t.clock = s.clock)
    (hnew : ∀ g, t.flows[i]? = some g → g.inTable → g.lastActivity = s.clock.wall)
    (hold : ∀ j g, j ≠ i → t.flows[j]? = some g → s.flows[j]? = some g) :
    t.Timed (Function.update o i s.clock) := by
  refine ⟨fun j g hg hin => ?_, fun j g hg hin => ?_, fun h => ?_, fun h => ?_⟩
  · by_cases hji : j = i
    · subst j
      rw [Function.update_self]
      exact hnew g hg hin
    · rw [Function.update_of_ne hji]
      exact ht.stamp j g (hold j g hji hg) hin
  · rw [hc]
    by_cases hji : j = i
    · subst j
      rw [Function.update_self]
    · rw [Function.update_of_ne hji]
      exact ht.past j g (hold j g hji hg) hin
  all_goals
    rw [h] at hp
    cases hp

theorem remove (ht : s.Timed o) (hf : s.flows[i]? = some f) : (s.setFlow i f.remove).Timed o := by
  have hold {j : ℕ} {g : Flow} (hg : (s.setFlow i f.remove).flows[j]? = some g) (hin : g.inTable) :
      s.flows[j]? = some g := by
    obtain ⟨rfl, rfl⟩ | ⟨-, hg⟩ := get_setFlow hf hg
    · cases hin
    · exact hg
  exact ⟨fun j g hg hin => ht.stamp j g (hold hg hin) hin,
    fun j g hg hin => ht.past j g (hold hg hin) hin,
    fun hp j g hg hin => ht.agreed hp j g (hold hg hin) hin,
    fun hp j g hg hin => ht.recent hp j g (hold hg hin) hin⟩

/-- What the pass reads off a stamp in the reaping. -/
theorem expired_iff (ht : s.Timed o) (hf : s.flows[i]? = some f) (hin : f.inTable) :
    f.expired s.clock.wall ↔ f.closed ∨ udpFlowIdleTimeoutMs ≤ s.clock.wall - (o i).wall := by
  simp [Flow.expired, udpFlowExpired, hin, ht.stamp i f hf hin]

theorem endPass (ht : s.Timed o) (hp : s.phase = .reaping)
    (hn : ∀ f ∈ s.flows, ¬ f.expired s.clock.wall) : { s with phase := .between }.Timed o := by
  refine ⟨ht.stamp, ht.past, fun h => (by cases h), fun _ i f hf hin => ?_⟩
  have hnot := (ht.expired_iff hf hin).not.mp (hn f (Log.mem_of_get hf))
  obtain ⟨hopen, hwall⟩ := not_or.mp hnot
  have hagrees := ht.agreed hp i f hf hin hopen
  exact Nat.lt_of_not_le fun hle => hwall (hagrees.mpr hle)

/-- The flow of a datagram that is accepted gets the clock of the pass. -/
theorem acceptData (ht : s.Timed o) {p : Phase} (hp : Phase.busy p) {key : UdpKey}
    (hfind : s.find key = some i) (data : Datagram) :
    ({ s with phase := p }.acceptData key data).Timed (Function.update o i s.clock) := by
  obtain ⟨f, hf, -, -⟩ := find_eq_some hfind
  have haccept : { s with phase := p }.acceptData key data =
      { ({ s with phase := p } : State).setFlow i (f.accept data s.clock.wall).1 with
        uploadBytes := s.uploadBytes + .ofNat (f.accept data s.clock.wall).2 } := by
    unfold State.acceptData
    rw [show State.find { s with phase := p } key = some i from hfind]
    simp only
    rw [show (State.flows { s with phase := p })[i]? = some f from hf]
  rw [haccept]
  refine ht.stamped hp rfl (fun g hg _ => ?_) fun j g hji hg => ?_
  · obtain ⟨-, rfl⟩ | ⟨hne, -⟩ := get_setFlow hf hg
    · exact (Flow.accept_stamp f data s.clock.wall).1
    · exact absurd rfl hne
  · obtain ⟨rfl, -⟩ | ⟨-, hg⟩ := get_setFlow hf hg
    · exact absurd rfl hji
    · exact hg

/-- A new flow has the stamp of the pass that opens it. -/
theorem opened (ht : s.Timed o) (hp : Phase.busy s.phase) (key : UdpKey) (target : Endpoint) :
    { s with flows := s.flows ++ [Flow.opened key target s.clock.wall] }.Timed
      (Function.update o s.flows.length s.clock) := by
  refine ht.stamped hp rfl (fun g hg _ => ?_) fun j g hj hg => ?_
  · have hnew : (s.flows ++ [Flow.opened key target s.clock.wall])[s.flows.length]? = some g := hg
    rw [List.getElem?_concat_length] at hnew
    obtain rfl := Option.some.inj hnew
    rfl
  · have hg' : (s.flows ++ [Flow.opened key target s.clock.wall])[j]? = some g := hg
    have hlt : j < s.flows.length := by
      have hlen := (List.getElem?_eq_some_iff.mp hg').1
      rw [List.length_append, List.length_singleton] at hlen
      omega
    rwa [List.getElem?_append_left hlt] at hg'

theorem take (ht : s.Timed o) (h' : s.take = some t) : t.Timed (o.record s .take) := by
  unfold State.take at h'
  split at h'
  · rename_i v source data ds hp
    obtain rfl := Option.some.inj h'
    simp only [Stamps.record, hp]
    cases hfind : s.find ⟨v.handle, source⟩ with
    | some i =>
      have hopen : ({ s with phase := .taking v ds } : State).openFlow ⟨v.handle, source⟩ v.target =
          { s with phase := .taking v ds } := by
        unfold openFlow
        rw [show State.find { s with phase := .taking v ds } ⟨v.handle, source⟩ = some i from hfind]
        rfl
      rw [hopen]
      exact ht.acceptData rfl hfind data
    | none =>
      rw [Option.getD_none]
      unfold openFlow
      rw [show State.find { s with phase := .taking v ds } ⟨v.handle, source⟩ = none from hfind]
      split_ifs with hsize
      · have hnew := (ht.move (p := .taking v ds) rfl).opened rfl ⟨v.handle, source⟩ v.target
        have hlast : State.find { s with flows := s.flows ++
            [Flow.opened ⟨v.handle, source⟩ v.target s.clock.wall] } ⟨v.handle, source⟩ =
            some s.flows.length := by
          unfold State.find at hfind ⊢
          simp [List.findIdx?_append, hfind, Flow.opened]
        have hacc := hnew.acceptData (p := .taking v ds) rfl hlast data
        rwa [Function.update_idem] at hacc
      · have hkept : State.acceptData { s with phase := .taking v ds } ⟨v.handle, source⟩ data =
            { s with phase := .taking v ds } := by
          unfold State.acceptData
          rw [show State.find { s with phase := .taking v ds } ⟨v.handle, source⟩ = none from hfind]
        rw [hkept]
        refine ht.stamped rfl rfl (fun g hg _ => ?_) fun _ _ _ hg => hg
        rw [show (State.flows { s with phase := .taking v ds })[s.flows.length]? = none from
          List.getElem?_eq_none le_rfl] at hg
        cases hg
  · cases h'

theorem step {q : State × Stamps} (ht : q.1.Timed q.2) (hok : ClockAgrees q a)
    (h' : q.1.step a = some t) : t.Timed (q.2.record q.1 a) := by
  obtain ⟨s, o⟩ := q
  dsimp only at ht h' ⊢
  cases a with
  | listen | sweep =>
    obtain ⟨-, rfl⟩ := when_eq_some.mp h'
    exact ht.congr rfl rfl rfl
  | arrive p handle =>
    simp only [State.step] at h'
    split_ifs at h'
    cases handle with
    | none =>
      obtain rfl := Option.some.inj h'
      exact ht.congr rfl rfl rfl
    | some h =>
      simp only [State.arrive] at h'
      split at h'
      · obtain ⟨-, rfl⟩ := when_eq_some.mp h'
        exact ht.congr rfl rfl rfl
      · cases h'
  | beginPass clock =>
    obtain ⟨⟨-, hle⟩, rfl⟩ := when_eq_some.mp h'
    exact ⟨ht.stamp, fun i f hf hin => (ht.past i f hf hin).trans hle, fun h => (by cases h),
      fun h => by cases h⟩
  | visit target h =>
    simp only [State.step, State.visit] at h'
    split at h'
    · obtain ⟨-, rfl⟩ := when_eq_some.mp h'
      exact (ht.move (p := .taking _ _) rfl).congr rfl rfl rfl
    · cases h'
  | take => exact ht.take h'
  | endTake | endServe =>
    simp only [State.step] at h'
    split at h'
    · obtain rfl := Option.some.inj h'
      exact ht.move rfl
    · cases h'
  | tryConnect i =>
    simp only [State.step, State.tryConnect] at h'
    split at h'
    · rename_i v left f hp hf
      obtain ⟨-, rfl⟩ := when_eq_some.mp h'
      exact ht.setFlow hf (Flow.tryConnect_unstamped f) rfl _ _
    · cases h'
  | handOver =>
    simp only [State.step, State.handOver] at h'
    split at h'
    · rename_i v left i hp
      split at h'
      · rename_i f hf
        obtain ⟨⟨f', n⟩, hf', rfl⟩ := Option.map_eq_some_iff.mp h'
        have hset := ht.setFlow hf (Flow.handOver_unstamped hf') (p := s.phase) (by rw [hp]; rfl)
        exact hset _ _
      · cases h'
    · cases h'
  | endHandOver =>
    simp only [State.step, State.endHandOver] at h'
    split at h'
    · obtain ⟨-, rfl⟩ := when_eq_some.mp h'
      exact ht.move rfl
    · cases h'
  | tryRecv taken =>
    simp only [State.step, State.tryRecv] at h'
    split at h'
    · rename_i v left i hp
      split at h'
      · rename_i f k hf hk
        obtain ⟨⟨f', n⟩, hf', rfl⟩ := Option.map_eq_some_iff.mp h'
        simp only [Stamps.record, hp]
        refine ht.stamped (by show Phase.busy s.phase; rw [hp]; rfl) rfl (fun g hg _ => ?_)
          fun j g hji hg => ?_
        · obtain ⟨-, rfl⟩ | ⟨hne, -⟩ := get_setFlow hf hg
          · exact (Flow.tryRecv_stamp hf').1
          · exact absurd rfl hne
        · obtain ⟨rfl, -⟩ | ⟨-, hg⟩ := get_setFlow hf hg
          · exact absurd rfl hji
          · exact hg
      · cases h'
    · cases h'
  | endRecv =>
    simp only [State.step, State.endRecv] at h'
    split at h'
    · rename_i v left i hp
      split at h'
      · rename_i f hf
        obtain ⟨f', hf', rfl⟩ := Option.map_eq_some_iff.mp h'
        exact ht.setFlow hf (Flow.endRecv_unstamped hf') rfl _ _
      · cases h'
    · cases h'
  | endVisits =>
    obtain ⟨-, rfl⟩ := when_eq_some.mp h'
    exact ⟨ht.stamp, ht.past, fun _ => hok, fun h => by cases h⟩
  | reap i =>
    simp only [State.step, State.reap] at h'
    split at h'
    · rename_i f hf
      obtain ⟨-, rfl⟩ := when_eq_some.mp h'
      exact ht.remove hf
    · cases h'
  | endPass =>
    obtain ⟨⟨hp, hn⟩, rfl⟩ := when_eq_some.mp h'
    exact ht.endPass hp hn
  | stop =>
    obtain ⟨-, rfl⟩ := when_eq_some.mp h'
    have hgone {i : ℕ} {f : Flow} (hf : (s.flows.map Flow.remove)[i]? = some f) : ¬ f.inTable := by
      rw [List.getElem?_map] at hf
      obtain ⟨g, -, rfl⟩ := Option.map_eq_some_iff.mp hf
      exact Bool.false_ne_true
    exact ⟨fun i f hf hin => absurd hin (hgone hf), fun i f hf hin => absurd hin (hgone hf),
      fun h => (by cases h), fun h => by cases h⟩
  | thread i a =>
    obtain ⟨f, hf, h'⟩ := Option.bind_eq_some_iff.mp h'
    obtain ⟨f', hf', rfl⟩ := Option.map_eq_some_iff.mp h'
    obtain ⟨hsame, -, -, -, -, -, -, hcl, hlast, -⟩ := Flow.thread_frame hf'
    have hflow {j : ℕ} {g : Flow} (hg : (s.setFlow i f').flows[j]? = some g) (hin : g.inTable) :
        ∃ g₀, s.flows[j]? = some g₀ ∧ g₀.inTable ∧ g.lastActivity = g₀.lastActivity ∧
          g.closed = g₀.closed := by
      obtain ⟨rfl, rfl⟩ | ⟨-, hg⟩ := get_setFlow hf hg
      · exact ⟨f, hf, hsame.inTable ▸ hin, hlast, hcl⟩
      · exact ⟨g, hg, hin, rfl, rfl⟩
    refine ⟨fun j g hg hin => ?_, fun j g hg hin => ?_, fun hp j g hg hin hopen => ?_,
      fun hp j g hg hin => ?_⟩
    all_goals obtain ⟨g₀, hg₀, hin₀, hlast₀, hcl₀⟩ := hflow hg hin
    · rw [hlast₀]
      exact ht.stamp j g₀ hg₀ hin₀
    · exact ht.past j g₀ hg₀ hin₀
    · exact ht.agreed hp j g₀ hg₀ hin₀ (hcl₀ ▸ hopen)
    · exact ht.recent hp j g₀ hg₀ hin₀

end Timed

theorem timed_of_clockAgrees {q : State × Stamps}
    (hq : stampedSystem.ReachUnder ClockAgrees q) : q.1.Timed q.2 := by
  refine hq.invariant (I := fun q => q.1.Timed q.2) ?_ ?_
  · rintro ⟨s, o⟩ ⟨⟨clock, rfl⟩, -⟩
    exact timed_initial clock o
  · intro q a r _ ht hok hr
    obtain ⟨hstep, hrec⟩ := System.observe_step.mp hr
    rw [hrec]
    exact ht.step hok hstep

/-- Flows are judged by the time that has gone by: what a pass can take out of the table is
closed or has been idle for long enough, and no flow that is left after a pass had been. -/
structure Prompt (q : State × Stamps) : Prop where
  kept : ∀ i f t, q.1.flows[i]? = some f → q.1.step (.reap i) = some t →
    f.closed ∨ udpFlowIdleTimeoutMs ≤ q.1.clock.elapsed - (q.2 i).elapsed
  gone : q.1.phase = .between → ∀ i f, q.1.flows[i]? = some f → f.inTable →
    (q.2 i).elapsed ≤ q.1.clock.elapsed ∧
      q.1.clock.elapsed - (q.2 i).elapsed < udpFlowIdleTimeoutMs

theorem prompt_of_clockAgrees {q : State × Stamps}
    (hq : stampedSystem.ReachUnder ClockAgrees q) : Prompt q := by
  have ht := timed_of_clockAgrees hq
  refine ⟨fun i f t hf hr => ?_, fun hp i f hf hin => ⟨ht.past i f hf hin, ht.recent hp i f hf hin⟩⟩
  simp only [State.step, State.reap, hf] at hr
  obtain ⟨⟨hp, hexp⟩, -⟩ := when_eq_some.mp hr
  have hin : f.inTable := by
    rw [Flow.expired, Bool.and_eq_true] at hexp
    exact hexp.1
  obtain hcl | hwall := (ht.expired_iff hf hin).mp hexp
  · exact .inl hcl
  · by_cases hcl : f.closed
    · exact .inl hcl
    · exact .inr ((ht.agreed hp i f hf hin hcl).mp hwall)

instance (now then_ : Clock) : Decidable (now.Agrees then_) := by
  unfold Clock.Agrees
  infer_instance

instance (q : State × Stamps) (a : Action) : Decidable (ClockAgrees q a) := by
  rcases a with ⟨⟩
  case endVisits =>
    refine decidable_of_iff (∀ i < q.1.flows.length, ∀ f ∈ q.1.flows[i]?, f.inTable → ¬ f.closed →
      q.1.clock.Agrees (q.2 i)) ⟨fun h i f hf => ?_, fun h i _ f hf => h i f hf⟩
    exact h i (List.getElem?_eq_some_iff.mp hf).1 f hf
  all_goals exact .isTrue trivial

private def host : Endpoint := ⟨.ofOctets 10 8 0 2, 50001⟩

private def nameServer : Endpoint := ⟨.ofOctets 198 51 100 1, 53⟩

/-- A pass that finds one datagram for a destination, or none, and its flow. -/
private def passAt (clock : Clock) (datagrams : List Action) : List Action :=
  [Action.beginPass clock, .visit nameServer 0] ++ datagrams ++
    [Action.endTake, .tryConnect 0, .endHandOver, .endRecv, .endServe, .endVisits]

private def firstPass : List Action :=
  [Action.listen nameServer 0, .arrive ⟨host, nameServer, [1]⟩ (some 0)] ++
    passAt ⟨0, 0⟩ [Action.take] ++ [Action.endPass]

theorem prompt_steady : ∃ q : State × Stamps, q.1.phase = .reaping ∧ q.1.size = 1 ∧
    q.1.clock.elapsed = 60000 ∧ Prompt q := by
  have h0 : stampedSystem.ReachUnder ClockAgrees (initial ⟨0, 0⟩, fun _ => ⟨0, 0⟩) :=
    .init ⟨⟨_, rfl⟩, rfl⟩
  have hr := h0.run (firstPass ++ passAt ⟨60001, 60000⟩ []) (by decide +kernel) rfl
  exact ⟨_, rfl, rfl, rfl, prompt_of_clockAgrees hr⟩

/-- The wall clock is set forward by a minute between two passes that follow at once. -/
theorem early_after_jump : ¬ ∀ q : State × Stamps, stampedSystem.Reachable q → Prompt q := by
  intro h
  have h0 : stampedSystem.Reachable (initial ⟨0, 0⟩, fun _ => ⟨0, 0⟩) := .init ⟨⟨_, rfl⟩, rfl⟩
  have hr := h0.run (firstPass ++ passAt ⟨60000, 5⟩ []) rfl
  obtain hcl | hidle := (h _ hr).kept 0 _ _ rfl rfl
  · exact Bool.false_ne_true hcl
  · exact absurd hidle (by decide)

end State

end NulConnect.UdpFlows
