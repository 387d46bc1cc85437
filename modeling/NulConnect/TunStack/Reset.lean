import NulConnect.TunStack.FlowSteps

/-! Flows that the stack gives up: what the app is told of it. -/
namespace NulConnect.TunStack
open Transition

variable {k k' : Socket} {e : PollEvent}

/-- Of the sockets without a state of their own in the stack: a listening socket has no far
end, and none is opened by the stack. -/
structure Socket.Passive (k : Socket) : Prop where
  listen : k.state = .listen → k.tuple = none
  synSent : k.state ≠ .synSent

namespace Socket

theorem Taken.passive (hk : k.Taken) : k.Passive := by
  obtain h | h | h := hk.state
  all_goals exact ⟨by simp [h], by simp [h]⟩

theorem Passive.poll (hk : k.Passive) (h : k.poll e = some k') : k'.Passive := by
  cases e with
  | fin =>
    obtain ⟨⟨hf, -⟩, rfl⟩ := when_eq_some.mp h
    cases hs : k.state <;> simp [hs, TcpState.afterFin] at hf ⊢
    all_goals exact ⟨by simp, by simp⟩
  | finAck =>
    obtain ⟨⟨hq, -⟩, rfl⟩ := when_eq_some.mp h
    cases hs : k.state <;> simp [hs, TcpState.finQueued, TcpState.afterFinAck] at hq ⊢
    all_goals exact ⟨by simp, by simp⟩
  | rst =>
    obtain ⟨-, rfl⟩ := when_eq_some.mp h
    refine ⟨fun _ => rfl, ?_⟩
    dsimp only
    split_ifs
    all_goals simp
  | syn | handshake | expire | transmitRst =>
    obtain ⟨hs, rfl⟩ := when_eq_some.mp h
    exact ⟨by simp [hs], by simp [hs]⟩
  | data | ack | transmitSynAck | transmit | transmitFin =>
    obtain ⟨-, rfl⟩ := when_eq_some.mp h
    exact ⟨hk.listen, hk.synSent⟩

/-- A poll forgets the far end of a connection that it closes. -/
theorem poll_closed (hk : k.state = .closed → k.tuple = none) (h : k.poll e = some k') :
    (k'.state = .closed → k'.tuple = none) ∧ .rst ∉ k.emits e := by
  cases e with
  | fin =>
    obtain ⟨⟨hf, -⟩, rfl⟩ := when_eq_some.mp h
    refine ⟨fun hc => ?_, by simp [emits]⟩
    cases hs : k.state <;> simp [hs, TcpState.afterFin] at hf hc
  | finAck =>
    obtain ⟨⟨hq, -⟩, rfl⟩ := when_eq_some.mp h
    refine ⟨fun hc => ?_, by simp [emits]⟩
    cases hs : k.state <;> simp [hs, TcpState.finQueued, TcpState.afterFinAck] at hq hc ⊢
  | transmitRst =>
    obtain ⟨⟨hc, ht⟩, rfl⟩ := when_eq_some.mp h
    exact absurd (hk hc) ht
  | rst | expire =>
    obtain ⟨-, rfl⟩ := when_eq_some.mp h
    exact ⟨fun _ => rfl, by simp [emits]⟩
  | syn | handshake =>
    obtain ⟨-, rfl⟩ := when_eq_some.mp h
    exact ⟨by simp, by simp [emits]⟩
  | data | ack | transmitSynAck | transmit | transmitFin =>
    obtain ⟨-, rfl⟩ := when_eq_some.mp h
    exact ⟨hk, by simp [emits]⟩

theorem Passive.close (hk : k.Passive) : k.close.Passive ∧
    (k.close.state = .closed → k.close.tuple ≠ none → k.state = .closed) := by
  obtain ⟨hl, hn⟩ := hk
  unfold Socket.close
  cases hs : k.state
  case listen =>
    have ht := hl hs
    exact ⟨⟨by simp, by simp⟩, fun _ h => absurd ht h⟩
  case synSent => exact absurd hs hn
  all_goals exact ⟨⟨by simp, by simp⟩, by simp⟩

end Socket

namespace FlowState

variable {s t : FlowState} {a : FlowAction}

/-- The next thing that happens to the socket is its removal. -/
structure Doomed (s : FlowState) : Prop where
  closed : s.flow.closed
  phase : s.phase ≠ .polling

theorem tryConnect_closed (hc : s.flow.closed) : s.tryConnect.flow.closed := by
  unfold tryConnect
  split_ifs
  · split
    · exact hc
    · rfl
    · rfl
    · exact hc
  · exact hc

theorem Doomed.step (hs : s.Doomed) (h : s.step a = some t) : t.Doomed := by
  obtain ⟨hc, hp⟩ := hs
  cases a with
  | poll e =>
    simp only [FlowState.step, if_neg hp] at h
    cases h
  | visit | stopLoop =>
    obtain ⟨hpp, rfl⟩ := when_eq_some.mp h
    exact absurd hpp hp
  | tryConnect =>
    obtain ⟨-, rfl⟩ := when_eq_some.mp h
    constructor
    · exact tryConnect_closed hc
    · dsimp only
      split_ifs
      all_goals simp
  | send =>
    simp only [FlowState.step] at h
    split at h
    · obtain rfl := Option.some.inj h
      unfold send
      split_ifs
      · exact ⟨hc, by simp⟩
      · exact ⟨rfl, by simp⟩
    · cases h
  | tryRecv =>
    obtain ⟨-, rfl⟩ := when_eq_some.mp h
    unfold tryRecv
    split
    any_goals split_ifs
    all_goals exact ⟨hc, by simp⟩
  | sendSlice =>
    obtain ⟨-, rfl⟩ := when_eq_some.mp h
    unfold sendSlice
    split
    · exact ⟨hc, by simp⟩
    · split_ifs
      · refine ⟨hc, ?_⟩
        dsimp only
        split_ifs
        all_goals simp
      · exact ⟨hc, by simp⟩
  | closeSocket =>
    obtain ⟨-, rfl⟩ := when_eq_some.mp h
    unfold closeSocket
    split_ifs
    all_goals exact ⟨hc, by simp⟩
  | judge now =>
    obtain ⟨-, rfl⟩ := when_eq_some.mp h
    exact ⟨by simp [judge, hc], by simp [judge]⟩
  | reap =>
    obtain ⟨-, rfl⟩ := when_eq_some.mp h
    exact ⟨hc, by simp [hc]⟩
  | recvSlice | stopUpload =>
    obtain ⟨-, rfl⟩ := when_eq_some.mp h
    exact ⟨hc, by simp⟩
  | readerRead =>
    obtain ⟨-, rfl⟩ := when_eq_some.mp h
    split_ifs
    all_goals exact ⟨hc, hp⟩
  | readerSend =>
    simp only [FlowState.step] at h
    split at h
    · split_ifs at h
      · obtain rfl := Option.some.inj h
        exact ⟨hc, hp⟩
      · obtain ⟨-, rfl⟩ := when_eq_some.mp h
        exact ⟨hc, hp⟩
    · cases h
  | writerRecv =>
    simp only [FlowState.step] at h
    split at h
    all_goals obtain ⟨-, rfl⟩ := when_eq_some.mp h
    all_goals exact ⟨hc, hp⟩
  | writerWrite ok =>
    simp only [FlowState.step] at h
    split at h
    · split_ifs at h
      · cases h
        exact ⟨hc, hp⟩
      · cases h
        exact ⟨rfl, hp⟩
    · cases h
  | writerDies =>
    simp only [FlowState.step] at h
    split at h
    all_goals cases h
    exact ⟨hc, hp⟩
  | connectReturns | connectDies | readerCheck | writerCheck | writerTimeout | writerFree
  | writerBreak =>
    obtain ⟨-, rfl⟩ := when_eq_some.mp h
    exact ⟨hc, hp⟩

theorem doomed_of_givesUp (hg : s.givesUp a) (h : s.step a = some t) : t.Doomed := by
  cases a with
  | tryConnect =>
    obtain ⟨-, rfl⟩ := when_eq_some.mp h
    obtain ⟨hr, hc⟩ : s.flow.connectRx ∧ (s.connect = .sent false ∨ s.connect = .dead) := by
      simpa [givesUp] using hg
    constructor
    · unfold tryConnect
      rw [if_pos hr]
      obtain hc | hc := hc
      all_goals rw [hc]
      all_goals rfl
    · dsimp only
      split_ifs
      all_goals simp
  | send =>
    have ha : ¬ s.receiverAlive := by simpa [givesUp] using hg
    simp only [FlowState.step] at h
    split at h
    · obtain rfl := Option.some.inj h
      unfold send
      rw [if_neg ha]
      exact ⟨rfl, by simp⟩
    · cases h
  | _ => cases hg

/-- An aborted connection whose RST is still due belongs to a flow that is given up. -/
structure Unreset (s : FlowState) : Prop where
  rst : .rst ∉ s.wire
  passive : s.socket.Passive
  aborted : s.socket.state = .closed → s.socket.tuple ≠ none → s.Doomed

theorem unreset_started (k : Socket) (now : ℕ) (hk : k.Taken) : (started k now).Unreset where
  rst h := by simp [started] at h
  passive := hk.passive
  aborted h := by
    obtain hs | hs | hs := hk.state
    all_goals simp [started, hs] at h

theorem Unreset.step (hs : s.Unreset) (h : s.step a = some t) : t.Unreset := by
  by_cases ha : ∃ e, a = .poll e
  · obtain ⟨e, rfl⟩ := ha
    obtain ⟨hp, k, hk, rfl⟩ := step_poll h
    have hopen : s.socket.state = .closed → s.socket.tuple = none := by
      intro hc
      by_contra ht
      exact (hs.aborted hc ht).phase hp
    obtain ⟨hclosed, hrst⟩ := Socket.poll_closed hopen hk
    refine ⟨?_, hs.passive.poll hk, fun hc ht => absurd (hclosed hc) ht⟩
    simp [hs.rst, hrst]
  · have hd (hsd : s.Doomed) : t.Doomed := hsd.step h
    obtain ⟨hw, hk⟩ := socket_of_step h fun e he => ha ⟨e, he⟩
    have hrst : .rst ∉ t.wire := hw ▸ hs.rst
    obtain hk | ⟨hk, hg⟩ | hk := hk
    · refine ⟨hrst, ⟨fun hl => ?_, fun hl => ?_⟩, fun hc ht => ?_⟩
      · exact hk.tuple ▸ hs.passive.listen (hk.state ▸ hl)
      · exact hs.passive.synSent (hk.state ▸ hl)
      · exact hd (hs.aborted (hk.state ▸ hc) (hk.tuple ▸ ht))
    · refine ⟨hrst, ?_, fun _ _ => doomed_of_givesUp hg h⟩
      rw [hk]
      exact ⟨by simp [Socket.abort], by simp [Socket.abort]⟩
    · obtain ⟨hpass, hclosed⟩ := hs.passive.close
      refine ⟨hrst, hk ▸ hpass, fun hc ht => ?_⟩
      rw [hk] at hc ht
      exact hd (hs.aborted (hclosed hc ht) ht)

theorem unreset_of_reachable (h : flowSystem.Reachable s) : s.Unreset := by
  refine h.invariant ?_ ?_
  · rintro s ⟨k, now, hk, rfl⟩
    exact unreset_started k now hk
  · intro s a t _ hs _ ht
    exact hs.step ht

end FlowState

/-- What has happened since a flow was given up: the visits, each of which comes after a
poll. -/
structure Aftermath where
  gaveUp : Bool
  polls : ℕ

def Aftermath.record (w : Aftermath) (s : FlowState) (a : FlowAction) : Aftermath :=
  if s.givesUp a then { gaveUp := true, polls := 0 }
  else if a = .visit then { w with polls := w.polls + 1 }
  else w

/-- The life of a flow together with what follows its end. -/
def aftermaths : System (FlowState × Aftermath) FlowAction :=
  flowSystem.observe { gaveUp := false, polls := 0 } Aftermath.record

/-- A flow that is given up is removed after a poll, which sends a RST. -/
def ResetsApp (p : FlowState × Aftermath) : Prop :=
  p.2.gaveUp → p.1.phase = .removed → 0 < p.2.polls ∧ .rst ∈ p.1.wire

variable {p q : FlowState × Aftermath} {a : FlowAction}

/-- From the step that gives the flow up there is no poll. -/
def Unpolled (p : FlowState × Aftermath) : Prop := p.2.gaveUp → p.1.Doomed ∧ p.2.polls = 0

theorem Unpolled.step (hp : Unpolled p) (h : aftermaths.step p a = some q) : Unpolled q := by
  obtain ⟨hs, hw⟩ := System.observe_step.mp h
  rw [Unpolled, hw]
  unfold Aftermath.record
  split_ifs with hg hv
  · exact fun _ => ⟨FlowState.doomed_of_givesUp hg hs, rfl⟩
  · subst a
    intro hgave
    have hpoll : p.1.phase = .polling := (when_eq_some.mp hs).1
    exact absurd hpoll (hp hgave).1.phase
  · exact fun hgave => ⟨(hp hgave).1.step hs, (hp hgave).2⟩

/-- The stack never resets a connection whose flow it gives up: it removes the socket before
the next poll. -/
theorem not_resetsApp (h : aftermaths.Reachable p) (hg : p.2.gaveUp) (hr : p.1.phase = .removed) :
    ¬ ResetsApp p ∧ p.2.polls = 0 ∧ .rst ∉ p.1.wire := by
  have hu : Unpolled p := by
    refine h.invariant ?_ ?_
    · rintro ⟨s, w⟩ ⟨-, rfl⟩ hgave
      cases hgave
    · intro p a q _ hp _ hq
      exact hp.step hq
  have hreach : flowSystem.ReachUnder (fun _ _ => True) p.1 := System.ReachUnder.of_observe h
  have hrst := (FlowState.unreset_of_reachable hreach).rst
  exact ⟨fun hres => hrst (hres hg hr).2, (hu hg).2, hrst⟩

/-- The route check refuses a connection whose handshake is over. -/
private def refused : List FlowAction :=
  [.tryConnect, .judge 0, .reap, .poll .transmitSynAck, .poll .handshake,
    .connectReturns false, .visit, .tryConnect, .judge 0, .reap]

private def refusedStart : FlowState :=
  .started (.afterSyn ⟨.ofOctets 198 19 0 2, 22⟩ ⟨.ofOctets 10 8 0 2, 50001⟩) 0

private theorem refusedStart_init :
    aftermaths.init (refusedStart, { gaveUp := false, polls := 0 }) :=
  ⟨⟨_, 0, Socket.taken_afterSyn _ _, rfl⟩, rfl⟩

theorem not_resetsApp_refused : ∃ p : FlowState × Aftermath,
    p.2.gaveUp ∧ p.1.phase = .removed ∧ ¬ ResetsApp p := by
  have h0 : aftermaths.Reachable (refusedStart, { gaveUp := false, polls := 0 }) :=
    .init refusedStart_init
  have hr := System.Reachable.run h0 refused rfl
  exact ⟨_, rfl, rfl, (not_resetsApp hr rfl rfl).1⟩

theorem refused_without_reset :
    ¬ ∀ p : FlowState × Aftermath, aftermaths.Reachable p → ResetsApp p := by
  intro h
  have h0 : aftermaths.Reachable (refusedStart, { gaveUp := false, polls := 0 }) :=
    .init refusedStart_init
  have hr := System.Reachable.run h0 refused rfl
  exact absurd (h _ hr rfl rfl).1 (by decide)

end NulConnect.TunStack
