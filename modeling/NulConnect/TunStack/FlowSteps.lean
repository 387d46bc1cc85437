import NulConnect.TunStack.Flow

/-! What the steps of a flow do to its socket. -/
namespace NulConnect.TunStack
open Transition

namespace Socket

/-- Nothing has been received or sent on the socket. -/
structure Unused (k : Socket) : Prop where
  rx : k.rx = []
  inFlight : k.inFlight = []
  unsent : k.unsent = []
  finSent : k.finSent = false

/-- The socket is used without changing its connection. -/
structure Same (k k' : Socket) : Prop where
  state : k'.state = k.state
  tuple : k'.tuple = k.tuple
  endpoint : k'.listenEndpoint = k.listenEndpoint
  unused : ¬ k.maySend → k.Unused → k'.Unused

@[simp] theorem Same.rfl {k : Socket} : k.Same k := ⟨Eq.refl _, Eq.refl _, Eq.refl _, fun _ h => h⟩

theorem same_sendSlice (k : Socket) (data : Chunk) : k.Same (k.sendSlice data) where
  state := rfl
  tuple := rfl
  endpoint := rfl
  unused hm hu := by
    refine ⟨hu.rx, hu.inFlight, ?_, hu.finSent⟩
    simp [sendSlice, writes, hm, hu.unsent]

theorem same_recvSlice (k : Socket) (size : ℕ) : k.Same (k.recvSlice size).2 where
  state := rfl
  tuple := rfl
  endpoint := rfl
  unused _ hu := ⟨by simp [recvSlice, hu.rx], hu.inFlight, hu.unsent, hu.finSent⟩

end Socket

namespace FlowState

variable {s t : FlowState} {a : FlowAction}

/-- The stack gives the flow up: the connection is refused or fails, or the writer thread is
found gone. -/
def givesUp (s : FlowState) : FlowAction → Bool
  | .tryConnect => s.flow.connectRx && (s.connect = .sent false || s.connect = .dead)
  | .send => !s.receiverAlive
  | _ => false

/-- Between two polls nothing goes out, and the socket is kept in its state, aborted with its
flow given up, or closed. -/
theorem socket_of_step (h : s.step a = some t) (ha : ∀ e, a ≠ .poll e) : t.wire = s.wire ∧
    (s.socket.Same t.socket ∨
      t.socket = s.socket.abort ∧ s.givesUp a ∨ t.socket = s.socket.close) := by
  cases a with
  | poll e => exact absurd rfl (ha e)
  | tryConnect =>
    obtain ⟨-, rfl⟩ := when_eq_some.mp h
    cases hr : s.flow.connectRx
    · simp [tryConnect, hr]
    · cases hc : s.connect with
      | sent ok => cases ok <;> simp [tryConnect, givesUp, hr, hc]
      | running | dead => simp [tryConnect, givesUp, hr, hc]
  | send =>
    simp only [FlowState.step] at h
    split at h
    · obtain rfl := Option.some.inj h
      cases hr : s.receiverAlive
      all_goals simp [send, givesUp, hr]
    · cases h
  | tryRecv =>
    obtain ⟨-, rfl⟩ := when_eq_some.mp h
    unfold tryRecv
    split
    any_goals split_ifs
    all_goals exact ⟨rfl, .inl .rfl⟩
  | sendSlice =>
    obtain ⟨-, rfl⟩ := when_eq_some.mp h
    unfold sendSlice
    split
    · exact ⟨rfl, .inl .rfl⟩
    · split_ifs
      · exact ⟨rfl, .inl (Socket.same_sendSlice _ _)⟩
      · exact ⟨rfl, .inl .rfl⟩
  | recvSlice =>
    obtain ⟨-, rfl⟩ := when_eq_some.mp h
    exact ⟨rfl, .inl (Socket.same_recvSlice _ _)⟩
  | closeSocket =>
    obtain ⟨-, rfl⟩ := when_eq_some.mp h
    unfold closeSocket
    split_ifs
    · exact ⟨rfl, .inr (.inr rfl)⟩
    · exact ⟨rfl, .inl .rfl⟩
  | readerRead =>
    obtain ⟨-, rfl⟩ := when_eq_some.mp h
    split_ifs
    all_goals exact ⟨rfl, .inl .rfl⟩
  | readerSend =>
    simp only [FlowState.step] at h
    split at h
    · split_ifs at h
      · obtain rfl := Option.some.inj h
        exact ⟨rfl, .inl .rfl⟩
      · obtain ⟨-, rfl⟩ := when_eq_some.mp h
        exact ⟨rfl, .inl .rfl⟩
    · cases h
  | writerRecv =>
    simp only [FlowState.step] at h
    split at h
    all_goals obtain ⟨-, rfl⟩ := when_eq_some.mp h
    all_goals exact ⟨rfl, .inl .rfl⟩
  | writerWrite ok =>
    simp only [FlowState.step] at h
    split at h
    · split_ifs at h
      all_goals cases h
      all_goals exact ⟨rfl, .inl .rfl⟩
    · cases h
  | writerDies =>
    simp only [FlowState.step] at h
    split at h
    all_goals cases h
    exact ⟨rfl, .inl .rfl⟩
  | visit | stopUpload | judge | reap | stopLoop | connectReturns | connectDies
  | readerCheck | writerCheck | writerTimeout | writerFree | writerBreak =>
    obtain ⟨-, rfl⟩ := when_eq_some.mp h
    exact ⟨rfl, .inl .rfl⟩

/-- The threads of a flow touch neither its socket nor the visit of the loop. -/
theorem threads_step (h : s.step a = some t) (ha : a.threads) : t.socket = s.socket ∧
    t.phase = s.phase ∧ (s.flow.closed → t.flow.closed) := by
  cases a with
  | poll | visit | tryConnect | recvSlice | send | stopUpload | tryRecv | sendSlice | closeSocket
  | judge | reap | stopLoop => cases ha
  | readerRead =>
    obtain ⟨-, rfl⟩ := when_eq_some.mp h
    split_ifs
    all_goals exact ⟨rfl, rfl, id⟩
  | readerSend =>
    simp only [FlowState.step] at h
    split at h
    · split_ifs at h
      · obtain rfl := Option.some.inj h
        exact ⟨rfl, rfl, id⟩
      · obtain ⟨-, rfl⟩ := when_eq_some.mp h
        exact ⟨rfl, rfl, id⟩
    · cases h
  | writerRecv =>
    simp only [FlowState.step] at h
    split at h
    all_goals obtain ⟨-, rfl⟩ := when_eq_some.mp h
    all_goals exact ⟨rfl, rfl, id⟩
  | writerWrite ok =>
    simp only [FlowState.step] at h
    split at h
    · split_ifs at h
      · cases h
        exact ⟨rfl, rfl, id⟩
      · cases h
        exact ⟨rfl, rfl, fun _ => rfl⟩
    · cases h
  | writerDies =>
    simp only [FlowState.step] at h
    split at h
    all_goals cases h
    exact ⟨rfl, rfl, id⟩
  | connectReturns | connectDies | readerCheck | writerCheck | writerTimeout | writerFree
  | writerBreak =>
    obtain ⟨-, rfl⟩ := when_eq_some.mp h
    exact ⟨rfl, rfl, id⟩

end FlowState

end NulConnect.TunStack
