import NulConnect.TunStack.Upload

/-! The upload channel of a flow between the stack loop and the writer thread: the counter of its
chunks, and their order. -/
namespace NulConnect.TunStack
open Transition

/-- The chunk that the writer thread has taken and not counted off. -/
def WriterThread.uncounted : WriterThread → ℕ
  | .writing _ | .written | .failed => 1
  | _ => 0

/-- The chunks drained from the socket, and those passed to `TcpTunnel::write`. -/
structure Passes where
  drained : List Chunk
  passed : List Chunk
deriving DecidableEq

namespace Passes

def none : Passes where
  drained := []
  passed := []

def record (u : Passes) (s : FlowState) : FlowAction → Passes
  | .recvSlice => { u with drained := u.drained ++ [(s.socket.recvSlice recvBufferSize).1] }
  | .writerRecv => { u with passed := u.passed ++ s.uploadQueue.take 1 }
  | _ => u

end Passes

/-- A flow together with its chunks. -/
def passes : System (FlowState × Passes) FlowAction := flowSystem.observe .none Passes.record

/-- The step does a `fetch_sub`: the writer thread after a write, the loop after a failed send. -/
def FlowState.subtracts (s : FlowState) : FlowAction → Bool
  | .writerFree => true
  | .send => !s.receiverAlive
  | _ => false

/-- The chunks written are the first of those drained, in order. While the writer thread has
neither failed nor ended, the counter has the chunks in the channel, the one that the thread holds
and the one that the loop is handing over; it stays within the capacity, as does the channel, and no
`fetch_sub` meets a zero. -/
structure Backpressure (s : FlowState) (u : Passes) : Prop where
  order : u.passed <+: u.drained
  counted : s.writer ≠ .failed → s.writer ≠ .ended → s.flow.uploadPending.toNat =
    s.uploadQueue.length + s.writer.uncounted + s.phase.drained.length
  handing : s.phase.drained.length ≤ 1
  pending : s.flow.uploadPending.toNat ≤ flowChannelCapacity
  queue : s.uploadQueue.length ≤ flowChannelCapacity
  subtracts : ∀ a t, s.step a = some t → s.subtracts a →
    t.flow.uploadPending.toNat + 1 = s.flow.uploadPending.toNat

namespace FlowState

variable {s t : FlowState} {a : FlowAction} {u : Passes}

/-- What every step keeps of the upload. `lost` is the chunk that could not be sent, and `left` what
the writer thread held when it ended. -/
structure Counting (s : FlowState) (u : Passes) : Prop where
  order : ∃ lost, u.drained = u.passed ++ s.uploadQueue ++ s.phase.drained ++ lost ∧
    (s.flow.remoteTx → lost = [])
  handing : s.phase.drained ≠ [] → s.flow.remoteTx
  counted : ∃ left, s.flow.uploadPending.toNat =
    s.uploadQueue.length + left + s.phase.drained.length ∧
      (s.writer ≠ .ended → left = s.writer.uncounted)
  pending : s.flow.uploadPending.toNat ≤ flowChannelCapacity
  unconnected : s.flow.connectRx → s.writer = .idle

theorem toNat_sub_one {x : UInt64} (h : 1 ≤ x.toNat) : (x - 1).toNat = x.toNat - 1 := by
  apply UInt64.toNat_sub_of_le
  rwa [UInt64.le_iff_toNat_le, UInt64.toNat_one]

namespace Counting

/-- Steps that leave the channel and the writer thread alone. -/
theorem congr (hs : s.Counting u) (hq : t.uploadQueue = s.uploadQueue) (hw : t.writer = s.writer)
    (hd : t.phase.drained = s.phase.drained)
    (hf : t.flow.uploadPending = s.flow.uploadPending ∧ t.flow.remoteTx = s.flow.remoteTx ∧
      (t.flow.connectRx → s.flow.connectRx)) : t.Counting u where
  order := by
    rw [hq, hd, hf.2.1]
    exact hs.order
  handing := by
    rw [hd, hf.2.1]
    exact hs.handing
  counted := by
    rw [hq, hw, hd, hf.1]
    exact hs.counted
  pending := hf.1 ▸ hs.pending
  unconnected h := hw.trans (hs.unconnected (hf.2.2 h))

/-- Steps of the writer thread that leave the channel alone. -/
theorem setWriter (hs : s.Counting u) (hi : s.writer ≠ .idle) {writer : WriterThread}
    (hw : writer ≠ .ended → s.writer ≠ .ended ∧ writer.uncounted = s.writer.uncounted)
    (ht : t.writer = writer) (hq : t.uploadQueue = s.uploadQueue)
    (hp : t.phase = s.phase) (hf : t.flow.uploadPending = s.flow.uploadPending ∧
      t.flow.remoteTx = s.flow.remoteTx ∧ t.flow.connectRx = s.flow.connectRx) :
    t.Counting u where
  order := by
    rw [hq, hp, hf.2.1]
    exact hs.order
  handing := by
    rw [hp, hf.2.1]
    exact hs.handing
  counted := by
    obtain ⟨left, hleft, hsame⟩ := hs.counted
    refine ⟨left, by rw [hq, hp, hf.1, hleft], fun hne => ?_⟩
    obtain ⟨hbefore, heq⟩ := hw (ht ▸ hne)
    rw [ht, heq]
    exact hsame hbefore
  pending := hf.1 ▸ hs.pending
  unconnected h := absurd (hs.unconnected (hf.2.2 ▸ h)) hi

theorem recvSlice (hs : s.Counting u) (h : s.step .recvSlice = some t) :
    t.Counting (u.record s .recvSlice) := by
  obtain ⟨⟨hp, hcan⟩, rfl⟩ := when_eq_some.mp h
  simp only [canDrain, Bool.and_eq_true, decide_eq_true_eq] at hcan
  obtain ⟨⟨hlt, htx⟩, -⟩ := hcan
  have hnone : s.phase.drained = [] := by simp [hp, FlowPhase.drained]
  have hadd : (s.flow.uploadPending + 1).toNat = s.flow.uploadPending.toNat + 1 := by
    rw [UInt64.toNat_add, Nat.mod_eq_of_lt]
    · rfl
    · have hcap : flowChannelCapacity = 8 := rfl
      rw [UInt64.toNat_one]
      omega
  obtain ⟨lost, horder, hlost⟩ := hs.order
  obtain ⟨left, hleft, hsame⟩ := hs.counted
  rw [hnone] at horder hleft
  rw [hlost htx] at horder
  constructor
  · refine ⟨[], ?_, fun _ => rfl⟩
    simp only [Passes.record, FlowPhase.drained, horder, List.append_nil]
  · exact fun _ => htx
  · refine ⟨left, ?_, hsame⟩
    simp only [FlowPhase.drained, hadd, hleft, List.length_nil, List.length_singleton]
  · rw [hadd]
    exact hlt
  · exact hs.unconnected

theorem send (hs : s.Counting u) (h : s.step .send = some t) : t.Counting u := by
  simp only [FlowState.step] at h
  split at h
  · rename_i data hp
    obtain rfl := Option.some.inj h
    have hheld : s.phase.drained = [data] := by rw [hp, FlowPhase.drained]
    have htx := hs.handing (by rw [hheld]; exact List.cons_ne_nil _ _)
    obtain ⟨lost, horder, hlost⟩ := hs.order
    obtain ⟨left, hleft, hsame⟩ := hs.counted
    rw [hheld] at horder hleft
    rw [hlost htx] at horder
    rw [List.length_singleton] at hleft
    unfold FlowState.send
    split_ifs with halive
    · constructor
      · exact ⟨[], by simpa [FlowPhase.drained] using horder, fun _ => rfl⟩
      · exact fun hne => absurd rfl hne
      · refine ⟨left, ?_, hsame⟩
        simp only [FlowPhase.drained, hleft, List.length_append, List.length_singleton,
          List.length_nil]
        omega
      · exact hs.pending
      · exact hs.unconnected
    · have hsub := toNat_sub_one (x := s.flow.uploadPending) (by omega)
      constructor
      · exact ⟨[data], by simpa [FlowPhase.drained] using horder, by simp⟩
      · exact fun hne => absurd rfl hne
      · refine ⟨left, ?_, hsame⟩
        simp only [FlowPhase.drained, giveUp, hsub, hleft, List.length_nil]
        omega
      · simp only [hsub]
        have hle := hs.pending
        omega
      · exact hs.unconnected
  · cases h

theorem tryConnect (hs : s.Counting u) (hd : s.phase.drained = []) {p : FlowPhase}
    (hp : p.drained = []) : { s.tryConnect with phase := p }.Counting u := by
  have hout : p.drained = s.phase.drained := hp.trans hd.symm
  unfold FlowState.tryConnect
  split_ifs with hc
  · have hidle := hs.unconnected hc
    split
    · obtain ⟨left, hleft, hsame⟩ := hs.counted
      have hzero : left = 0 := by
        rw [hsame (by rw [hidle]; simp), hidle]
        rfl
      refine ⟨?_, ?_, ⟨left, ?_, fun _ => ?_⟩, hs.pending, by simp⟩
      · simp only [startThreads, hout]
        exact hs.order
      · simp only [startThreads, hout]
        exact hs.handing
      · simp only [startThreads, hout]
        exact hleft
      · simp only [startThreads, hzero, hidle]
        split_ifs <;> rfl
    · exact hs.congr rfl rfl hout ⟨rfl, rfl, by simp⟩
    · exact hs.congr rfl rfl hout ⟨rfl, rfl, by simp⟩
    · exact hs.congr rfl rfl hout ⟨rfl, rfl, id⟩
  · exact hs.congr rfl rfl hout ⟨rfl, rfl, id⟩

theorem writerRecv (hs : s.Counting u) (h : s.step .writerRecv = some t) :
    t.Counting (u.record s .writerRecv) := by
  simp only [FlowState.step] at h
  split at h
  · rename_i data rest hq
    obtain ⟨hw, rfl⟩ := when_eq_some.mp h
    obtain ⟨lost, horder, hlost⟩ := hs.order
    obtain ⟨left, hleft, hsame⟩ := hs.counted
    have hzero : left = 0 := by
      rw [hsame (by rw [hw]; simp), hw]
      rfl
    rw [hq] at horder hleft
    constructor
    · refine ⟨lost, ?_, hlost⟩
      simp only [Passes.record, hq, horder]
      simp
    · exact hs.handing
    · refine ⟨1, ?_, fun _ => rfl⟩
      rw [List.length_cons] at hleft
      dsimp only
      omega
    · exact hs.pending
    · intro hc
      have hidle := hs.unconnected hc
      rw [hw] at hidle
      cases hidle
  · rename_i hq
    obtain ⟨⟨hw, -⟩, rfl⟩ := when_eq_some.mp h
    have hrecord : u.record s .writerRecv = u := by simp [Passes.record, hq]
    rw [hrecord]
    exact hs.setWriter (by rw [hw]; simp) (fun hne => absurd rfl hne) rfl rfl rfl
      ⟨rfl, rfl, rfl⟩

theorem writerFree (hs : s.Counting u) (h : s.step .writerFree = some t) : t.Counting u := by
  obtain ⟨hw, rfl⟩ := when_eq_some.mp h
  obtain ⟨left, hleft, hsame⟩ := hs.counted
  have hone : left = 1 := by
    rw [hsame (by rw [hw]; simp), hw]
    rfl
  have hsub := toNat_sub_one (x := s.flow.uploadPending) (by omega)
  have hle := hs.pending
  refine ⟨hs.order, hs.handing, ⟨0, ?_, fun _ => rfl⟩, ?_, ?_⟩
  · simp only [hsub]
    omega
  · simp only [hsub]
    omega
  · intro hc
    have hidle := hs.unconnected hc
    rw [hw] at hidle
    cases hidle

theorem step (hs : s.Counting u) (h : s.step a = some t) : t.Counting (u.record s a) := by
  cases a with
  | recvSlice => exact hs.recvSlice h
  | send => exact hs.send h
  | writerRecv => exact hs.writerRecv h
  | writerFree => exact hs.writerFree h
  | poll e =>
    obtain ⟨-, k, -, rfl⟩ := step_poll h
    exact hs.congr rfl rfl rfl ⟨rfl, rfl, id⟩
  | tryConnect =>
    obtain ⟨hp, rfl⟩ := when_eq_some.mp h
    refine hs.tryConnect (by simp [hp, FlowPhase.drained]) ?_
    split_ifs <;> rfl
  | visit | stopUpload | judge now | stopLoop =>
    obtain ⟨hp, rfl⟩ := when_eq_some.mp h
    have hd : s.phase.drained = [] := by simp [hp, FlowPhase.drained]
    exact hs.congr rfl rfl hd.symm ⟨rfl, rfl, id⟩
  | reap =>
    obtain ⟨hp, rfl⟩ := when_eq_some.mp h
    have hd : s.phase.drained = [] := by simp [hp, FlowPhase.drained]
    refine hs.congr rfl rfl (Eq.trans ?_ hd.symm) ⟨rfl, rfl, id⟩
    dsimp only
    split_ifs <;> rfl
  | tryRecv =>
    obtain ⟨hp, rfl⟩ := when_eq_some.mp h
    have hd : s.phase.drained = [] := by simp [hp, FlowPhase.drained]
    unfold FlowState.tryRecv
    split
    · exact hs.congr rfl rfl hd.symm ⟨rfl, rfl, id⟩
    · exact hs.congr rfl rfl hd.symm ⟨rfl, rfl, id⟩
    · exact hs.congr rfl rfl hd.symm ⟨rfl, rfl, id⟩
    · split_ifs
      · exact hs.congr rfl rfl hd.symm ⟨rfl, rfl, id⟩
      · exact hs.congr rfl rfl hd.symm ⟨rfl, rfl, id⟩
  | sendSlice =>
    obtain ⟨hp, rfl⟩ := when_eq_some.mp h
    have hd : s.phase.drained = [] := by simp [hp, FlowPhase.drained]
    unfold FlowState.sendSlice
    split
    · exact hs.congr rfl rfl hd.symm ⟨rfl, rfl, id⟩
    · split_ifs
      · refine hs.congr rfl rfl (Eq.trans ?_ hd.symm) ⟨rfl, rfl, id⟩
        dsimp only
        split_ifs <;> rfl
      · exact hs.congr rfl rfl hd.symm ⟨rfl, rfl, id⟩
  | closeSocket =>
    obtain ⟨hp, rfl⟩ := when_eq_some.mp h
    have hd : s.phase.drained = [] := by simp [hp, FlowPhase.drained]
    unfold FlowState.closeSocket
    split_ifs
    · exact hs.congr rfl rfl hd.symm ⟨rfl, rfl, id⟩
    · exact hs.congr rfl rfl hd.symm ⟨rfl, rfl, id⟩
  | connectReturns | connectDies | readerCheck =>
    obtain ⟨-, rfl⟩ := when_eq_some.mp h
    exact hs.congr rfl rfl rfl ⟨rfl, rfl, id⟩
  | readerRead data =>
    obtain ⟨-, rfl⟩ := when_eq_some.mp h
    split_ifs
    · exact hs.congr rfl rfl rfl ⟨rfl, rfl, id⟩
    · exact hs.congr rfl rfl rfl ⟨rfl, rfl, id⟩
  | readerSend =>
    simp only [FlowState.step] at h
    split at h
    · split_ifs at h
      · obtain rfl := Option.some.inj h
        exact hs.congr rfl rfl rfl ⟨rfl, rfl, id⟩
      · obtain ⟨-, rfl⟩ := when_eq_some.mp h
        exact hs.congr rfl rfl rfl ⟨rfl, rfl, id⟩
    · cases h
  | writerCheck =>
    obtain ⟨hw, rfl⟩ := when_eq_some.mp h
    refine hs.setWriter (by simp [hw]) ?_ rfl rfl rfl ⟨rfl, rfl, rfl⟩
    split_ifs
    · exact fun hne => absurd rfl hne
    · exact fun _ => by simp [hw, WriterThread.uncounted]
  | writerTimeout =>
    obtain ⟨⟨hw, -⟩, rfl⟩ := when_eq_some.mp h
    exact hs.setWriter (by simp [hw]) (fun _ => by simp [hw, WriterThread.uncounted]) rfl rfl rfl
      ⟨rfl, rfl, rfl⟩
  | writerWrite ok =>
    simp only [FlowState.step] at h
    split at h
    · rename_i data hw
      split_ifs at h
      all_goals
        obtain rfl := Option.some.inj h
        exact hs.setWriter (by simp [hw]) (fun _ => by simp [hw, WriterThread.uncounted]) rfl rfl
          rfl ⟨rfl, rfl, rfl⟩
    · cases h
  | writerDies =>
    simp only [FlowState.step] at h
    split at h
    · rename_i data hw
      obtain rfl := Option.some.inj h
      exact hs.setWriter (by simp [hw]) (fun hne => absurd rfl hne) rfl rfl rfl ⟨rfl, rfl, rfl⟩
    · cases h
  | writerBreak =>
    obtain ⟨hw, rfl⟩ := when_eq_some.mp h
    exact hs.setWriter (by simp [hw]) (fun hne => absurd rfl hne) rfl rfl rfl ⟨rfl, rfl, rfl⟩

/-- A `fetch_sub` takes off a chunk that has been counted. -/
theorem subtracts (hs : s.Counting u) (h : s.step a = some t) (ha : s.subtracts a) :
    t.flow.uploadPending.toNat + 1 = s.flow.uploadPending.toNat := by
  obtain ⟨left, hleft, hsame⟩ := hs.counted
  cases a with
  | writerFree =>
    obtain ⟨hw, rfl⟩ := when_eq_some.mp h
    have hone : left = 1 := by
      rw [hsame (by rw [hw]; simp), hw]
      rfl
    have hsub := toNat_sub_one (x := s.flow.uploadPending) (by omega)
    simp only [hsub]
    omega
  | send =>
    simp only [FlowState.step] at h
    split at h
    · rename_i data hp
      obtain rfl := Option.some.inj h
      have hheld : s.phase.drained = [data] := by rw [hp, FlowPhase.drained]
      rw [hheld, List.length_singleton] at hleft
      have hgone : ¬ s.receiverAlive := by simpa [FlowState.subtracts] using ha
      have hsub := toNat_sub_one (x := s.flow.uploadPending) (by omega)
      simp only [FlowState.send, if_neg hgone, hsub]
      omega
    · cases h
  | poll | visit | tryConnect | recvSlice | stopUpload | tryRecv | sendSlice | closeSocket | judge
  | reap | stopLoop | connectReturns | connectDies | readerCheck | readerRead | readerSend
  | writerCheck | writerRecv | writerTimeout | writerWrite | writerDies | writerBreak => cases ha

end Counting

theorem counting_of_reachable (h : passes.Reachable (s, u)) : s.Counting u := by
  refine h.invariant (I := fun q => q.1.Counting q.2) ?_ ?_
  · rintro ⟨s, u⟩ ⟨⟨k, now, -, hs⟩, hu⟩
    dsimp only at hs hu
    subst hs hu
    exact ⟨⟨[], rfl, fun _ => rfl⟩, fun hne => absurd rfl hne, ⟨0, rfl, fun _ => rfl⟩,
      Nat.zero_le _, fun _ => rfl⟩
  · rintro ⟨s, u⟩ a ⟨t, u'⟩ _ hs - ht
    obtain ⟨hstep, hu⟩ := System.observe_step.mp ht
    dsimp only at hstep hu hs ⊢
    rw [hu]
    exact hs.step hstep

/-- Whatever the order of the loop and the writer thread, and whichever write fails. -/
theorem backpressure_of_reachable (h : passes.Reachable (s, u)) : Backpressure s u := by
  have hs := counting_of_reachable h
  obtain ⟨left, hleft, hsame⟩ := hs.counted
  have hpending := hs.pending
  constructor
  · obtain ⟨lost, horder, -⟩ := hs.order
    refine ⟨s.uploadQueue ++ s.phase.drained ++ lost, ?_⟩
    rw [horder]
    simp
  · intro _ hended
    rw [← hsame hended]
    exact hleft
  · cases s.phase <;> simp [FlowPhase.drained]
  · exact hpending
  · omega
  · exact fun a t hstep ha => hs.subtracts hstep ha

/-- The app sends a byte, and then another one after the writer thread has failed on the first. -/
theorem backpressure_failedWrite : ∃ (s : FlowState) (u : Passes),
    u.drained = [[7], [8]] ∧ u.passed = [[7]] ∧ s.uploadQueue = [[8]] ∧ Backpressure s u := by
  have h0 : passes.Reachable
      (.started (.afterSyn ⟨.ofOctets 10 0 0 1, 80⟩ ⟨.ofOctets 10 8 0 2, 50000⟩) 0, .none) :=
    .init ⟨⟨_, 0, Socket.taken_afterSyn _ _, rfl⟩, rfl⟩
  have h := h0.run [.connectReturns true, .tryConnect, .stopUpload, .tryRecv, .closeSocket,
    .judge 0, .reap, .poll .transmitSynAck, .poll .handshake, .poll (.data [7]), .visit,
    .tryConnect, .recvSlice, .send, .stopUpload, .tryRecv, .closeSocket, .judge 0, .reap,
    .writerCheck, .writerRecv, .poll (.data [8]), .visit, .tryConnect, .writerWrite false,
    .recvSlice, .send] rfl
  exact ⟨_, _, rfl, rfl, rfl, backpressure_of_reachable h⟩

end FlowState

end NulConnect.TunStack
