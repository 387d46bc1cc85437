import NulConnect.TunStack.Flow

/-! The download direction of a flow: what the tunnel delivered is on the wire, in the
socket, in the flow or with the reader thread, and in which order. -/
namespace NulConnect.TunStack
open Transition

@[simp] def Segment.bytes : Segment → Chunk
  | .data bytes => bytes
  | .synAck | .fin | .rst => []

/-- The chunk a reader waits to hand over. -/
def ReaderThread.held : ReaderThread → Chunk
  | .sending data => data
  | _ => []

/-- The unwritten rest of `download_pending`. -/
def TcpFlow.pendingRest (f : TcpFlow) : Chunk :=
  f.downloadPending.elim [] fun p => p.1.drop p.2

/-- The chunks waiting in the channel from the reader thread. -/
def TcpFlow.queued (f : TcpFlow) : Chunk := (f.remoteRx.getD []).flatten

namespace FlowState

def wireBytes (s : FlowState) : Chunk := s.wire.flatMap Segment.bytes

/-- The download stream, from the wire back to the reader thread. -/
def download (s : FlowState) : Chunk :=
  s.wireBytes ++ s.socket.unsent ++ s.flow.pendingRest ++ s.flow.queued ++ s.reader.held

end FlowState

variable {s t : FlowState} {a : FlowAction} {k k' : Socket} {e : PollEvent}

/-- A poll moves queued bytes to the wire and changes nothing else of the download stream. -/
theorem Socket.poll_stream (h : k.poll e = some k') :
    (k.emits e).flatMap Segment.bytes ++ k'.unsent = k.unsent := by
  cases e with
  | transmit n =>
    obtain ⟨-, rfl⟩ := when_eq_some.mp h
    simp [Socket.emits]
  | syn | handshake | data | ack | finAck | fin | rst | expire | transmitSynAck | transmitFin
  | transmitRst =>
    obtain ⟨-, rfl⟩ := when_eq_some.mp h
    rfl

namespace FlowState

theorem sendSlice_stream (k : Socket) (data : Chunk) :
    (k.sendSlice data).unsent ++ data.drop (k.writes data) = k.unsent ++ data := by
  simp [Socket.sendSlice]

@[simp] theorem tryConnect_phase (s : FlowState) : s.tryConnect.phase = s.phase := by
  unfold tryConnect
  split_ifs
  · split
    all_goals rfl
  · rfl

/-- What the loop does with the socket and the flow in a visit leaves the stream as it is. -/
theorem download_tryConnect (s : FlowState) (hr : s.flow.remoteRx = none)
    (hi : s.reader = .idle) : s.tryConnect.download = s.download := by
  unfold tryConnect
  split_ifs
  · split
    · simp [download, wireBytes, TcpFlow.pendingRest, TcpFlow.queued, ReaderThread.held, hr, hi]
    · rfl
    · rfl
    · rfl
  · rfl

theorem download_tryRecv (s : FlowState) : s.tryRecv.download = s.download := by
  unfold tryRecv
  split
  · rfl
  · rfl
  · rename_i data rest hp hr
    simp [download, wireBytes, TcpFlow.pendingRest, TcpFlow.queued, hp, hr]
  · split_ifs
    · rfl
    · rfl

theorem download_sendSlice (s : FlowState) : s.sendSlice.download = s.download := by
  unfold sendSlice
  split
  · rfl
  · rename_i data offset hp
    split_ifs with hc
    · have hs := sendSlice_stream s.socket (data.drop offset)
      have hw (w : ℕ) : (if offset + w < data.length then some (data, offset + w) else none).elim []
          (fun p => p.1.drop p.2) = (data.drop offset).drop w := by
        split_ifs with hlt
        · simp
        · simp [List.drop_eq_nil_of_le (show data.length ≤ offset + w by omega)]
      simp only [download, wireBytes, TcpFlow.pendingRest, TcpFlow.queued, hp, hw]
      simp [← hs]
    · rfl

/-- A flow that waits for its connection has no reader thread yet. -/
def Unconnected (s : FlowState) : Prop := s.flow.remoteRx = none ∧ s.reader = .idle

structure Streams (s : FlowState) : Prop where
  unconnected : s.flow.connectRx → s.Unconnected
  stream : ¬ s.phase.gone → s.download = s.delivered.flatten

theorem streams_started (k : Socket) (now : ℕ) (hk : k.unsent = []) :
    (started k now).Streams where
  unconnected _ := ⟨rfl, rfl⟩
  stream _ := by
    simp [started, download, wireBytes, TcpFlow.accepted, TcpFlow.pendingRest, TcpFlow.queued,
      ReaderThread.held, hk]

namespace Streams

theorem move (hs : s.Streams) (hg : ¬ s.phase.gone) (p : FlowPhase) :
    { s with phase := p }.Streams := ⟨hs.unconnected, fun _ => hs.stream hg⟩

theorem tryConnect (hs : s.Streams) (hg : ¬ s.phase.gone) : s.tryConnect.Streams := by
  have hst := hs.stream hg
  unfold FlowState.tryConnect
  split_ifs with hc
  · have hu := hs.unconnected hc
    have hd := download_tryConnect s hu.1 hu.2
    simp only [FlowState.tryConnect, if_pos hc] at hd
    split
    · rename_i hok
      rw [hok] at hd
      exact ⟨fun hf => Bool.noConfusion hf, fun _ => hd.trans hst⟩
    · exact ⟨fun hf => Bool.noConfusion hf, fun _ => hst⟩
    · exact ⟨fun hf => Bool.noConfusion hf, fun _ => hst⟩
    · exact hs
  · exact hs

theorem send (hs : s.Streams) (hg : ¬ s.phase.gone) (data : Chunk) : (s.send data).Streams := by
  have hst := hs.stream hg
  unfold FlowState.send
  split_ifs
  · exact ⟨hs.unconnected, fun _ => hst⟩
  · exact ⟨hs.unconnected, fun _ => hst⟩

theorem tryRecv (hs : s.Streams) (hg : ¬ s.phase.gone) : s.tryRecv.Streams := by
  have hd := (download_tryRecv s).trans (hs.stream hg)
  revert hd
  unfold FlowState.tryRecv
  split
  · exact fun _ => hs.move hg _
  · exact fun _ => hs.move hg _
  · rename_i hr
    refine fun hd => ⟨fun hu => ?_, fun _ => hd⟩
    have hn := (hs.unconnected hu).1
    rw [hr] at hn
    cases hn
  · split_ifs
    · exact fun hd => ⟨hs.unconnected, fun _ => hd⟩
    · exact fun _ => hs.move hg _

theorem sendSlice (hs : s.Streams) (hg : ¬ s.phase.gone) : s.sendSlice.Streams := by
  have hd := (download_sendSlice s).trans (hs.stream hg)
  revert hd
  unfold FlowState.sendSlice
  split
  · exact fun _ => hs.move hg _
  · split_ifs
    · exact fun hd => ⟨hs.unconnected, fun _ => hd⟩
    · exact fun _ => hs.move hg _

theorem closeSocket (hs : s.Streams) (hg : ¬ s.phase.gone) : s.closeSocket.Streams := by
  have hst := hs.stream hg
  unfold FlowState.closeSocket
  split_ifs
  · exact ⟨hs.unconnected, fun _ => hst⟩
  · exact hs.move hg _

theorem readerSend (hs : s.Streams) (h : s.step .readerSend = some t) : t.Streams := by
  simp only [FlowState.step] at h
  split at h
  · rename_i data queue hp hr
    have hu : ¬ s.flow.connectRx := fun hc => by simp [(hs.unconnected hc).2] at hp
    split_ifs at h with hg
    · obtain rfl := Option.some.inj h
      exact ⟨fun hc => absurd hc hu, fun hg' => absurd hg hg'⟩
    · obtain ⟨-, rfl⟩ := when_eq_some.mp h
      refine ⟨fun hc => absurd hc hu, fun _ => ?_⟩
      rw [← hs.stream hg]
      simp [download, wireBytes, TcpFlow.pendingRest, TcpFlow.queued, hp, hr, ReaderThread.held]
  · cases h

theorem readerRead {data : Chunk} (hs : s.Streams) (h : s.step (.readerRead data) = some t) :
    t.Streams := by
  obtain ⟨⟨hp, -⟩, rfl⟩ := when_eq_some.mp h
  have hu : ¬ s.flow.connectRx := fun hc => by simp [(hs.unconnected hc).2] at hp
  split_ifs
  · refine ⟨fun hc => absurd hc hu, fun hg => ?_⟩
    rw [← hs.stream hg]
    simp [download, wireBytes, hp, ReaderThread.held]
  · refine ⟨fun hc => absurd hc hu, fun hg => ?_⟩
    simp only [List.flatten_append]
    rw [← hs.stream hg]
    simp [download, wireBytes, hp, ReaderThread.held]

theorem poll (hs : s.Streams) (h : s.step (.poll e) = some t) : t.Streams := by
  obtain ⟨hp, k, hk, rfl⟩ := step_poll h
  refine ⟨hs.unconnected, fun hg => ?_⟩
  have hst := hs.stream hg
  have hm := Socket.poll_stream hk
  simp only [download, wireBytes, List.flatMap_append] at hst ⊢
  rw [← hst, ← hm]
  simp

theorem step (hs : s.Streams) (h : s.step a = some t) : t.Streams := by
  cases a with
  | poll => exact hs.poll h
  | readerRead => exact hs.readerRead h
  | readerSend => exact hs.readerSend h
  | tryConnect =>
    obtain ⟨hp, rfl⟩ := when_eq_some.mp h
    have hg : ¬ s.tryConnect.phase.gone := by simp [hp, FlowPhase.gone]
    exact (hs.tryConnect (by simp [hp, FlowPhase.gone])).move hg _
  | send =>
    simp only [FlowState.step] at h
    split at h
    · rename_i data hp
      obtain rfl := Option.some.inj h
      exact hs.send (by simp [hp, FlowPhase.gone]) data
    · cases h
  | tryRecv =>
    obtain ⟨hp, rfl⟩ := when_eq_some.mp h
    exact hs.tryRecv (by simp [hp, FlowPhase.gone])
  | sendSlice =>
    obtain ⟨hp, rfl⟩ := when_eq_some.mp h
    exact hs.sendSlice (by simp [hp, FlowPhase.gone])
  | closeSocket =>
    obtain ⟨hp, rfl⟩ := when_eq_some.mp h
    exact hs.closeSocket (by simp [hp, FlowPhase.gone])
  | visit | recvSlice | stopUpload | judge | reap | stopLoop =>
    obtain ⟨hp, rfl⟩ := when_eq_some.mp h
    have hg : ¬ s.phase.gone := by simp [hp, FlowPhase.gone]
    exact ⟨hs.unconnected, fun _ => hs.stream hg⟩
  | writerRecv =>
    simp only [FlowState.step] at h
    split at h
    all_goals obtain ⟨-, rfl⟩ := when_eq_some.mp h
    all_goals exact ⟨hs.unconnected, hs.stream⟩
  | writerWrite ok =>
    simp only [FlowState.step] at h
    split at h
    · split_ifs at h
      all_goals cases h
      all_goals exact ⟨hs.unconnected, hs.stream⟩
    · cases h
  | writerDies =>
    simp only [FlowState.step] at h
    split at h
    all_goals cases h
    exact ⟨hs.unconnected, hs.stream⟩
  | readerCheck =>
    obtain ⟨hp, rfl⟩ := when_eq_some.mp h
    refine ⟨fun hu => ?_, fun hg => ?_⟩
    · have hi := (hs.unconnected hu).2
      simp [hi] at hp
    · rw [← hs.stream hg]
      split_ifs
      all_goals simp [download, wireBytes, hp, ReaderThread.held]
  | connectReturns | connectDies | writerCheck | writerTimeout | writerFree
  | writerBreak =>
    obtain ⟨hp, rfl⟩ := when_eq_some.mp h
    exact ⟨hs.unconnected, hs.stream⟩

end Streams

end FlowState

end NulConnect.TunStack
