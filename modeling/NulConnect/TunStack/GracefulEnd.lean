import NulConnect.TunStack.Download

/-! The end of a flow: what is on the wire when the socket of a flow is removed from the
socket set. -/
namespace NulConnect.TunStack
open Transition

namespace TcpState

/-- The connection is taken and `close` has not been called. -/
@[simp] def opened : TcpState → Bool
  | .synReceived | .established | .closeWait => true
  | _ => false

/-- `close` has been called. -/
@[simp] def ending : TcpState → Bool
  | .finWait1 | .finWait2 | .closing | .lastAck | .timeWait | .closed => true
  | _ => false

/-- The FIN has been acknowledged. -/
@[simp] def finAcked : TcpState → Bool
  | .finWait2 | .timeWait | .closed => true
  | _ => false

end TcpState

variable {k k' : Socket} {e : PollEvent}

namespace Socket

theorem close_ending (hk : k.state.opened) : k.close.state.ending ∧ ¬ k.close.state.finAcked := by
  unfold close
  cases hs : k.state <;> simp_all

/-- Without a RST, a poll neither closes an open socket nor opens a closing one, and moves
a closing one on only once its FIN is out. -/
theorem poll_state (h : k.poll e = some k') (he : e ≠ .rst)
    (hout : k.state.finAcked → k.finSent) :
    (k.state.opened → k'.state.opened) ∧ (k.state.ending → k'.state.ending) ∧
      (k'.state.finAcked → k'.finSent) := by
  cases e with
  | rst => exact absurd rfl he
  | fin =>
    obtain ⟨⟨hf, -⟩, rfl⟩ := when_eq_some.mp h
    cases hs : k.state <;> simp_all [TcpState.afterFin]
  | finAck =>
    obtain ⟨⟨hq, hf, -⟩, rfl⟩ := when_eq_some.mp h
    cases hs : k.state <;> simp_all [TcpState.finQueued, TcpState.afterFinAck]
  | syn | handshake | expire =>
    obtain ⟨hs, rfl⟩ := when_eq_some.mp h
    simp_all
  | transmitRst =>
    obtain ⟨⟨hs, -⟩, rfl⟩ := when_eq_some.mp h
    simp_all
  | transmitFin =>
    obtain ⟨-, rfl⟩ := when_eq_some.mp h
    exact ⟨id, id, fun _ => rfl⟩
  | data | ack | transmitSynAck | transmit =>
    obtain ⟨-, rfl⟩ := when_eq_some.mp h
    exact ⟨id, id, hout⟩

/-- The FIN goes out behind the last byte of a closing socket. -/
theorem poll_finSent (h : k.poll e = some k') (hf : k'.finSent) (hu : k.finSent → k.unsent = []) :
    k'.unsent = [] ∧ (k.finSent ∨ k.state.ending ∧ .fin ∈ k.emits e) := by
  cases e with
  | transmitFin =>
    obtain ⟨⟨hq, he, -⟩, rfl⟩ := when_eq_some.mp h
    refine ⟨he, .inr ⟨?_, ?_⟩⟩
    · cases hs : k.state <;> simp_all [TcpState.finQueued]
    · simp [emits]
  | transmit n =>
    obtain ⟨-, rfl⟩ := when_eq_some.mp h
    exact ⟨by simp [hu hf], .inl hf⟩
  | syn | handshake | data | ack | finAck | fin | rst | expire | transmitSynAck | transmitRst =>
    obtain ⟨-, rfl⟩ := when_eq_some.mp h
    exact ⟨hu hf, .inl hf⟩

end Socket

/-- The app sends no RST, the connection is made and no write of the tunnel fails. -/
def FlowAction.Undisturbed : FlowAction → Prop
  | .poll .rst | .connectReturns false | .connectDies | .writerWrite false | .writerDies => False
  | _ => True

namespace FlowState

variable {s t : FlowState} {a : FlowAction}

/-- All that the tunnel delivered up to its end is on the wire, and the FIN as well. -/
structure DownloadComplete (s : FlowState) : Prop where
  eof : s.eof
  bytes : s.wireBytes = s.delivered.flatten
  fin : .fin ∈ s.wire

/-- The socket is removed only once the download is complete. -/
def EndsGracefully (s : FlowState) : Prop := s.phase = .removed → s.DownloadComplete

/-- No pass judges the flow in LAST-ACK or CLOSING with an empty receive buffer while the FIN
still waits for a poll, or in SYN-RECEIVED past the handshake timeout. -/
def HandedOut (s : FlowState) : FlowAction → Prop
  | .judge now =>
    (s.socket.state = .lastAck ∨ s.socket.state = .closing → s.socket.rx = [] →
      s.socket.finSent) ∧
    (s.socket.state = .synReceived → now - s.flow.startedMs ≤ handshakeTimeoutMs)
  | _ => True

/-- The condition on the steps of a run. -/
def Graceful (s : FlowState) (a : FlowAction) : Prop := a.Undisturbed ∧ s.HandedOut a

structure Ending (s : FlowState) : Prop where
  streams : s.Streams
  connect : s.connect = .running ∨ s.connect = .sent true
  remoteTx : s.flow.remoteTx
  opened : ¬ s.flow.finSent → s.socket.state.opened
  ending : s.flow.finSent →
    s.socket.state.ending ∧ s.flow.remoteEof ∧ s.flow.downloadPending = none
  eof : s.flow.remoteEof → s.eof ∧ s.flow.remoteRx = some [] ∧ s.reader = .ended
  ended : s.reader = .ended → s.eof ∨ s.flow.closed
  writer : s.writer = .failed ∨ s.writer = .ended → s.flow.closed
  /-- The FIN is on the wire behind everything else. -/
  fin : s.socket.finSent → s.flow.finSent ∧ s.socket.unsent = [] ∧ .fin ∈ s.wire
  acked : s.socket.state.finAcked → s.socket.finSent
  gone : s.phase.gone → s.flow.closed
  closed : s.flow.closed → s.phase = .reaping ∨ s.phase.gone
  complete : s.flow.closed → s.phase ≠ .stopped → s.flow.finSent ∧ s.DownloadComplete

theorem ending_started (k : Socket) (now : ℕ) (hk : k.Taken) : (started k now).Ending where
  streams := streams_started k now hk.unsent
  connect := .inl rfl
  remoteTx := rfl
  opened _ := by
    obtain h | h | h := hk.state
    all_goals simp [started, h]
  ending h := Bool.noConfusion h
  eof h := Bool.noConfusion h
  ended h := ReaderThread.noConfusion h
  writer h := by simp [started] at h
  fin h := absurd h (by simp [started, hk.finSent])
  acked h := by
    obtain hk | hk | hk := hk.state
    all_goals simp [started, hk] at h
  gone h := Bool.noConfusion h
  closed h := Bool.noConfusion h
  complete h := Bool.noConfusion h

namespace Ending

theorem not_closed (hs : s.Ending) (hr : s.phase ≠ .reaping) (hg : ¬ s.phase.gone) :
    ¬ s.flow.closed := fun hc => (hs.closed hc).elim hr hg

/-- Once the FIN is out, nothing is left on its way. -/
theorem downloadComplete (hs : s.Ending) (hg : ¬ s.phase.gone) (hf : s.socket.finSent) :
    s.flow.finSent ∧ s.DownloadComplete := by
  obtain ⟨hfin, hu, hw⟩ := hs.fin hf
  obtain ⟨-, he, hp⟩ := hs.ending hfin
  obtain ⟨heof, hr, hend⟩ := hs.eof he
  have hst := hs.streams.stream hg
  refine ⟨hfin, heof, ?_, hw⟩
  simpa [download, hu, hend, TcpFlow.pendingRest, hp, TcpFlow.queued, hr, ReaderThread.held]
    using hst

/-- A flow judged finished has everything on the wire. -/
theorem complete_of_finished (hs : s.Ending) {now : ℕ} (hok : s.HandedOut (.judge now))
    (hg : ¬ s.phase.gone)
    (hf : tcpFlowFinished s.socket.state s.socket.mayRecv s.socket.maySend
      (now - s.flow.startedMs)) : s.flow.finSent ∧ s.DownloadComplete := by
  obtain ⟨hclosing, hsyn⟩ := hok
  have hk : s.socket.state.opened ∨ s.socket.state.ending := by
    by_cases hfin : s.flow.finSent
    · exact .inr (hs.ending hfin).1
    · exact .inl (hs.opened hfin)
  cases hst : s.socket.state with
  | synReceived =>
    have hle := hsyn hst
    simp [tcpFlowFinished, hst] at hf
    omega
  | listen | synSent => simp [hst] at hk
  | established | closeWait | finWait1 | finWait2 =>
    simp [tcpFlowFinished, hst, Socket.mayRecv, Socket.maySend] at hf
  | closing =>
    have hrx : s.socket.rx = [] := by
      simpa [tcpFlowFinished, hst, Socket.mayRecv, Socket.maySend] using hf
    exact hs.downloadComplete hg (hclosing (.inr hst) hrx)
  | lastAck =>
    have hrx : s.socket.rx = [] := by
      simpa [tcpFlowFinished, hst, Socket.mayRecv, Socket.maySend] using hf
    exact hs.downloadComplete hg (hclosing (.inl hst) hrx)
  | timeWait | closed => exact hs.downloadComplete hg (hs.acked (by simp [hst]))

/-- Within a visit that has not given the flow up, only the phase moves. -/
theorem move (hs : s.Ending) (hc : ¬ s.flow.closed) (hg : ¬ s.phase.gone) {p : FlowPhase}
    (hp : ¬ p.gone) : { s with phase := p }.Ending :=
  { hs with
    streams := hs.streams.move hg p
    gone := fun h => absurd h hp
    closed := fun h => absurd h hc
    complete := fun h => absurd h hc }

theorem poll (hs : s.Ending) (he : e ≠ .rst) (h : s.step (.poll e) = some t) : t.Ending := by
  have ht := hs.streams.poll h
  obtain ⟨hp, k, hk, rfl⟩ := step_poll h
  obtain ⟨hopen, hend, hack⟩ := Socket.poll_state hk he hs.acked
  have hc : ¬ s.flow.closed := hs.not_closed (by simp [hp]) (by simp [hp, FlowPhase.gone])
  refine { hs with
    streams := ht
    opened := fun hf => hopen (hs.opened hf)
    ending := fun hf => ⟨hend (hs.ending hf).1, (hs.ending hf).2⟩
    fin := fun hf => ?_
    acked := hack
    complete := fun h => absurd h hc }
  obtain ⟨hu, hor⟩ := Socket.poll_finSent hk hf fun h => (hs.fin h).2.1
  obtain h | ⟨hstate, hem⟩ := hor
  · obtain ⟨hfin, -, hw⟩ := hs.fin h
    exact ⟨hfin, hu, List.mem_append_left _ hw⟩
  · refine ⟨?_, hu, List.mem_append_right _ hem⟩
    by_contra hn
    have ho := hs.opened hn
    cases hst : s.socket.state <;> simp [hst] at ho hstate

theorem tryConnect (hs : s.Ending) (hc : ¬ s.flow.closed) (hg : ¬ s.phase.gone) :
    s.tryConnect.Ending := by
  have ht := hs.streams.tryConnect hg
  unfold FlowState.tryConnect at ht ⊢
  split_ifs at ht ⊢ with hcr
  · obtain ⟨-, hi⟩ := hs.streams.unconnected hcr
    have heof : ¬ s.flow.remoteEof := by
      intro h
      have hend := (hs.eof h).2.2
      simp [hi] at hend
    obtain hcon | hcon := hs.connect
    · simpa only [hcon] using hs
    · simp only [hcon] at ht ⊢
      exact { hs with
        streams := ht
        eof := fun h => absurd h heof
        ended := fun h => ReaderThread.noConfusion h
        writer := fun h => hs.writer (by
          by_cases hw : s.flow.remoteWriteRx
          · simp [hw] at h
          · simpa [hw] using h)
        complete := fun h => absurd h hc }
  · exact hs

theorem send (hs : s.Ending) (hc : ¬ s.flow.closed) (hg : ¬ s.phase.gone) (data : Chunk) :
    (s.send data).Ending := by
  have ht := hs.streams.send hg data
  have ha : s.receiverAlive := by
    have hw : s.writer ≠ .ended := fun h => hc (hs.writer (.inr h))
    simp [receiverAlive, hw]
  unfold FlowState.send at ht ⊢
  simp only [if_pos ha] at ht ⊢
  exact { hs with
    streams := ht
    gone := fun h => Bool.noConfusion h
    closed := fun h => absurd h hc
    complete := fun h => absurd h hc }

theorem tryRecv (hs : s.Ending) (hc : ¬ s.flow.closed) (hg : ¬ s.phase.gone) :
    s.tryRecv.Ending := by
  have ht := hs.streams.tryRecv hg
  unfold FlowState.tryRecv at ht ⊢
  split at ht
  · exact hs.move hc hg (by simp [FlowPhase.gone])
  · exact hs.move hc hg (by simp [FlowPhase.gone])
  · rename_i hp hr
    have heof : ¬ s.flow.remoteEof := fun h => by simp [(hs.eof h).2.1] at hr
    exact { hs with
      streams := ht
      ending := fun h => absurd (hs.ending h).2.1 heof
      eof := fun h => absurd h heof
      gone := fun h => Bool.noConfusion h
      closed := fun h => absurd h hc
      complete := fun h => absurd h hc }
  · rename_i hp hr
    split_ifs at ht ⊢ with hend
    · have heof : s.eof := (hs.ended hend).resolve_right hc
      exact { hs with
        streams := ht
        ending := fun h => ⟨(hs.ending h).1, rfl, (hs.ending h).2.2⟩
        eof := fun _ => ⟨heof, hr, hend⟩
        gone := fun h => Bool.noConfusion h
        closed := fun h => absurd h hc
        complete := fun h => absurd h hc }
    · exact hs.move hc hg (by simp [FlowPhase.gone])

theorem sendSlice (hs : s.Ending) (hc : ¬ s.flow.closed) (hg : ¬ s.phase.gone) :
    s.sendSlice.Ending := by
  have ht := hs.streams.sendSlice hg
  unfold FlowState.sendSlice at ht ⊢
  split at ht
  · exact hs.move hc hg (by simp [FlowPhase.gone])
  · rename_i data offset hp
    have hf : ¬ s.flow.finSent := fun h => by simp [(hs.ending h).2.2] at hp
    split_ifs at ht ⊢
    · exact { hs with
        streams := ht
        ending := fun h => absurd h hf
        fin := fun h => absurd (hs.fin h).1 hf
        gone := fun h => by dsimp only at h; split_ifs at h <;> cases h
        closed := fun h => absurd h hc
        complete := fun h => absurd h hc }
    · exact hs.move hc hg (by simp [FlowPhase.gone])

theorem closeSocket (hs : s.Ending) (hc : ¬ s.flow.closed) (hg : ¬ s.phase.gone) :
    s.closeSocket.Ending := by
  have ht := hs.streams.closeSocket hg
  unfold FlowState.closeSocket at ht ⊢
  split_ifs at ht ⊢ with hcond
  · obtain ⟨heof, hp, hf⟩ := hcond
    obtain ⟨hend, hack⟩ := Socket.close_ending (hs.opened hf)
    exact { hs with
      streams := ht
      opened := fun h => absurd rfl h
      ending := fun _ => ⟨hend, heof, hp⟩
      fin := fun h => absurd (hs.fin h).1 hf
      acked := fun h => absurd h hack
      gone := fun h => Bool.noConfusion h
      closed := fun h => absurd h hc
      complete := fun h => absurd h hc }
  · exact hs.move hc hg (by simp [FlowPhase.gone])

theorem judge (hs : s.Ending) (hc : ¬ s.flow.closed) (hg : ¬ s.phase.gone) {now : ℕ}
    (hok : s.HandedOut (.judge now)) : (s.judge now).Ending := by
  unfold FlowState.judge
  exact { hs with
    streams := ⟨hs.streams.unconnected, fun _ => hs.streams.stream hg⟩
    ended := fun h => (hs.ended h).imp_right fun h => by simp [h]
    writer := fun h => by simp [hs.writer h]
    gone := fun h => Bool.noConfusion h
    closed := fun _ => .inl rfl
    complete := fun h _ => by
      obtain ⟨hf, hd⟩ := hs.complete_of_finished hok hg (by simpa [hc] using h)
      exact ⟨hf, hd.eof, hd.bytes, hd.fin⟩ }

/-- A reader that still runs has not found the end of the stream. -/
theorem not_finSent (hs : s.Ending) (hr : s.reader ≠ .ended) : ¬ s.flow.finSent :=
  fun h => hr (hs.eof (hs.ending h).2.1).2.2

theorem reaping (hs : s.Ending) (hp : s.phase = .reaping) :
    { s with phase := if s.flow.closed then .removed else .polling }.Ending := by
  have hg : ¬ s.phase.gone := by simp [hp, FlowPhase.gone]
  by_cases hc : s.flow.closed
  · obtain ⟨hf, hd⟩ := hs.complete hc (by simp [hp])
    simp only [if_pos hc]
    exact { hs with
      streams := hs.streams.move hg _
      gone := fun _ => hc
      closed := fun _ => .inr rfl
      complete := fun _ _ => ⟨hf, hd.eof, hd.bytes, hd.fin⟩ }
  · simp only [if_neg hc]
    exact hs.move hc hg (by simp [FlowPhase.gone])

/-- A download that is complete has no reader thread left to add to it. -/
theorem not_complete (hs : s.Ending) (hr : s.reader ≠ .ended) :
    s.flow.closed → s.phase ≠ .stopped → False :=
  fun hc hp => hs.not_finSent hr (hs.complete hc hp).1

theorem readerCheck (hs : s.Ending) (ht : t.Streams) (h : s.step .readerCheck = some t) :
    t.Ending := by
  obtain ⟨hp, rfl⟩ := when_eq_some.mp h
  have hr : s.reader ≠ .ended := by simp [hp]
  have heof : ¬ s.flow.remoteEof := fun h => hr (hs.eof h).2.2
  refine { hs with
    streams := ht
    eof := fun h => absurd h heof
    ended := fun h => ?_
    complete := fun hc hst => (hs.not_complete hr hc hst).elim }
  right
  by_contra hc
  simp [hc] at h

theorem readerRead {data : Chunk} (hs : s.Ending) (ht : t.Streams)
    (h : s.step (.readerRead data) = some t) : t.Ending := by
  obtain ⟨⟨hp, -⟩, rfl⟩ := when_eq_some.mp h
  have hr : s.reader ≠ .ended := by simp [hp]
  have heof : ¬ s.flow.remoteEof := fun h => hr (hs.eof h).2.2
  split_ifs at ht ⊢
  · exact { hs with
      streams := ht
      eof := fun h => absurd h heof
      ended := fun _ => .inl rfl
      complete := fun hc hst => (hs.not_complete hr hc hst).elim }
  · exact { hs with
      streams := ht
      eof := fun h => absurd h heof
      ended := fun h => ReaderThread.noConfusion h
      complete := fun hc hst => (hs.not_complete hr hc hst).elim }

theorem readerSend (hs : s.Ending) (ht : t.Streams) (h : s.step .readerSend = some t) :
    t.Ending := by
  simp only [FlowState.step] at h
  split at h
  · rename_i data queue hp hq
    have hr : s.reader ≠ .ended := by simp [hp]
    have heof : ¬ s.flow.remoteEof := fun h => hr (hs.eof h).2.2
    split_ifs at h with hg
    · obtain rfl := Option.some.inj h
      exact { hs with
        streams := ht
        eof := fun h => absurd h heof
        ended := fun _ => .inr (hs.gone hg)
        complete := fun hc hst => (hs.not_complete hr hc hst).elim }
    · obtain ⟨-, rfl⟩ := when_eq_some.mp h
      exact { hs with
        streams := ht
        eof := fun h => absurd h heof
        ended := fun h => ReaderThread.noConfusion h
        complete := fun hc hst => (hs.not_complete hr hc hst).elim }
  · cases h

/-- The writer thread ends only where the flow is closed. -/
theorem setWriter (hs : s.Ending) {w : WriterThread} (h : w = .failed ∨ w = .ended → s.flow.closed)
    (queue : List Chunk) (pending : UInt64) (written : List Chunk) :
    { s with
      writer := w
      uploadQueue := queue
      flow.uploadPending := pending
      written := written }.Ending :=
  { hs with
    streams := ⟨hs.streams.unconnected, hs.streams.stream⟩
    writer := h
    complete := fun hc hst => by
      obtain ⟨hf, hd⟩ := hs.complete hc hst
      exact ⟨hf, hd.eof, hd.bytes, hd.fin⟩ }

theorem step (hs : s.Ending) (hok : s.Graceful a) (h : s.step a = some t) : t.Ending := by
  obtain ⟨hund, hout⟩ := hok
  have ht := hs.streams.step h
  cases a with
  | poll e =>
    refine hs.poll ?_ h
    rintro rfl
    exact hund
  | visit =>
    obtain ⟨hp, rfl⟩ := when_eq_some.mp h
    have hg : ¬ s.phase.gone := by simp [hp, FlowPhase.gone]
    exact hs.move (hs.not_closed (by simp [hp]) hg) hg (by simp [FlowPhase.gone])
  | tryConnect =>
    obtain ⟨hp, rfl⟩ := when_eq_some.mp h
    have hg : ¬ s.phase.gone := by simp [hp, FlowPhase.gone]
    have hcon := hs.tryConnect (hs.not_closed (by simp [hp]) hg) hg
    have hg' : ¬ s.tryConnect.phase.gone := by rwa [tryConnect_phase]
    refine hcon.move (hcon.not_closed (by simp [hp]) hg') hg' ?_
    split_ifs
    all_goals simp [FlowPhase.gone]
  | recvSlice =>
    obtain ⟨⟨hp, -⟩, rfl⟩ := when_eq_some.mp h
    have hg : ¬ s.phase.gone := by simp [hp, FlowPhase.gone]
    have hc := hs.not_closed (by simp [hp]) hg
    exact { hs with
      streams := ht
      gone := fun h => Bool.noConfusion h
      closed := fun h => absurd h hc
      complete := fun h => absurd h hc }
  | send =>
    simp only [FlowState.step] at h
    split at h
    · rename_i data hp
      obtain rfl := Option.some.inj h
      have hg : ¬ s.phase.gone := by simp [hp, FlowPhase.gone]
      exact hs.send (hs.not_closed (by simp [hp]) hg) hg data
    · cases h
  | stopUpload =>
    obtain ⟨⟨hp, -⟩, rfl⟩ := when_eq_some.mp h
    have hg : ¬ s.phase.gone := by simp [hp, FlowPhase.gone]
    exact hs.move (hs.not_closed (by simp [hp]) hg) hg (by simp [FlowPhase.gone])
  | tryRecv =>
    obtain ⟨hp, rfl⟩ := when_eq_some.mp h
    have hg : ¬ s.phase.gone := by simp [hp, FlowPhase.gone]
    exact hs.tryRecv (hs.not_closed (by simp [hp]) hg) hg
  | sendSlice =>
    obtain ⟨hp, rfl⟩ := when_eq_some.mp h
    have hg : ¬ s.phase.gone := by simp [hp, FlowPhase.gone]
    exact hs.sendSlice (hs.not_closed (by simp [hp]) hg) hg
  | closeSocket =>
    obtain ⟨hp, rfl⟩ := when_eq_some.mp h
    have hg : ¬ s.phase.gone := by simp [hp, FlowPhase.gone]
    exact hs.closeSocket (hs.not_closed (by simp [hp]) hg) hg
  | judge now =>
    obtain ⟨hp, rfl⟩ := when_eq_some.mp h
    have hg : ¬ s.phase.gone := by simp [hp, FlowPhase.gone]
    exact hs.judge (hs.not_closed (by simp [hp]) hg) hg hout
  | reap =>
    obtain ⟨hp, rfl⟩ := when_eq_some.mp h
    exact hs.reaping hp
  | stopLoop =>
    obtain ⟨hp, rfl⟩ := when_eq_some.mp h
    exact { hs with
      streams := ht
      ended := fun _ => .inr rfl
      writer := fun _ => rfl
      gone := fun _ => rfl
      closed := fun _ => .inr rfl
      complete := fun _ hst => absurd rfl hst }
  | connectReturns ok =>
    obtain ⟨hp, rfl⟩ := when_eq_some.mp h
    cases ok with
    | false => exact hund.elim
    | true =>
      exact { hs with
        streams := ht
        connect := .inr rfl
        complete := fun hc hst => by
          obtain ⟨hf, hd⟩ := hs.complete hc hst
          exact ⟨hf, hd.eof, hd.bytes, hd.fin⟩ }
  | connectDies => exact hund.elim
  | readerCheck => exact hs.readerCheck ht h
  | readerRead => exact hs.readerRead ht h
  | readerSend => exact hs.readerSend ht h
  | writerCheck =>
    obtain ⟨hp, rfl⟩ := when_eq_some.mp h
    refine hs.setWriter ?_ _ _ _
    split_ifs with hc
    · exact fun _ => hc
    · simp
  | writerRecv =>
    simp only [FlowState.step] at h
    split at h
    · obtain ⟨-, rfl⟩ := when_eq_some.mp h
      exact hs.setWriter (by simp) _ _ _
    · obtain ⟨⟨-, hg⟩, rfl⟩ := when_eq_some.mp h
      exact hs.setWriter (fun _ => hs.gone (hg.resolve_right (by simp [hs.remoteTx]))) _ _ _
  | writerTimeout =>
    obtain ⟨-, rfl⟩ := when_eq_some.mp h
    exact hs.setWriter (by simp) _ _ _
  | writerWrite ok =>
    simp only [FlowState.step] at h
    split at h
    · cases ok with
      | false => exact hund.elim
      | true =>
        obtain rfl := Option.some.inj h
        exact hs.setWriter (by simp) _ _ _
    · cases h
  | writerDies => exact hund.elim
  | writerFree =>
    obtain ⟨-, rfl⟩ := when_eq_some.mp h
    exact hs.setWriter (by simp) _ _ _
  | writerBreak =>
    obtain ⟨hp, rfl⟩ := when_eq_some.mp h
    exact hs.setWriter (fun _ => hs.writer (.inl hp)) _ _ _

end Ending

theorem ending_of_graceful (h : flowSystem.ReachUnder Graceful s) : s.Ending := by
  refine h.invariant ?_ ?_
  · rintro s ⟨k, now, hk, rfl⟩
    exact ending_started k now hk
  · intro s a t _ hs hok ht
    exact hs.step hok ht

/-- In every run of an undisturbed flow that is never judged finished before its FIN is out,
the socket is removed only after the whole download and the FIN are on the wire. -/
theorem endsGracefully_of_handedOut (h : flowSystem.ReachUnder Graceful s) :
    s.EndsGracefully := by
  intro hp
  have hs := ending_of_graceful h
  have hc : s.flow.closed := hs.gone (by simp [hp, FlowPhase.gone])
  exact (hs.complete hc (by simp [hp])).2

instance (a : FlowAction) : Decidable a.Undisturbed := by
  unfold FlowAction.Undisturbed
  split <;> infer_instance

instance (s : FlowState) (a : FlowAction) : Decidable (s.Graceful a) := by
  unfold Graceful HandedOut
  split <;> infer_instance

private def synSocket : Socket := .afterSyn ⟨.ofOctets 10 0 0 1, 80⟩ ⟨.ofOctets 10 8 0 2, 50000⟩

/-- The handshake, the connection, and a pass that finds nothing to do. -/
private def connects : List FlowAction :=
  [.connectReturns true, .tryConnect, .stopUpload, .tryRecv, .closeSocket, .judge 0, .reap,
    .poll .transmitSynAck, .poll .handshake]

/-- The tunnel sends a chunk and ends. -/
private def tunnelEnds : List FlowAction :=
  [.readerCheck, .readerRead [104, 105], .readerSend, .readerCheck, .readerRead []]

/-- A visit that writes the chunk, finds the end of the tunnel and closes the socket. -/
private def downloads : List FlowAction :=
  [.visit, .tryConnect, .stopUpload, .tryRecv, .sendSlice, .tryRecv, .closeSocket, .judge 0, .reap]

/-- The app closes its half only after the FIN. -/
theorem endsGracefully_appLast : ∃ s : FlowState,
    s.phase = .removed ∧ s.wireBytes = [104, 105] ∧ s.EndsGracefully := by
  have h0 : flowSystem.ReachUnder Graceful (.started synSocket 0) :=
    .init ⟨synSocket, 0, Socket.taken_afterSyn _ _, rfl⟩
  have h1 := h0.run connects (by decide) rfl
  have h2 := h1.run tunnelEnds (by decide) rfl
  have h3 := h2.run downloads (by decide) rfl
  have h4 := h3.run [.poll (.transmit 2), .poll .transmitFin, .poll (.ack 2), .poll .finAck,
    .poll .fin, .visit, .tryConnect, .stopUpload, .tryRecv, .closeSocket, .judge 0, .reap]
    (by decide) rfl
  exact ⟨_, rfl, rfl, endsGracefully_of_handedOut h4⟩

/-- The app closes its half first: the pass that closes the socket also removes it, with the
chunk and the FIN still waiting for a poll. -/
theorem half_close_loses_download : ¬ ∀ s : FlowState,
    flowSystem.ReachUnder (fun _ a => a.Undisturbed) s → s.EndsGracefully := by
  intro h
  have h0 : flowSystem.ReachUnder (fun _ a => a.Undisturbed) (.started synSocket 0) :=
    .init ⟨synSocket, 0, Socket.taken_afterSyn _ _, rfl⟩
  have h1 := h0.run connects (by decide) rfl
  have h2 := h1.run [.poll .fin] (by decide) rfl
  have h3 := h2.run tunnelEnds (by decide) rfl
  have h4 := h3.run downloads (by decide) rfl
  exact absurd (h _ h4 rfl).bytes (by decide)

end FlowState

end NulConnect.TunStack
