import NulConnect.TunStack.GracefulEnd

/-! The upload direction of a flow: what the stack drained from the app is written to the
tunnel, or waits in the upload channel when the writer thread ends. -/
namespace NulConnect.TunStack
open Transition

/-- The chunk that the writer thread has taken and not written yet. -/
def WriterThread.held : WriterThread → List Chunk
  | .writing data => [data]
  | _ => []

/-- The chunk between `recv_slice` and the channel. -/
def FlowPhase.drained : FlowPhase → List Chunk
  | .sending data => [data]
  | _ => []

/-- What a flow has drained from its socket, and whether its writer thread has stopped with
chunks still in the channel. -/
structure Uploads where
  drained : List Chunk
  dropped : Bool
deriving DecidableEq, Repr

namespace Uploads

def none : Uploads where
  drained := []
  dropped := false

def record (u : Uploads) (s : FlowState) : FlowAction → Uploads
  | .recvSlice => { u with drained := u.drained ++ [(s.socket.recvSlice recvBufferSize).1] }
  | .writerCheck =>
    if s.flow.closed && !s.uploadQueue.isEmpty then { u with dropped := true } else u
  | _ => u

end Uploads

/-- A flow together with the account of its upload. -/
def uploads : System (FlowState × Uploads) FlowAction := flowSystem.observe .none Uploads.record

namespace FlowState

variable {s t : FlowState} {a : FlowAction} {u : Uploads}

/-- The upload stream, from the tunnel back to the socket. -/
def upload (s : FlowState) : List Chunk :=
  s.written ++ s.writer.held ++ s.uploadQueue ++ s.phase.drained

/-- What is known of the upload of an undisturbed flow. -/
structure Uploading (s : FlowState) (u : Uploads) : Prop where
  stream : s.upload = u.drained
  nonempty : ∀ data ∈ s.uploadQueue ++ s.phase.drained, data ≠ []
  connect : s.connect = .running ∨ s.connect = .sent true
  remoteTx : s.flow.remoteTx
  unconnected : s.flow.connectRx → s.writer = .idle
  closed : s.flow.closed → s.phase = .reaping ∨ s.phase.gone
  gone : s.phase.gone → s.flow.closed
  failed : s.writer ≠ .failed
  ended : s.writer = .ended → s.flow.closed ∧ (u.dropped ↔ s.uploadQueue ≠ [])
  dropped : u.dropped → s.writer = .ended

theorem uploading_started (k : Socket) (now : ℕ) : (started k now).Uploading .none where
  stream := rfl
  nonempty _ h := absurd h List.not_mem_nil
  connect := .inl rfl
  remoteTx := rfl
  unconnected _ := rfl
  closed h := Bool.noConfusion h
  gone h := Bool.noConfusion h
  failed h := WriterThread.noConfusion h
  ended h := WriterThread.noConfusion h
  dropped h := Bool.noConfusion h

namespace Uploading

theorem not_closed (hs : s.Uploading u) (hr : s.phase ≠ .reaping) (hg : ¬ s.phase.gone) :
    ¬ s.flow.closed := fun hc => (hs.closed hc).elim hr hg

theorem receiverAlive (hs : s.Uploading u) (hc : ¬ s.flow.closed) : s.receiverAlive := by
  have hw : s.writer ≠ .ended := fun h => hc (hs.ended h).1
  simp [FlowState.receiverAlive, hw]

/-- Steps that leave the upload alone. -/
theorem congr (hs : s.Uploading u) (hw : t.written = s.written) (hwr : t.writer = s.writer)
    (hq : t.uploadQueue = s.uploadQueue) (hd : t.phase.drained = s.phase.drained)
    (hc : t.connect = .running ∨ t.connect = .sent true)
    (hf : t.flow.remoteTx = s.flow.remoteTx ∧ t.flow.connectRx = s.flow.connectRx)
    (hcl : t.flow.closed → t.phase = .reaping ∨ t.phase.gone)
    (hmono : s.flow.closed → t.flow.closed) (hgone : t.phase.gone → t.flow.closed) :
    t.Uploading u where
  stream := by
    rw [← hs.stream]
    simp only [upload, hw, hwr, hq, hd]
  nonempty := by
    rw [hq, hd]
    exact hs.nonempty
  connect := hc
  remoteTx := hf.1 ▸ hs.remoteTx
  unconnected h := hwr ▸ hs.unconnected (hf.2 ▸ h)
  closed := hcl
  gone := hgone
  failed := hwr ▸ hs.failed
  ended h := by
    obtain ⟨hcl, hd⟩ := hs.ended (hwr ▸ h)
    exact ⟨hmono hcl, hq ▸ hd⟩
  dropped h := hwr ▸ hs.dropped h

/-- Within a visit, the loop moves on to a phase in which it holds no chunk. -/
theorem move (hs : s.Uploading u) (hc : ¬ s.flow.closed) (hd : s.phase.drained = [])
    {p : FlowPhase} (hp : ¬ p.gone ∧ p.drained = []) : { s with phase := p }.Uploading u :=
  hs.congr rfl rfl rfl (hp.2.trans hd.symm) hs.connect ⟨rfl, rfl⟩ (fun h => absurd h hc) id
    fun h => absurd h hp.1

theorem tryConnect (hs : s.Uploading u) (hp : s.phase = .connecting) :
    s.tryConnect.Uploading u := by
  have hc : ¬ s.flow.closed := hs.not_closed (by simp [hp]) (by simp [hp, FlowPhase.gone])
  unfold FlowState.tryConnect
  split_ifs with hcr
  · have hi := hs.unconnected hcr
    obtain hcon | hcon := hs.connect
    · simpa only [hcon] using hs
    · simp only [hcon]
      have hheld :
          (if s.flow.remoteWriteRx then WriterThread.checking else s.writer).held = [] := by
        split_ifs <;> simp [hi, WriterThread.held]
      have hst := hs.stream
      refine ⟨?_, hs.nonempty, .inr hcon, hs.remoteTx, fun h => Bool.noConfusion h,
        fun h => absurd h hc, hs.gone, ?_, ?_, ?_⟩
      · simp only [upload, startThreads, hheld]
        simpa [upload, hi, WriterThread.held] using hst
      · simp only [startThreads]
        split_ifs <;> simp [hi]
      · intro he
        simp only [startThreads] at he
        split_ifs at he
        simp [hi] at he
      · intro hd
        simp [hs.dropped hd] at hi
  · exact hs

theorem recvSlice (hs : s.Uploading u) (h : s.step .recvSlice = some t) :
    t.Uploading (u.record s .recvSlice) := by
  obtain ⟨⟨hp, hcan⟩, rfl⟩ := when_eq_some.mp h
  have hrx : s.socket.rx ≠ [] := by
    intro hn
    simp [canDrain, hn] at hcan
  have hdata : (s.socket.recvSlice recvBufferSize).1 ≠ [] := by
    simp [Socket.recvSlice, recvBufferSize, hrx]
  have hst : s.upload = s.written ++ s.writer.held ++ s.uploadQueue := by
    simp [upload, hp, FlowPhase.drained]
  have hc : ¬ s.flow.closed := hs.not_closed (by simp [hp]) (by simp [hp, FlowPhase.gone])
  refine ⟨?_, ?_, hs.connect, hs.remoteTx, hs.unconnected, fun h => absurd h hc,
    fun h => Bool.noConfusion h, hs.failed, hs.ended, hs.dropped⟩
  · have hold := hs.stream
    rw [hst] at hold
    simp only [upload, FlowPhase.drained, Uploads.record, ← hold]
  · intro data hmem
    obtain hmem | hmem := List.mem_append.mp hmem
    · exact hs.nonempty data (List.mem_append_left _ hmem)
    · obtain rfl := List.mem_singleton.mp hmem
      exact hdata

theorem send (hs : s.Uploading u) (h : s.step .send = some t) : t.Uploading u := by
  simp only [FlowState.step] at h
  split at h
  · rename_i data hp
    obtain rfl := Option.some.inj h
    have hc : ¬ s.flow.closed := hs.not_closed (by simp [hp]) (by simp [hp, FlowPhase.gone])
    have hst : s.upload = s.written ++ s.writer.held ++ s.uploadQueue ++ [data] := by
      simp [upload, hp, FlowPhase.drained]
    have hne := hs.nonempty
    rw [hp] at hne
    unfold FlowState.send
    rw [if_pos (hs.receiverAlive hc)]
    refine ⟨?_, ?_, hs.connect, hs.remoteTx, hs.unconnected, fun h => absurd h hc,
      fun h => Bool.noConfusion h, hs.failed, fun he => ?_, hs.dropped⟩
    · rw [← hs.stream, hst]
      simp [upload, FlowPhase.drained]
    · simpa [FlowPhase.drained] using hne
    · exact absurd (hs.ended he).1 hc
  · cases h

/-- The writer thread moves on, with the channel and what is written as given. -/
theorem setWriter (hs : s.Uploading u) {writer : WriterThread} {queue written : List Chunk}
    {pending : UInt64}
    (hst : written ++ writer.held ++ queue = s.written ++ s.writer.held ++ s.uploadQueue)
    (hq : ∀ data ∈ queue, data ∈ s.uploadQueue) (hi : s.writer ≠ .idle) (he : s.writer ≠ .ended)
    (hf : writer ≠ .failed) (hend : writer = .ended → s.flow.closed ∧ queue = []) :
    { s with
      writer := writer
      uploadQueue := queue
      written := written
      flow.uploadPending := pending }.Uploading u where
  stream := by
    rw [← hs.stream, upload, upload]
    simp only [hst]
  nonempty data hmem := by
    obtain hmem | hmem := List.mem_append.mp hmem
    · exact hs.nonempty data (List.mem_append_left _ (hq data hmem))
    · exact hs.nonempty data (List.mem_append_right _ hmem)
  connect := hs.connect
  remoteTx := hs.remoteTx
  unconnected h := absurd (hs.unconnected h) hi
  closed := hs.closed
  gone := hs.gone
  failed := hf
  ended h := ⟨(hend h).1, fun hd => absurd (hs.dropped hd) he, fun hn => absurd (hend h).2 hn⟩
  dropped h := absurd (hs.dropped h) he

theorem writerCheck (hs : s.Uploading u) (h : s.step .writerCheck = some t) :
    t.Uploading (u.record s .writerCheck) := by
  obtain ⟨hw, rfl⟩ := when_eq_some.mp h
  have hnd : ¬ u.dropped := by
    intro hd
    simp [hs.dropped hd] at hw
  have hst : s.upload = s.written ++ s.uploadQueue ++ s.phase.drained := by
    simp [upload, hw, WriterThread.held]
  have hi : ¬ s.flow.connectRx := by
    intro hc
    simp [hs.unconnected hc] at hw
  by_cases hc : s.flow.closed
  · have hdrop : (u.record s .writerCheck).dropped ↔ s.uploadQueue ≠ [] := by
      cases hq : s.uploadQueue <;> simp [Uploads.record, hc, hq, hnd]
    have hdrained : (u.record s .writerCheck).drained = u.drained := by
      unfold Uploads.record
      split_ifs <;> rfl
    simp only [hc, if_true]
    refine ⟨?_, hs.nonempty, hs.connect, hs.remoteTx, fun h => absurd h hi, hs.closed, hs.gone,
      fun h => WriterThread.noConfusion h, fun _ => ⟨hc, hdrop⟩, fun _ => rfl⟩
    rw [hdrained, ← hs.stream, hst]
    simp [upload, WriterThread.held]
  · have hrec : u.record s .writerCheck = u := by simp [Uploads.record, hc]
    simp only [hc, hrec]
    exact hs.setWriter (by simp [hw, WriterThread.held]) (fun _ h => h) (by simp [hw])
      (by simp [hw]) (by simp) (by simp)

/-- A step of an undisturbed flow. -/
theorem step (hs : s.Uploading u) (hund : a.Undisturbed) (h : s.step a = some t) :
    t.Uploading (u.record s a) := by
  cases a with
  | recvSlice => exact hs.recvSlice h
  | writerCheck => exact hs.writerCheck h
  | send => exact hs.send h
  | poll e =>
    obtain ⟨-, k, -, rfl⟩ := step_poll h
    exact hs.congr rfl rfl rfl rfl hs.connect ⟨rfl, rfl⟩ hs.closed id hs.gone
  | visit | stopUpload =>
    obtain ⟨hp, rfl⟩ := when_eq_some.mp h
    have hc : ¬ s.flow.closed := hs.not_closed (by simp [hp]) (by simp [hp, FlowPhase.gone])
    exact hs.move hc (by simp [hp, FlowPhase.drained]) ⟨by simp [FlowPhase.gone], rfl⟩
  | tryConnect =>
    obtain ⟨hp, rfl⟩ := when_eq_some.mp h
    have ht := hs.tryConnect hp
    have hc : ¬ s.tryConnect.flow.closed :=
      ht.not_closed (by simp [hp]) (by simp [hp, FlowPhase.gone])
    refine ht.move hc (by simp [hp, FlowPhase.drained]) ?_
    split_ifs
    all_goals exact ⟨by simp [FlowPhase.gone], rfl⟩
  | tryRecv =>
    obtain ⟨hp, rfl⟩ := when_eq_some.mp h
    have hc : ¬ s.flow.closed := hs.not_closed (by simp [hp]) (by simp [hp, FlowPhase.gone])
    have hd : s.phase.drained = [] := by simp [hp, FlowPhase.drained]
    unfold FlowState.tryRecv
    split
    · exact hs.move hc hd ⟨by simp [FlowPhase.gone], rfl⟩
    · exact hs.move hc hd ⟨by simp [FlowPhase.gone], rfl⟩
    · exact hs.congr rfl rfl rfl hd.symm hs.connect ⟨rfl, rfl⟩ (fun h => absurd h hc) id
        fun h => Bool.noConfusion h
    · split_ifs
      · exact hs.congr rfl rfl rfl hd.symm hs.connect ⟨rfl, rfl⟩ (fun h => absurd h hc) id
          fun h => Bool.noConfusion h
      · exact hs.move hc hd ⟨by simp [FlowPhase.gone], rfl⟩
  | sendSlice =>
    obtain ⟨hp, rfl⟩ := when_eq_some.mp h
    have hc : ¬ s.flow.closed := hs.not_closed (by simp [hp]) (by simp [hp, FlowPhase.gone])
    have hd : s.phase.drained = [] := by simp [hp, FlowPhase.drained]
    unfold FlowState.sendSlice
    split
    · exact hs.move hc hd ⟨by simp [FlowPhase.gone], rfl⟩
    · split_ifs
      · refine hs.congr rfl rfl rfl ?_ hs.connect ⟨rfl, rfl⟩ (fun h => absurd h hc) id ?_
        · dsimp only
          split_ifs
          all_goals exact hd.symm
        · dsimp only
          split_ifs
          all_goals exact fun h => Bool.noConfusion h
      · exact hs.move hc hd ⟨by simp [FlowPhase.gone], rfl⟩
  | closeSocket =>
    obtain ⟨hp, rfl⟩ := when_eq_some.mp h
    have hc : ¬ s.flow.closed := hs.not_closed (by simp [hp]) (by simp [hp, FlowPhase.gone])
    have hd : s.phase.drained = [] := by simp [hp, FlowPhase.drained]
    unfold FlowState.closeSocket
    split_ifs
    · exact hs.congr rfl rfl rfl hd.symm hs.connect ⟨rfl, rfl⟩ (fun h => absurd h hc) id
        fun h => Bool.noConfusion h
    · exact hs.move hc hd ⟨by simp [FlowPhase.gone], rfl⟩
  | judge now =>
    obtain ⟨hp, rfl⟩ := when_eq_some.mp h
    exact hs.congr rfl rfl rfl (by simp [hp, FlowPhase.drained, FlowState.judge]) hs.connect
      ⟨rfl, rfl⟩ (fun _ => .inl rfl) (fun h => by simp [FlowState.judge, h])
      fun h => Bool.noConfusion h
  | reap =>
    obtain ⟨hp, rfl⟩ := when_eq_some.mp h
    have hd : s.phase.drained = [] := by simp [hp, FlowPhase.drained]
    by_cases hc : s.flow.closed
    · simp only [hc, if_true]
      exact hs.congr rfl rfl rfl hd.symm hs.connect ⟨rfl, rfl⟩ (fun _ => .inr rfl) id fun _ => hc
    · simp only [hc]
      exact hs.move hc hd ⟨by simp [FlowPhase.gone], rfl⟩
  | stopLoop =>
    obtain ⟨hp, rfl⟩ := when_eq_some.mp h
    exact hs.congr rfl rfl rfl (by simp [hp, FlowPhase.drained]) hs.connect ⟨rfl, rfl⟩
      (fun _ => .inr rfl) (fun _ => rfl) fun _ => rfl
  | connectReturns ok =>
    obtain ⟨-, rfl⟩ := when_eq_some.mp h
    cases ok with
    | false => exact hund.elim
    | true => exact hs.congr rfl rfl rfl rfl (.inr rfl) ⟨rfl, rfl⟩ hs.closed id hs.gone
  | connectDies => exact hund.elim
  | readerCheck =>
    obtain ⟨-, rfl⟩ := when_eq_some.mp h
    exact hs.congr rfl rfl rfl rfl hs.connect ⟨rfl, rfl⟩ hs.closed id hs.gone
  | readerRead data =>
    obtain ⟨-, rfl⟩ := when_eq_some.mp h
    split_ifs
    all_goals exact hs.congr rfl rfl rfl rfl hs.connect ⟨rfl, rfl⟩ hs.closed id hs.gone
  | readerSend =>
    simp only [FlowState.step] at h
    split at h
    · split_ifs at h
      · obtain rfl := Option.some.inj h
        exact hs.congr rfl rfl rfl rfl hs.connect ⟨rfl, rfl⟩ hs.closed id hs.gone
      · obtain ⟨-, rfl⟩ := when_eq_some.mp h
        exact hs.congr rfl rfl rfl rfl hs.connect ⟨rfl, rfl⟩ hs.closed id hs.gone
    · cases h
  | writerRecv =>
    simp only [FlowState.step] at h
    split at h
    · rename_i data rest hq
      obtain ⟨hw, rfl⟩ := when_eq_some.mp h
      exact hs.setWriter (by simp [hw, hq, WriterThread.held])
        (fun d hd => hq ▸ List.mem_cons_of_mem _ hd) (by simp [hw]) (by simp [hw]) (by simp)
        (by simp)
    · rename_i hq
      obtain ⟨⟨hw, hg⟩, rfl⟩ := when_eq_some.mp h
      have hc := hs.gone (hg.resolve_right (by simp [hs.remoteTx]))
      exact hs.setWriter (by simp [hw, WriterThread.held]) (fun _ h => h) (by simp [hw])
        (by simp [hw]) (by simp) fun _ => ⟨hc, hq⟩
  | writerTimeout =>
    obtain ⟨⟨hw, -⟩, rfl⟩ := when_eq_some.mp h
    exact hs.setWriter (by simp [hw, WriterThread.held]) (fun _ h => h) (by simp [hw])
      (by simp [hw]) (by simp) (by simp)
  | writerWrite ok =>
    simp only [FlowState.step] at h
    split at h
    · rename_i data hw
      cases ok with
      | false => exact hund.elim
      | true =>
        obtain rfl := Option.some.inj h
        exact hs.setWriter (by simp [hw, WriterThread.held]) (fun _ h => h) (by simp [hw])
          (by simp [hw]) (by simp) (by simp)
    · cases h
  | writerDies => exact hund.elim
  | writerFree =>
    obtain ⟨hw, rfl⟩ := when_eq_some.mp h
    exact hs.setWriter (by simp [hw, WriterThread.held]) (fun _ h => h) (by simp [hw])
      (by simp [hw]) (by simp) (by simp)
  | writerBreak =>
    obtain ⟨hw, -⟩ := when_eq_some.mp h
    exact absurd hw hs.failed

end Uploading

variable {p : FlowState × Uploads}

theorem uploading_of_undisturbed (h : uploads.ReachUnder (fun _ a => a.Undisturbed) p) :
    p.1.Uploading p.2 := by
  refine h.invariant (I := fun q => q.1.Uploading q.2) ?_ ?_
  · rintro ⟨s, u⟩ ⟨⟨k, now, -, rfl⟩, rfl⟩
    exact uploading_started k now
  · intro p a q _ hs hund hq
    obtain ⟨ht, hu⟩ := System.observe_step.mp hq
    rw [hu]
    exact hs.step hund ht

/-- Once the flow is reaped and its writer thread has ended, what was drained from the app
has been written, in order and once. -/
def UploadComplete (p : FlowState × Uploads) : Prop :=
  p.1.phase = .removed → p.1.writer = .ended → p.1.written.flatten = p.2.drained.flatten

/-- The upload of an undisturbed flow is complete where, and only where, the writer thread
has at no time found the flow closed with chunks still in the channel. -/
theorem uploadComplete_iff (h : uploads.ReachUnder (fun _ a => a.Undisturbed) p)
    (hp : p.1.phase = .removed) (hw : p.1.writer = .ended) :
    UploadComplete p ↔ ¬ p.2.dropped := by
  have hs := uploading_of_undisturbed h
  have hst : p.1.written ++ p.1.uploadQueue = p.2.drained := by
    simpa [upload, hp, hw, WriterThread.held, FlowPhase.drained] using hs.stream
  have hflat : UploadComplete p ↔ p.1.uploadQueue.flatten = [] := by
    simp [UploadComplete, hp, hw, ← hst]
  rw [hflat, (hs.ended hw).2, not_not]
  constructor
  · intro he
    by_contra hne
    obtain ⟨data, rest, hq⟩ := List.exists_cons_of_ne_nil hne
    have hd : data ≠ [] := hs.nonempty data (by simp [hq])
    simp [hq, hd] at he
  · intro hq
    simp [hq]

private def uploadStart : FlowState :=
  .started (.afterSyn ⟨.ofOctets 10 0 0 1, 80⟩ ⟨.ofOctets 10 8 0 2, 50000⟩) 0

/-- The connection is made, the app sends a byte and a pass takes it up. -/
private def uploadsByte : List FlowAction :=
  [.connectReturns true, .tryConnect, .stopUpload, .tryRecv, .closeSocket, .judge 0, .reap,
    .poll .transmitSynAck, .poll .handshake, .poll (.data [7]), .visit, .tryConnect, .recvSlice,
    .send, .stopUpload, .tryRecv, .closeSocket, .judge 0, .reap]

/-- Both sides end, and a pass finds the flow finished. -/
private def bothEnd : List FlowAction :=
  [.poll .fin, .readerCheck, .readerRead [], .visit, .tryConnect, .stopUpload, .tryRecv,
    .closeSocket, .judge 0, .reap]

theorem uploadComplete_written : ∃ p : FlowState × Uploads,
    p.2.drained = [[7]] ∧ UploadComplete p := by
  have h0 : uploads.ReachUnder (fun _ a => a.Undisturbed) (uploadStart, .none) :=
    .init ⟨⟨_, 0, Socket.taken_afterSyn _ _, rfl⟩, rfl⟩
  have h1 := h0.run uploadsByte (by decide) rfl
  have h2 := h1.run [.writerCheck, .writerRecv, .writerWrite true, .writerFree] (by decide) rfl
  have h3 := h2.run bothEnd (by decide) rfl
  have h4 := h3.run [.writerCheck] (by decide) rfl
  exact ⟨_, rfl, (uploadComplete_iff h4 rfl rfl).mpr (by decide)⟩

/-- The pass that finds the flow finished sets `closed` before the writer thread has looked
at the channel. -/
theorem closed_drops_upload : ¬ ∀ p : FlowState × Uploads,
    uploads.ReachUnder (fun _ a => a.Undisturbed) p → UploadComplete p := by
  intro h
  have h0 : uploads.ReachUnder (fun _ a => a.Undisturbed) (uploadStart, .none) :=
    .init ⟨⟨_, 0, Socket.taken_afterSyn _ _, rfl⟩, rfl⟩
  have h1 := h0.run uploadsByte (by decide) rfl
  have h2 := h1.run bothEnd (by decide) rfl
  have h3 := h2.run [.writerCheck] (by decide) rfl
  exact absurd (h _ h3 rfl rfl) (by decide)

end FlowState

end NulConnect.TunStack
