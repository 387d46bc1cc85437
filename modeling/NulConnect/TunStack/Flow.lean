import NulConnect.TunStack.Socket

/-! One TCP flow of the stack loop: its socket, its visit in a pass of `process_tcp`, and the
connect, reader and writer threads that work for it. -/
namespace NulConnect.TunStack
open Transition

def flowChannelCapacity : ℕ := 8

def handshakeTimeoutMs : ℕ := 30000

/-- The size of `tcp_recv_buffer`, and of the buffer of the reader thread. -/
def recvBufferSize : ℕ := 64 * 1024

/-- `remoteRx` holds the chunks in the channel from the reader thread; the other handles of a
flow are there or not. -/
structure TcpFlow where
  startedMs : ℕ
  remote : Bool
  remoteRx : Option (List Chunk)
  downloadPending : Option (Chunk × ℕ)
  remoteEof : Bool
  finSent : Bool
  remoteTx : Bool
  remoteWriteRx : Bool
  connectRx : Bool
  uploadPending : UInt64
  closed : Bool
deriving DecidableEq, Repr

def TcpFlow.accepted (now : ℕ) : TcpFlow where
  startedMs := now
  remote := false
  remoteRx := none
  downloadPending := none
  remoteEof := false
  finSent := false
  remoteTx := true
  remoteWriteRx := true
  connectRx := true
  uploadPending := 0
  closed := false

/-- Where the loop stands in its visit to the flow; `polling` is all of an iteration outside
of `process_tcp`. -/
inductive FlowPhase where
  | polling
  | connecting
  | uploading
  | sending (data : Chunk)
  | receiving
  | writing
  | closing
  | judging
  | reaping
  | removed
  | stopped
deriving DecidableEq, Repr

/-- The thread that runs the route check and `TcpTunnel::connect`. -/
inductive ConnectThread where
  | running
  | sent (ok : Bool)
  | dead
deriving DecidableEq, Repr

inductive ReaderThread where
  | idle
  | checking
  | reading
  | sending (data : Chunk)
  | ended
deriving DecidableEq, Repr

inductive WriterThread where
  | idle
  | checking
  | receiving
  | writing (data : Chunk)
  | written
  | failed
  | ended
deriving DecidableEq, Repr

/-- `wire` is what the socket has handed to the device, `delivered` what the reads of the
tunnel have returned and `written` what `TcpTunnel::write` has been given. -/
structure FlowState where
  phase : FlowPhase
  socket : Socket
  flow : TcpFlow
  connect : ConnectThread
  reader : ReaderThread
  writer : WriterThread
  uploadQueue : List Chunk
  wire : List Segment
  delivered : List Chunk
  eof : Bool
  written : List Chunk
  uploadBytes : UInt64
  downloadBytes : UInt64
deriving DecidableEq, Repr

inductive FlowAction where
  | poll (e : PollEvent)
  | visit
  | tryConnect
  | recvSlice
  | send
  | stopUpload
  | tryRecv
  | sendSlice
  | closeSocket
  | judge (now : ℕ)
  | reap
  | stopLoop
  | connectReturns (ok : Bool)
  | connectDies
  | readerCheck
  | readerRead (data : Chunk)
  | readerSend
  | writerCheck
  | writerRecv
  | writerTimeout
  | writerWrite (ok : Bool)
  | writerDies
  | writerFree
  | writerBreak
deriving DecidableEq, Repr

def FlowAction.visits : FlowAction → Bool
  | .visit | .tryConnect | .recvSlice | .send | .stopUpload | .tryRecv | .sendSlice
  | .closeSocket | .judge _ => true
  | _ => false

def FlowAction.threads : FlowAction → Bool
  | .connectReturns _ | .connectDies | .readerCheck | .readerRead _ | .readerSend | .writerCheck
  | .writerRecv | .writerTimeout | .writerWrite _ | .writerDies | .writerFree
  | .writerBreak => true
  | _ => false

def tcpFlowFinished (state : TcpState) (mayRecv maySend : Bool) (ageMs : ℕ) : Bool :=
  match state with
  | .closed => true
  | .synReceived | .synSent => ageMs > handshakeTimeoutMs
  | _ => !mayRecv && !maySend

/-- The loop has dropped the flow, and with it its ends of the channels. -/
def FlowPhase.gone : FlowPhase → Bool
  | .removed | .stopped => true
  | _ => false

namespace FlowState

def started (socket : Socket) (now : ℕ) : FlowState where
  phase := .connecting
  socket := socket
  flow := .accepted now
  connect := .running
  reader := .idle
  writer := .idle
  uploadQueue := []
  wire := []
  delivered := []
  eof := false
  written := []
  uploadBytes := 0
  downloadBytes := 0

@[simp] def giveUp (s : FlowState) : FlowState :=
  { s with socket := s.socket.abort, flow.closed := true }

/-- `start_tcp_flow_threads`; a writer is started where the receiver is still there. -/
@[simp] def startThreads (s : FlowState) : FlowState :=
  { s with
    flow.remoteRx := some []
    flow.remoteWriteRx := false
    reader := .checking
    writer := if s.flow.remoteWriteRx then .checking else s.writer }

def tryConnect (s : FlowState) : FlowState :=
  if s.flow.connectRx then
    match s.connect with
    | .sent true => { s.startThreads with flow.remote := true, flow.connectRx := false }
    | .sent false | .dead => { s.giveUp with flow.connectRx := false }
    | .running => s
  else s

/-- The receiver of the upload channel exists: with the flow, or with the writer thread. -/
def receiverAlive (s : FlowState) : Bool := s.flow.remoteWriteRx || s.writer ≠ .ended

def canDrain (s : FlowState) : Bool :=
  s.flow.uploadPending.toNat < flowChannelCapacity && s.flow.remoteTx && !s.socket.rx.isEmpty

def send (s : FlowState) (data : Chunk) : FlowState :=
  if s.receiverAlive then
    { s with
      phase := .uploading
      uploadQueue := s.uploadQueue ++ [data]
      uploadBytes := s.uploadBytes + .ofNat data.length }
  else
    { s.giveUp with
      phase := .receiving
      flow.uploadPending := s.flow.uploadPending - 1
      flow.remoteTx := false }

/-- The top of the loop of `deliver_download`, up to `can_send`. -/
def tryRecv (s : FlowState) : FlowState :=
  match s.flow.downloadPending, s.flow.remoteRx with
  | some _, _ => { s with phase := .writing }
  | none, none => { s with phase := .judging }
  | none, some (data :: rest) => { s with
      phase := .writing
      flow.downloadPending := some (data, 0)
      flow.remoteRx := some rest }
  | none, some [] =>
    if s.reader = .ended then { s with phase := .closing, flow.remoteEof := true }
    else { s with phase := .closing }

/-- The rest of the loop: a chunk written whole makes room for the next. -/
def sendSlice (s : FlowState) : FlowState :=
  match s.flow.downloadPending with
  | none => { s with phase := .closing }
  | some (data, offset) =>
    if s.socket.canSend then
      let written := s.socket.writes (data.drop offset)
      { s with
        socket := s.socket.sendSlice (data.drop offset)
        downloadBytes := s.downloadBytes + .ofNat written
        phase := if offset + written < data.length then .closing else .receiving
        flow.downloadPending :=
          if offset + written < data.length then some (data, offset + written) else none }
    else { s with phase := .closing }

def closeSocket (s : FlowState) : FlowState :=
  if s.flow.remoteEof ∧ s.flow.downloadPending = none ∧ ¬ s.flow.finSent then
    { s with phase := .judging, socket := s.socket.close, flow.finSent := true }
  else { s with phase := .judging }

def judge (s : FlowState) (now : ℕ) : FlowState :=
  { s with
    phase := .reaping
    flow.closed := s.flow.closed || tcpFlowFinished s.socket.state s.socket.mayRecv
      s.socket.maySend (now - s.flow.startedMs) }

def step (s : FlowState) : FlowAction → Option FlowState
  -- the loop
  | .poll e => if s.phase = .polling then
      (s.socket.poll e).map fun k => { s with socket := k, wire := s.wire ++ s.socket.emits e }
    else none
  | .visit => when (s.phase = .polling) { s with phase := .connecting }
  | .tryConnect => when (s.phase = .connecting)
      { s.tryConnect with
        phase := if s.tryConnect.flow.remote then .uploading else .judging }
  | .recvSlice => when (s.phase = .uploading ∧ s.canDrain)
      { s with
        phase := .sending (s.socket.recvSlice recvBufferSize).1
        socket := (s.socket.recvSlice recvBufferSize).2
        flow.uploadPending := s.flow.uploadPending + 1 }
  | .send =>
    match s.phase with
    | .sending data => some (s.send data)
    | _ => none
  | .stopUpload => when (s.phase = .uploading ∧ ¬ s.canDrain) { s with phase := .receiving }
  | .tryRecv => when (s.phase = .receiving) s.tryRecv
  | .sendSlice => when (s.phase = .writing) s.sendSlice
  | .closeSocket => when (s.phase = .closing) s.closeSocket
  | .judge now => when (s.phase = .judging) (s.judge now)
  | .reap => when (s.phase = .reaping)
      { s with phase := if s.flow.closed then .removed else .polling }
  | .stopLoop => when (s.phase = .polling) { s with phase := .stopped, flow.closed := true }
  -- the connect thread
  | .connectReturns ok => when (s.connect = .running) { s with connect := .sent ok }
  | .connectDies => when (s.connect = .running) { s with connect := .dead }
  -- the reader thread; an empty read stands for `Ok(0)` and for an error
  | .readerCheck => when (s.reader = .checking)
      { s with reader := if s.flow.closed then .ended else .reading }
  | .readerRead data => when (s.reader = .reading ∧ data.length ≤ recvBufferSize) <|
      if data = [] then { s with reader := .ended, eof := true }
      else { s with reader := .sending data, delivered := s.delivered ++ [data] }
  | .readerSend =>
    match s.reader, s.flow.remoteRx with
    | .sending data, some queue =>
      if s.phase.gone then some { s with reader := .ended }
      else when (queue.length < flowChannelCapacity)
        { s with reader := .checking, flow.remoteRx := some (queue ++ [data]) }
    | _, _ => none
  -- the writer thread
  | .writerCheck => when (s.writer = .checking)
      { s with writer := if s.flow.closed then .ended else .receiving }
  | .writerRecv =>
    match s.uploadQueue with
    | data :: rest => when (s.writer = .receiving)
        { s with writer := .writing data, uploadQueue := rest }
    | [] => when (s.writer = .receiving ∧ (s.phase.gone ∨ ¬ s.flow.remoteTx))
        { s with writer := .ended }
  | .writerTimeout => when (s.writer = .receiving ∧ s.uploadQueue = [] ∧
        ¬ (s.phase.gone ∨ ¬ s.flow.remoteTx))
      { s with writer := .checking }
  | .writerWrite ok =>
    match s.writer with
    | .writing data =>
      if ok then some { s with writer := .written, written := s.written ++ [data] }
      else some { s with writer := .failed, flow.closed := true }
    | _ => none
  | .writerDies =>
    match s.writer with
    | .writing _ => some { s with writer := .ended }
    | _ => none
  | .writerFree => when (s.writer = .written)
      { s with writer := .checking, flow.uploadPending := s.flow.uploadPending - 1 }
  | .writerBreak => when (s.writer = .failed) { s with writer := .ended }

variable {s t : FlowState} {e : PollEvent}

theorem step_poll (h : s.step (.poll e) = some t) : s.phase = .polling ∧
    ∃ k, s.socket.poll e = some k ∧
      t = { s with socket := k, wire := s.wire ++ s.socket.emits e } := by
  simp only [step] at h
  split_ifs at h with hp
  obtain ⟨k, hk, rfl⟩ := Option.map_eq_some_iff.mp h
  exact ⟨hp, k, hk, rfl⟩

end FlowState

structure Socket.Taken (k : Socket) : Prop where
  state : k.state = .synReceived ∨ k.state = .established ∨ k.state = .closeWait
  tuple : k.tuple ≠ none
  unsent : k.unsent = []
  inFlight : k.inFlight = []
  finSent : k.finSent = false

def Socket.afterSyn (target source : Endpoint) : Socket where
  state := .synReceived
  listenEndpoint := target
  tuple := some source
  synAckSent := false
  rx := []
  inFlight := []
  unsent := []
  finSent := false

theorem Socket.taken_afterSyn (target source : Endpoint) : (afterSyn target source).Taken := by
  constructor <;> simp [afterSyn]

def flowSystem : System FlowState FlowAction where
  init s := ∃ k now, k.Taken ∧ s = .started k now
  step := FlowState.step

end NulConnect.TunStack
