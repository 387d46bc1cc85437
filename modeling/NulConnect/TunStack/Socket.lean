import NulConnect.Net.Ipv4
import NulConnect.Transition.System
import Mathlib.Tactic

/-! The TCP socket of smoltcp as the stack loop uses it: the calls made on it between two
polls, and what `iface.poll` may do to it. Sequence numbers, windows and retransmission are
left to smoltcp: a poll hands out any amount of what is queued. -/
namespace NulConnect.TunStack
open Transition Net

abbrev Chunk := List UInt8

structure Endpoint where
  addr : Ipv4Addr
  port : UInt16
deriving DecidableEq, Repr

/-- `SOCKET_BUFFER`. -/
def socketBuffer : ℕ := 256 * 1024

inductive TcpState where
  | closed
  | listen
  | synSent
  | synReceived
  | established
  | finWait1
  | finWait2
  | closeWait
  | closing
  | lastAck
  | timeWait
deriving DecidableEq, Repr

/-- What a socket of its own accord hands to the TUN device; acknowledgements, repeated
segments and answers to stray ones are left out. -/
inductive Segment where
  | synAck
  | data (bytes : Chunk)
  | fin
  | rst
deriving DecidableEq, Repr

/-- `tuple` is the far end of the connection, kept until the connection is forgotten. The
send buffer is `inFlight ++ unsent`: the part a poll has handed out and the part still
waiting for one. -/
structure Socket where
  state : TcpState
  listenEndpoint : Endpoint
  tuple : Option Endpoint
  synAckSent : Bool
  rx : Chunk
  inFlight : Chunk
  unsent : Chunk
  finSent : Bool
deriving DecidableEq, Repr

namespace Socket

def new : Socket where
  state := .closed
  listenEndpoint := ⟨0, 0⟩
  tuple := none
  synAckSent := false
  rx := []
  inFlight := []
  unsent := []
  finSent := false

/-- Fails just for port 0. -/
def listen (k : Socket) (target : Endpoint) : Option Socket :=
  when (target.port ≠ 0) { k with state := .listen, listenEndpoint := target, tuple := none }

def isActive (k : Socket) : Bool :=
  match k.state with
  | .closed | .timeWait | .listen => false
  | _ => true

def maySend (k : Socket) : Bool :=
  match k.state with
  | .established | .closeWait => true
  | _ => false

def mayRecv (k : Socket) : Bool :=
  match k.state with
  | .established | .finWait1 | .finWait2 => true
  | _ => !k.rx.isEmpty

def canSend (k : Socket) : Bool :=
  k.maySend && (k.inFlight.length + k.unsent.length < socketBuffer)

/-- The number of bytes `send_slice` queues. -/
def writes (k : Socket) (data : Chunk) : ℕ :=
  if k.maySend then min data.length (socketBuffer - (k.inFlight.length + k.unsent.length)) else 0

def sendSlice (k : Socket) (data : Chunk) : Socket :=
  { k with unsent := k.unsent ++ data.take (k.writes data) }

/-- What `recv_slice` takes into a buffer of the given size. -/
def recvSlice (k : Socket) (size : ℕ) : Chunk × Socket :=
  (k.rx.take size, { k with rx := k.rx.drop size })

/-- Queues a FIN behind the send buffer. -/
def close (k : Socket) : Socket :=
  { k with
    state := match k.state with
      | .listen | .synSent => .closed
      | .synReceived | .established => .finWait1
      | .closeWait => .lastAck
      | s => s }

def abort (k : Socket) : Socket := { k with state := .closed }

end Socket

/-- What one poll does to one socket is a sequence of these. -/
inductive PollEvent where
  | syn (source : Endpoint)
  | handshake
  | data (bytes : Chunk)
  | ack (n : ℕ)
  | finAck
  | fin
  | rst
  | expire
  | transmitSynAck
  | transmit (n : ℕ)
  | transmitFin
  | transmitRst
deriving DecidableEq, Repr

namespace TcpState

/-- The far side has not closed its half. -/
def receives : TcpState → Bool
  | .established | .finWait1 | .finWait2 => true
  | _ => false

/-- The states in which queued data is handed out. -/
def transmits : TcpState → Bool
  | .established | .closeWait | .finWait1 | .closing | .lastAck => true
  | _ => false

/-- The states in which a FIN is queued. -/
def finQueued : TcpState → Bool
  | .finWait1 | .closing | .lastAck => true
  | _ => false

def afterFin : TcpState → Option TcpState
  | .synReceived | .established => some .closeWait
  | .finWait1 => some .closing
  | .finWait2 => some .timeWait
  | _ => none

def afterFinAck : TcpState → TcpState
  | .finWait1 => .finWait2
  | .closing => .timeWait
  | .lastAck => .closed
  | s => s

end TcpState

namespace Socket

/-- The app acknowledges only what has been handed out. -/
def poll (k : Socket) : PollEvent → Option Socket
  | .syn source => when (k.state = .listen)
      { k with state := .synReceived, tuple := some source, synAckSent := false }
  | .handshake => when (k.state = .synReceived ∧ k.synAckSent) { k with state := .established }
  | .data bytes => when (k.state.receives ∧ k.rx.length + bytes.length ≤ socketBuffer)
      { k with rx := k.rx ++ bytes }
  | .ack n => when (n ≤ k.inFlight.length) { k with inFlight := k.inFlight.drop n }
  | .finAck => when (k.state.finQueued ∧ k.finSent ∧ k.inFlight = [])
      { k with
        state := k.state.afterFinAck
        tuple := if k.state = .lastAck then none else k.tuple }
  | .fin => when (k.state.afterFin.isSome ∧ (k.state = .synReceived → k.synAckSent))
      { k with state := k.state.afterFin.getD k.state }
  -- a reset handshake goes back to listening
  | .rst => when (k.state ≠ .listen ∧ k.state ≠ .closed)
      { k with state := if k.state = .synReceived then .listen else .closed, tuple := none }
  | .expire => when (k.state = .timeWait) { k with state := .closed, tuple := none }
  | .transmitSynAck => when (k.state = .synReceived) { k with synAckSent := true }
  | .transmit n => when (k.state.transmits ∧ n ≤ k.unsent.length)
      { k with inFlight := k.inFlight ++ k.unsent.take n, unsent := k.unsent.drop n }
  | .transmitFin => when (k.state.finQueued ∧ k.unsent = [] ∧ ¬ k.finSent)
      { k with finSent := true }
  -- an aborted connection is forgotten once its RST is out
  | .transmitRst => when (k.state = .closed ∧ k.tuple ≠ none) { k with tuple := none }

def emits (k : Socket) : PollEvent → List Segment
  | .transmitSynAck => [.synAck]
  | .transmit n => [.data (k.unsent.take n)]
  | .transmitFin => [.fin]
  | .transmitRst => [.rst]
  | _ => []

end Socket

end NulConnect.TunStack
