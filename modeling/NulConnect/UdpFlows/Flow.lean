import NulConnect.TunStack.Loop

/-! One UDP flow of the stack loop: its part in a pass of `process_udp`, and the connect, reader
and writer threads that work for it. -/
namespace NulConnect.UdpFlows
open Transition TunStack

abbrev Datagram := List UInt8

def udpPendingDatagrams : ℕ := 32

/-- The reader thread, with the datagram that it waits to pass on. -/
inductive Reader where
  | idle
  | checking
  | reading
  | sending (data : Datagram)
  | ended
deriving DecidableEq, Repr

inductive Writer where
  | idle
  | checking
  | receiving
  | writing (data : Datagram)
  | ended
deriving DecidableEq, Repr

def Reader.hand : Reader → List Datagram
  | .sending data => [data]
  | _ => []

def Writer.hand : Writer → List Datagram
  | .writing data => [data]
  | _ => []

/-- A datagram that a socket has taken for the app. -/
structure Reply where
  source : Endpoint
  target : Endpoint
  data : Datagram
deriving DecidableEq, Repr

/-- `uploadTx` and `remoteRx` hold what is in the channels to the writer and from the reader.
A flow that has left the table is kept here for its threads. The rest is history: `waited` was
put on `pending` and `handed` on the channel to the writer, `written` was passed to the tunnel,
`heard` came from it and `delivered` went to the app. -/
structure Flow where
  key : UdpKey
  source : Endpoint
  target : Endpoint
  connect : ConnectThread
  connectRx : Bool
  pending : List Datagram
  uploadTx : Option (List Datagram)
  remoteRx : Option (List Datagram)
  lastActivity : ℕ
  closed : Bool
  inTable : Bool
  writer : Writer
  reader : Reader
  waited : List Datagram
  handed : List Datagram
  written : List Datagram
  heard : List Datagram
  delivered : List Reply

inductive ThreadAction where
  | connectReturns (ok : Bool)
  | connectDies
  | write
  | read (data : Option Datagram)

namespace Flow

/-- The entry that `process_udp` makes for a new source, with its connect thread. -/
def opened (key : UdpKey) (target : Endpoint) (now : ℕ) : Flow where
  key := key
  source := key.source
  target := target
  connect := .running
  connectRx := true
  pending := []
  uploadTx := none
  remoteRx := none
  lastActivity := now
  closed := false
  inTable := true
  writer := .idle
  reader := .idle
  waited := []
  handed := []
  written := []
  heard := []
  delivered := []

/-- `try_send` on the channel to the writer, which fails if it is full or the writer is gone,
with the number of bytes sent. -/
def trySend (f : Flow) (data : Datagram) : Flow × ℕ :=
  match f.uploadTx with
  | some queue =>
    if f.writer ≠ .ended ∧ queue.length < udpPendingDatagrams then
      ({ f with uploadTx := some (queue ++ [data]), handed := f.handed ++ [data] }, data.length)
    else (f, 0)
  | none => (f, 0)

def accept (f : Flow) (data : Datagram) (now : ℕ) : Flow × ℕ :=
  let f := { f with lastActivity := now }
  if f.uploadTx.isSome then f.trySend data
  else if f.pending.length < udpPendingDatagrams then
    ({ f with pending := f.pending ++ [data], waited := f.waited ++ [data] }, 0)
  else (f, 0)

def startUdpFlowThreads (f : Flow) : Flow :=
  { f with
    remoteRx := some []
    reader := .checking
    uploadTx := some []
    writer := .checking }

def tryConnect (f : Flow) : Flow :=
  if f.connectRx then
    match f.connect with
    | .running => f
    | .sent true => { f.startUdpFlowThreads with connectRx := false }
    | .sent false | .dead => { f with closed := true, connectRx := false }
  else f

def handOver (f : Flow) : Option (Flow × ℕ) :=
  match f.uploadTx, f.pending with
  | some _, data :: rest => some ({ f with pending := rest }.trySend data)
  | _, _ => none

def tryRecv (f : Flow) (bound : Endpoint) (taken : Bool) (now : ℕ) : Option (Flow × ℕ) :=
  match f.remoteRx with
  | some (data :: rest) =>
    let f := { f with remoteRx := some rest, lastActivity := now }
    if taken then
      some ({ f with delivered := f.delivered ++ [⟨bound, f.source, data⟩] }, data.length)
    else some (f, 0)
  | _ => none

/-- No datagram is left from the reader: the flow is closed if there will be none. -/
def endRecv (f : Flow) : Option Flow :=
  match f.remoteRx with
  | some (_ :: _) => none
  | some [] => some { f with closed := f.closed || f.reader = .ended }
  | none => some f

def expired (f : Flow) (now : ℕ) : Bool := f.inTable && udpFlowExpired f.closed f.lastActivity now

def remove (f : Flow) : Flow := { f with inTable := false, closed := true }

/-- The loop of the writer thread. A flow that has left the table has dropped its end of the
channel. -/
def write (f : Flow) : Option Flow :=
  match f.writer, f.uploadTx with
  | .checking, _ => some { f with writer := if f.closed then .ended else .receiving }
  | .receiving, some (data :: rest) =>
    some { f with uploadTx := some rest, writer := .writing data }
  | .receiving, _ => some { f with writer := if f.inTable then .checking else .ended }
  | .writing data, _ => some { f with written := f.written ++ [data], writer := .checking }
  | _, _ => none

/-- The loop of the reader thread, which leaves it at an error or at an empty datagram, and
waits while the channel is full. -/
def read (f : Flow) (data : Option Datagram) : Option Flow :=
  match f.reader, f.remoteRx with
  | .checking, _ => some { f with reader := if f.closed then .ended else .reading }
  | .reading, _ => some (match data with
      | none | some [] => { f with reader := .ended }
      | some data => { f with reader := .sending data, heard := f.heard ++ [data] })
  | .sending data, some queue =>
    if f.inTable then when (queue.length < flowChannelCapacity)
      { f with reader := .checking, remoteRx := some (queue ++ [data]) }
    else some { f with reader := .ended }
  | _, _ => none

def thread (f : Flow) : ThreadAction → Option Flow
  | .connectReturns ok => when (f.connect = .running) { f with connect := .sent ok }
  | .connectDies => when (f.connect = .running) { f with connect := .dead }
  | .write => f.write
  | .read data => f.read data

end Flow

end NulConnect.UdpFlows
