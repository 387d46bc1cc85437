import NulConnect.TunStack.Flow
import NulConnect.TunStack.Packet
import NulConnect.Transition.Bimap
import NulConnect.Transition.Slots

/-! `run_transport_stack`: the listeners, the flows and the socket set over the iterations of
the stack loop. -/
namespace NulConnect.TunStack
open Transition Net

/-- `LISTENER_IDLE_TIMEOUT_MS`. -/
def listenerIdleTimeoutMs : ℕ := 5 * 60000

/-- `LISTENER_SWEEP_INTERVAL_MS`. -/
def listenerSweepIntervalMs : ℕ := 30000

/-- `UDP_FLOW_IDLE_TIMEOUT_MS`. -/
def udpFlowIdleTimeoutMs : ℕ := 60000

/-- `MAX_UDP_FLOWS`. -/
def maxUdpFlows : ℕ := 512

/-- Listening sockets keyed by destination. -/
structure Listeners where
  byTarget : Endpoint → Option ℕ
  byHandle : ℕ → Option Endpoint
  lastUsed : Endpoint → Option ℕ

namespace Listeners

def empty : Listeners where
  byTarget _ := none
  byHandle _ := none
  lastUsed _ := none

def insert (l : Listeners) (target : Endpoint) (handle : ℕ) : Listeners :=
  { l with
    byTarget := Function.update l.byTarget target (some handle)
    byHandle := Function.update l.byHandle handle (some target) }

/-- `remove_handle`, for the target that the handle has. -/
def removeHandle (l : Listeners) (handle : ℕ) (target : Endpoint) : Listeners :=
  { l with
    byTarget := Function.update l.byTarget target none
    byHandle := Function.update l.byHandle handle none }

def touch (l : Listeners) (target : Endpoint) (now : ℕ) : Listeners :=
  { l with lastUsed := Function.update l.lastUsed target (some now) }

/-- `sweep_idle_listeners` drops a listener together with its time of use. -/
def sweep (l : Listeners) (handle : ℕ) (target : Endpoint) : Listeners :=
  { l.removeHandle handle target with lastUsed := Function.update l.lastUsed target none }

def idle (l : Listeners) (target : Endpoint) (now : ℕ) : Bool :=
  (l.lastUsed target).elim true fun used => listenerIdleTimeoutMs ≤ now - used

end Listeners

/-- A member of the socket set. -/
inductive SetSocket where
  | tcp (k : Socket)
  | udp (bound : Option Endpoint)
deriving DecidableEq

/-- The part of a UDP flow that decides how long it stays in the table. -/
structure UdpFlow where
  lastActivity : ℕ
  closed : Bool
deriving DecidableEq, Repr

/-- The socket of a flow and the source of its datagrams. -/
structure UdpKey where
  handle : ℕ
  source : Endpoint
deriving DecidableEq, Repr

def udpFlowExpired (closed : Bool) (lastActivity now : ℕ) : Bool :=
  closed || udpFlowIdleTimeoutMs ≤ now - lastActivity

inductive StackPhase where
  | draining
  | polling
  | accepting
  | serving
  | reaping
  | relaying
  | expiring
  | repolling
  | sweeping
  | waiting
  | stopped
deriving DecidableEq, Repr

/-- The socket of a flow is the one in the socket set. -/
structure StackState where
  phase : StackPhase
  nowMs : ℕ
  udpNow : ℕ
  nextListenerSweep : ℕ
  incoming : List Packet
  sockets : Slots SetSocket
  tcpListeners : Listeners
  tcpFlows : ℕ → Option FlowState
  udpListeners : Listeners
  udpFlows : List (UdpKey × UdpFlow)
  uploadPackets : UInt64

inductive StackAction where
  | wake (now : ℕ)
  | stop
  | packet (p : Packet)
  | endDrain
  | ingress (events : List PollEvent)
  | egress (h : ℕ) (e : PollEvent)
  | endPoll
  | accept (h : ℕ) (now : ℕ)
  | endAccept
  | serve (h : ℕ) (a : FlowAction)
  | endServe
  | reap (h : ℕ)
  | endReap (now : ℕ)
  | datagram (key : UdpKey)
  | serveUdp (key : UdpKey) (active closed : Bool)
  | endRelay
  | reapUdp (key : UdpKey)
  | endExpire
  | sweepTcp (h : ℕ)
  | sweepUdp (h : ℕ)
  | endSweep

namespace StackState

def initial (now : ℕ) : StackState where
  phase := .waiting
  nowMs := now
  udpNow := now
  nextListenerSweep := now + listenerSweepIntervalMs
  incoming := []
  sockets := []
  tcpListeners := .empty
  tcpFlows _ := none
  udpListeners := .empty
  udpFlows := []
  uploadPackets := 0

def tcpSocket (s : StackState) (h : ℕ) : Option Socket :=
  match s.sockets.get h with
  | some (.tcp k) => some k
  | _ => none

def ensureTcpListener (s : StackState) (target : Endpoint) : StackState :=
  if (s.tcpListeners.byTarget target).isSome then s
  else
    let added := s.sockets.add (.tcp .new)
    match Socket.new.listen target with
    | some k => { s with
        sockets := added.1.put added.2 (.tcp k)
        tcpListeners := s.tcpListeners.insert target added.2 }
    | none => { s with sockets := added.1.remove added.2 }

/-- `bind` fails just for port 0. -/
def ensureUdpListener (s : StackState) (target : Endpoint) : StackState :=
  if (s.udpListeners.byTarget target).isSome then s
  else
    let added := s.sockets.add (.udp none)
    if target.port ≠ 0 then { s with
      sockets := added.1.put added.2 (.udp (some target))
      udpListeners := s.udpListeners.insert target added.2 }
    else { s with sockets := added.1.remove added.2 }

/-- A packet taken off the input channel. -/
def drain (s : StackState) (p : Packet) : StackState :=
  match ipv4ProtocolAndPort p with
  | some (protocol, addr, port) =>
    if protocol = 6 then
      let t := s.ensureTcpListener ⟨addr, port⟩
      { t with
        tcpListeners := t.tcpListeners.touch ⟨addr, port⟩ s.nowMs
        incoming := s.incoming ++ [p]
        uploadPackets := s.uploadPackets + 1 }
    else if protocol = 17 then
      let t := s.ensureUdpListener ⟨addr, port⟩
      { t with
        udpListeners := t.udpListeners.touch ⟨addr, port⟩ s.nowMs
        incoming := s.incoming ++ [p]
        uploadPackets := s.uploadPackets + 1 }
    else s
  | none => s

/-- A step of the flow at a handle, on its socket in the set. -/
def serve (s : StackState) (h : ℕ) (a : FlowAction) : Option StackState :=
  match s.tcpSocket h, s.tcpFlows h with
  | some k, some f => (FlowState.step { f with socket := k } a).map fun f' => { s with
      sockets := s.sockets.put h (.tcp f'.socket)
      tcpFlows := Function.update s.tcpFlows h (some f') }
  | _, _ => none

/-- An event of a poll at a TCP socket. -/
def poll (s : StackState) (h : ℕ) (e : PollEvent) : Option StackState :=
  match s.tcpSocket h, s.tcpFlows h with
  | some k, none => (k.poll e).map fun k' => { s with sockets := s.sockets.put h (.tcp k') }
  | _, _ => s.serve h (.poll e)

def pollAll (s : StackState) (h : ℕ) : List PollEvent → Option StackState
  | [] => some s
  | e :: es => (s.poll h e).bind fun t => t.pollAll h es

/-- The first socket of the set that accepts the segment. -/
def demux (s : StackState) (g : TcpSegment) : Option ℕ :=
  s.sockets.find fun
    | .tcp k => k.accepts g
    | .udp _ => false

/-- What a poll does with a packet. A segment that no socket accepts is at most answered by a
RST. -/
def receive (R : PacketReader) (s : StackState) (p : Packet) (events : List PollEvent) :
    Option StackState :=
  match R.segment p with
  | none => some s
  | some g =>
    match s.demux g with
    | none => some s
    | some h =>
      if (s.tcpSocket h).any (·.state = .listen) then
        if g.isSyn then s.poll h (.syn g.source) else some s
      else if events.all g.allows then s.pollAll h events
      else none

/-- A poll takes the next packet off the device. -/
def ingress (R : PacketReader) (s : StackState) (events : List PollEvent) : Option StackState :=
  match s.incoming with
  | [] => none
  | p :: rest => (s.receive R p events).map fun t => { t with incoming := rest }

/-- A listener that has accepted a connection becomes the socket of a flow, and another
takes its place. -/
def accept (s : StackState) (h now : ℕ) : Option StackState :=
  match s.tcpListeners.byHandle h, s.tcpSocket h with
  | some target, some k => when k.isActive <| ensureTcpListener
      { s with
        tcpListeners := s.tcpListeners.removeHandle h target
        tcpFlows := Function.update s.tcpFlows h (some (.started k now)) } target
  | _, _ => none

/-- A listener that has accepted a connection. -/
def accepted (s : StackState) (h : ℕ) : Bool :=
  (s.tcpListeners.byHandle h).isSome && (s.tcpSocket h).any Socket.isActive

/-- Every flow stands at the given point of its visit. -/
def allFlows (s : StackState) (p : FlowPhase) : Bool :=
  (List.range s.sockets.length).all fun h => (s.tcpFlows h).all (·.phase = p)

/-- The flow leaves the pass, and the set if it is closed. -/
def reap (s : StackState) (h : ℕ) : Option StackState :=
  (s.serve h .reap).map fun t =>
    if (t.tcpFlows h).any (·.phase = .removed) then { t with
      sockets := t.sockets.remove h
      tcpFlows := Function.update t.tcpFlows h none }
    else t

/-- A datagram at a listener opens a flow for its source, unless the table is full, and
keeps the flow alive. -/
def datagram (s : StackState) (key : UdpKey) : StackState :=
  if s.udpFlows.any (·.1 = key) then { s with
    udpFlows := s.udpFlows.map fun q =>
      if q.1 = key then (key, { q.2 with lastActivity := s.udpNow }) else q }
  else if s.udpFlows.length < maxUdpFlows then { s with
    udpFlows := s.udpFlows ++ [(key, { lastActivity := s.udpNow, closed := false })] }
  else s

/-- A visit to a UDP flow, which may have heard from its tunnel or be closed. -/
def serveUdp (s : StackState) (key : UdpKey) (active closed : Bool) : StackState :=
  { s with
    udpFlows := s.udpFlows.map fun q =>
      if q.1 = key then
        (key, { lastActivity := if active then s.udpNow else q.2.lastActivity
                closed := q.2.closed || closed })
      else q }

def expired (s : StackState) (key : UdpKey) : Bool :=
  s.udpFlows.any fun q => q.1 = key && udpFlowExpired q.2.closed q.2.lastActivity s.udpNow

def staleTcp (s : StackState) (h : ℕ) : Bool :=
  (s.tcpListeners.byHandle h).any fun target =>
    s.tcpListeners.idle target s.nowMs && (s.tcpSocket h).any (·.state = .listen)

def staleUdp (s : StackState) (h : ℕ) : Bool :=
  (s.udpListeners.byHandle h).any fun target =>
    s.udpListeners.idle target s.nowMs && !s.udpFlows.any (·.1.handle = h)

def sweepTcp (s : StackState) (h : ℕ) : StackState :=
  match s.tcpListeners.byHandle h with
  | some target => { s with
      tcpListeners := s.tcpListeners.sweep h target
      sockets := s.sockets.remove h }
  | none => s

def sweepUdp (s : StackState) (h : ℕ) : StackState :=
  match s.udpListeners.byHandle h with
  | some target => { s with
      udpListeners := s.udpListeners.sweep h target
      sockets := s.sockets.remove h }
  | none => s

/-- The loop ends and closes its flows. -/
def stop (s : StackState) : StackState :=
  { s with
    phase := .stopped
    tcpFlows := fun h => (s.tcpFlows h).map fun f => (f.step .stopLoop).getD f
    udpFlows := s.udpFlows.map fun q => (q.1, { q.2 with closed := true }) }

def step (R : PacketReader) (s : StackState) : StackAction → Option StackState
  | .wake now => when (s.phase = .waiting) { s with phase := .draining, nowMs := now }
  | .stop => when (s.phase = .waiting) s.stop
  | .packet p => when (s.phase = .draining) (s.drain p)
  | .endDrain => when (s.phase = .draining) { s with phase := .polling }
  -- iface.poll
  | .ingress events => if s.phase = .polling then s.ingress R events else none
  | .egress h e =>
    if (s.phase = .polling ∨ s.phase = .repolling) ∧ s.incoming = [] ∧ e.egress then s.poll h e
    else none
  | .endPoll =>
    if s.phase = .polling then when (s.incoming = []) { s with phase := .accepting }
    else when (s.phase = .repolling)
      (if s.nextListenerSweep ≤ s.nowMs then { s with
        phase := .sweeping
        nextListenerSweep := s.nowMs + listenerSweepIntervalMs }
      else { s with phase := .waiting })
  -- process_tcp
  | .accept h now => if s.phase = .accepting then s.accept h now else none
  | .endAccept => when (s.phase = .accepting ∧ ∀ h < s.sockets.length, ¬ s.accepted h)
      { s with phase := .serving }
  | .serve h a => if a.threads ∨ a.visits ∧ s.phase = .serving then s.serve h a else none
  | .endServe => when (s.phase = .serving ∧ s.allFlows .reaping) { s with phase := .reaping }
  | .reap h => if s.phase = .reaping then s.reap h else none
  | .endReap now => when (s.phase = .reaping ∧ s.allFlows .polling)
      { s with phase := .relaying, udpNow := now }
  -- process_udp
  | .datagram key => when (s.phase = .relaying ∧ (s.udpListeners.byHandle key.handle).isSome)
      (s.datagram key)
  | .serveUdp key active closed =>
    when (s.phase = .relaying ∧ (s.udpListeners.byHandle key.handle).isSome)
      (s.serveUdp key active closed)
  | .endRelay => when (s.phase = .relaying) { s with phase := .expiring }
  | .reapUdp key => when (s.phase = .expiring ∧ s.expired key)
      { s with udpFlows := s.udpFlows.filter (·.1 ≠ key) }
  | .endExpire => when (s.phase = .expiring ∧ ∀ q ∈ s.udpFlows, ¬ s.expired q.1)
      { s with phase := .repolling }
  -- sweep_idle_listeners
  | .sweepTcp h => when (s.phase = .sweeping ∧ s.staleTcp h) (s.sweepTcp h)
  | .sweepUdp h => when (s.phase = .sweeping ∧ s.staleUdp h) (s.sweepUdp h)
  | .endSweep =>
    when (s.phase = .sweeping ∧ ∀ h < s.sockets.length, ¬ s.staleTcp h ∧ ¬ s.staleUdp h)
      { s with phase := .waiting }

end StackState

/-- The stack loop, with smoltcp's reading of packets as a parameter. -/
def stackSystem (R : PacketReader) : System StackState StackAction where
  init s := ∃ now, s = .initial now
  step := StackState.step R

end NulConnect.TunStack
