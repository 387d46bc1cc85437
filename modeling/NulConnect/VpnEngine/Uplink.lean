import NulConnect.TunStack.Fragments
import NulConnect.VpnEngine.Workers

/-! The way of a packet from the device: the uplink worker, `accept_packet`, the input channel and
the stack loop, or the L3 tunnel. -/
namespace NulConnect.VpnEngine.Uplink
open Net Transition TunStack

/-- What the input channel carries. -/
inductive StackEvent where
  | packet (packet : Packet)
  | wake
deriving DecidableEq

inductive Call where
  | receive
  | accept (buf packet : Packet)
  | write (buf packet : Packet)
deriving DecidableEq

inductive Fate where
  | malformed
  | ipv6
  | stack
  | dropped
  | tunnel
deriving DecidableEq

/-- A packet as the device gave it, without its packet information, and where it went. -/
structure Trace where
  buf : Packet
  packet : Packet
  fate : Fate

structure Config where
  worker : WorkerConfig
  client : AtrClient
  fakePool : Bool
  reader : PacketReader

/-- A call of `write_packet`, and its answer. -/
structure Write where
  packet : Packet
  result : Except ReatrustError ℕ

/-- The workers of the engine and the stack loop, with the channel between them. `uploadPackets` is
the counter that they share; each also keeps its own part of it. `given` is what the device has
given, `trail` where it went, and `handed` what smoltcp has taken. -/
structure State where
  engine : Engine
  call : Call
  input : List StackEvent
  nextEvent : Option StackEvent
  stack : StackState
  uploadPackets : UInt64
  given : List Packet
  trail : List Trace
  handed : List Packet
  written : List Write

inductive Action where
  /-- A step of the workers outside the uplink's turn with a packet. -/
  | engine (a : VpnEngine.Action)
  | receive (received : Except IoError Packet)
  | accept
  | write (written : Except ReatrustError ℕ)
  /-- A wake of a flow thread, or of `stop`. -/
  | wake
  /-- `recv_timeout` gives an event. -/
  | recv
  /-- The loop goes on behind its condition. -/
  | iterate (now : ℕ)
  | stop
  | takeNext
  | tryRecv
  /-- `try_recv` finds the channel empty. -/
  | endDrain
  /-- A step of the loop behind its drain. -/
  | stack (a : StackAction)

def initial (now : ℕ) : State where
  engine := VpnEngine.initial
  call := .receive
  input := []
  nextEvent := none
  stack := .initial now
  uploadPackets := 0
  given := []
  trail := []
  handed := []
  written := []

/-- The loop holds the other end of the input channel until it ends. -/
def protocolStack (c : Config) (s : State) : TunProtocolStack where
  client := c.client
  fakePool := c.fakePool
  receiving := s.stack.phase ≠ .stopped

def finish (c : Config) (s : State) (received : Except IoError Packet) (accepted : Bool)
    (written : Except ReatrustError ℕ) : Option State :=
  (VpnEngine.step c.worker s.engine (.uplinkPacket received accepted written)).map fun e =>
    { s with engine := e, call := .receive }

/-- `device.receive`, and what the worker does with the packet by itself. -/
def receive (c : Config) (s : State) (received : Except IoError Packet) : Option State :=
  match received with
  | .ok (byte :: bytes) =>
    match stripPacketInformation (byte :: bytes) c.worker.packetInformation with
    | .ok packet =>
      if isIpv6Packet packet then
        finish c { s with trail := s.trail ++ [⟨byte :: bytes, packet, .ipv6⟩] } received false
          (.ok 0)
      else when (s.engine.uplink = .packet) { s with call := .accept (byte :: bytes) packet }
    | .error _ =>
      finish c { s with trail := s.trail ++ [⟨byte :: bytes, byte :: bytes, .malformed⟩] } received
        false (.ok 0)
  | _ => finish c s received false (.ok 0)

/-- `accept_packet`: a packet that it does not take goes to the tunnel. -/
def accept (c : Config) (s : State) (buf packet : Packet) : Option State :=
  let t (fate : Fate) : State := { s with trail := s.trail ++ [⟨buf, packet, fate⟩] }
  match (protocolStack c s).acceptPacket packet with
  | (_, some p) =>
    finish c { t .stack with input := s.input ++ [.packet p] } (.ok buf) true (.ok 0)
  | (true, none) => finish c (t .dropped) (.ok buf) true (.ok 0)
  | (false, none) => some { t .tunnel with call := .write buf packet }

/-- An event of the drain; what it counts, it adds to the counter of all. -/
def drain (c : Config) (s : State) : StackEvent → Option State
  | .packet p => (StackState.step c.reader s.stack (.packet p)).map fun t => { s with
      stack := t
      uploadPackets := s.uploadPackets + (t.uploadPackets - s.stack.uploadPackets) }
  | .wake => when (s.stack.phase = .draining) s

def OfWorkers : VpnEngine.Action → Prop
  | .uplinkPacket .. => False
  | _ => True

instance (a : VpnEngine.Action) : Decidable (OfWorkers a) := by
  rcases a with ⟨⟩
  all_goals unfold OfWorkers; infer_instance

/-- The actions of the loop behind its condition and its drain, and of the flow threads. -/
def BehindDrain : StackAction → Prop
  | .wake _ | .stop | .packet _ | .endDrain => False
  | _ => True

instance (a : StackAction) : Decidable (BehindDrain a) := by
  rcases a with ⟨⟩
  all_goals unfold BehindDrain; infer_instance

/-- The packet that `device.receive` gives, unless it is empty. -/
def received : Except IoError Packet → List Packet
  | .ok (byte :: bytes) => [byte :: bytes]
  | _ => []

def taken (s : StackState) : StackAction → List Packet
  | .ingress _ => s.incoming.take 1
  | _ => []

def step (c : Config) (s : State) : Action → Option State
  | .engine a =>
    if OfWorkers a then (VpnEngine.step c.worker s.engine a).map fun e => { s with engine := e }
    else none
  | .receive result =>
    if s.call = .receive then receive c { s with given := s.given ++ received result } result
    else none
  | .accept =>
    match s.call with
    | .accept buf packet => accept c s buf packet
    | _ => none
  | .write written =>
    match s.call with
    | .write buf packet =>
      let outcome := uplinkTurn c.worker (.ok buf) false written
      finish c { s with
        uploadPackets := s.uploadPackets + UInt64.ofNat outcome.packets
        written := s.written ++ [⟨packet, written⟩] } (.ok buf) false written
    | _ => none
  | .wake => some { s with input := if s.stack.phase = .stopped then s.input
      else s.input ++ [.wake] }
  | .recv =>
    match s.input with
    | e :: rest => when (s.stack.phase = .waiting ∧ s.nextEvent = none)
        { s with input := rest, nextEvent := some e }
    | [] => none
  | .iterate now =>
    if s.engine.shared.close then none
    else (StackState.step c.reader s.stack (.wake now)).map fun t => { s with stack := t }
  | .stop =>
    if s.engine.shared.close then
      (StackState.step c.reader s.stack .stop).map fun t => { s with stack := t }
    else none
  -- `next_event.take()` comes first in the chain of events
  | .takeNext => s.nextEvent.bind fun e => drain c { s with nextEvent := none } e
  | .tryRecv =>
    match s.nextEvent, s.input with
    | none, e :: rest => drain c { s with input := rest } e
    | _, _ => none
  | .endDrain =>
    if s.nextEvent = none ∧ s.input = [] then
      (StackState.step c.reader s.stack .endDrain).map fun t => { s with stack := t }
    else none
  | .stack a =>
    if BehindDrain a then
      (StackState.step c.reader s.stack a).map fun t => { s with
        stack := t
        handed := s.handed ++ taken s.stack a }
    else none

def system (c : Config) : System State Action where
  init s := ∃ now, s = initial now
  step := step c

def StackEvent.packets : StackEvent → List Packet
  | .packet p => [p]
  | .wake => []

/-- The packets in the input channel, the next event first. -/
def queued (s : State) : List Packet := (s.nextEvent.toList ++ s.input).flatMap StackEvent.packets

/-- The packets that went one way, in the order in which the device gave them. -/
def gone (s : State) (fate : Fate) : List Packet :=
  (s.trail.filter (·.fate = fate)).map (·.packet)

/-- The buffer of the packet that the uplink worker offers to the stack. -/
def Call.accepting : Call → List Packet
  | .accept buf _ => [buf]
  | _ => []

def Call.writing : Call → List Packet
  | .write _ packet => [packet]
  | _ => []

/-- The packets that the tunnel has taken. -/
def carried (s : State) : List Packet := (s.written.filter (·.result.isOk)).map (·.packet)

/-- The destination of a packet that the stack reads is managed, or is a fake address. -/
def ForStack (c : Config) (protocol : UInt8) (destination : Ipv4Addr) (port : UInt16) : Prop :=
  if c.fakePool ∧ FakeDns.FakeIpPool.contains destination then protocol = 6
  else if protocol = 6 then c.client.routeTcp destination.toText port = .managed
  else protocol = 17 ∧ c.client.routeUdp destination.toText port = .managed

/-- A packet has gone where it belongs; `ended` is whether the loop has ended since. -/
def Trace.Right (c : Config) (ended : Prop) (t : Trace) : Prop :=
  match t.fate with
  | .malformed => c.worker.packetInformation ∧ t.buf.length ≤ packetInformationLength
  | .ipv6 => isIpv6Packet t.packet
  | .stack => ∃ protocol destination port,
      ipv4ProtocolAndPort t.packet = some (protocol, destination, port) ∧
        ForStack c protocol destination port
  | .dropped => ∃ protocol destination port,
      ipv4ProtocolAndPort t.packet = some (protocol, destination, port) ∧ protocol ≠ 6 ∧
        c.fakePool ∧ FakeDns.FakeIpPool.contains destination
  | .tunnel => isIpv6Packet t.packet = false ∧ (ended ∨ ∀ protocol destination port,
      ipv4ProtocolAndPort t.packet = some (protocol, destination, port) →
        ¬ (c.fakePool ∧ FakeDns.FakeIpPool.contains destination) ∧
          ¬ ForStack c protocol destination port)

/-- No packet is lost, doubled or overtaken between the device and where it goes. -/
structure Conserved (c : Config) (s : State) : Prop where
  /-- Every packet that the device has given went one way, but for the one that is being offered. -/
  every : s.trail.map (·.buf) ++ s.call.accepting = s.given
  /-- What was accepted has been taken by smoltcp, waits for it, or is in the channel. -/
  stack : gone s .stack = s.handed ++ s.stack.incoming ++ queued s
  tunnel : gone s .tunnel = s.written.map (·.packet) ++ s.call.writing
  counted : s.uploadPackets =
    UInt64.ofNat ((carried s).length + s.handed.length + s.stack.incoming.length)
  right : ∀ t ∈ s.trail, t.Right c (s.stack.phase = .stopped)
  stripped : ∀ t ∈ s.trail, t.fate ≠ .malformed →
    stripPacketInformation t.buf c.worker.packetInformation = .ok t.packet

section Stack

variable {R : PacketReader} {s t : StackState} {a : StackAction} {p : Packet}

/-- What the steps behind the drain leave of the queue of the device. -/
structure Onward (s t : StackState) (a : StackAction) : Prop where
  incoming : s.incoming = taken s a ++ t.incoming
  uploadPackets : t.uploadPackets = s.uploadPackets
  phase : t.phase = .stopped ↔ s.phase = .stopped

theorem Onward.of_framed (hf : StackState.Framed s t) (ha : taken s a = []) : Onward s t a where
  incoming := by rw [ha, hf.incoming, List.nil_append]
  uploadPackets := by rw [hf]
  phase := by rw [hf.phase]

theorem onward_serve {h : ℕ} {f : FlowAction} (ha : taken s a = []) (ht : s.serve h f = some t) :
    Onward s t a := by
  obtain ⟨k, g, g', hw, -⟩ := StackState.worked_of_serve ht
  exact .of_framed hw.framed ha

theorem onward_ensureTcpListener (s : StackState) (target : Endpoint) :
    (s.ensureTcpListener target).incoming = s.incoming ∧
      (s.ensureTcpListener target).uploadPackets = s.uploadPackets ∧
      (s.ensureTcpListener target).phase = s.phase := by
  unfold StackState.ensureTcpListener
  split_ifs
  · exact ⟨rfl, rfl, rfl⟩
  · cases Socket.new.listen target with
    | none => exact ⟨rfl, rfl, rfl⟩
    | some k => exact ⟨rfl, rfl, rfl⟩

theorem onward_ensureUdpListener (s : StackState) (target : Endpoint) :
    (s.ensureUdpListener target).incoming = s.incoming ∧
      (s.ensureUdpListener target).uploadPackets = s.uploadPackets ∧
      (s.ensureUdpListener target).phase = s.phase := by
  unfold StackState.ensureUdpListener
  split_ifs
  all_goals exact ⟨rfl, rfl, rfl⟩

/-- A packet for the stack stays in no channel: the drain gives it to the device and counts it. -/
theorem drain_forStack {c : Config} {protocol : UInt8} {destination : Ipv4Addr} {port : UInt16}
    (hp : ipv4ProtocolAndPort p = some (protocol, destination, port))
    (hfor : ForStack c protocol destination port) :
    (s.drain p).incoming = s.incoming ++ [p] ∧
      (s.drain p).uploadPackets = s.uploadPackets + 1 ∧ (s.drain p).phase = s.phase := by
  have hprotocol : protocol = 6 ∨ protocol = 17 := by
    unfold ForStack at hfor
    split_ifs at hfor with _ h6
    · exact .inl hfor
    · exact .inl h6
    · exact .inr hfor.1
  unfold StackState.drain
  rw [hp]
  rcases hprotocol with rfl | rfl
  · obtain ⟨-, -, hphase⟩ := onward_ensureTcpListener s ⟨destination, port⟩
    exact ⟨rfl, rfl, hphase⟩
  · obtain ⟨-, -, hphase⟩ := onward_ensureUdpListener s ⟨destination, port⟩
    exact ⟨rfl, rfl, hphase⟩

theorem onward_of_step (hbehind : BehindDrain a) (h : StackState.step R s a = some t) :
    Onward s t a := by
  cases a with
  | wake => cases hbehind
  | stop => cases hbehind
  | packet => cases hbehind
  | endDrain => cases hbehind
  | ingress events =>
    simp only [StackState.step] at h
    split_ifs at h with hphase
    unfold StackState.ingress at h
    cases hin : s.incoming with
    | nil =>
      rw [hin] at h
      cases h
    | cons p rest =>
      rw [hin] at h
      obtain ⟨u, hu, rfl⟩ := Option.map_eq_some_iff.mp h
      have hf := StackState.framed_of_receive hu
      exact ⟨by simp [taken, hin], by rw [hf], by rw [← hf.phase]⟩
  | egress h e =>
    simp only [StackState.step] at h
    split_ifs at h
    obtain ⟨k, k', hw, -⟩ := StackState.worked_of_poll h
    exact .of_framed hw.framed rfl
  | endPoll =>
    simp only [StackState.step] at h
    split_ifs at h with hpolling
    · obtain ⟨-, rfl⟩ := when_eq_some.mp h
      exact ⟨rfl, rfl, by simp [hpolling]⟩
    all_goals
      obtain ⟨hrepolling, rfl⟩ := when_eq_some.mp h
      exact ⟨rfl, rfl, by simp [hrepolling]⟩
  | accept h now =>
    simp only [StackState.step] at h
    split_ifs at h
    unfold StackState.accept at h
    split at h
    · obtain ⟨-, rfl⟩ := when_eq_some.mp h
      obtain ⟨hin, hcount, hphase⟩ := onward_ensureTcpListener
        { s with
          tcpListeners := s.tcpListeners.removeHandle _ _
          tcpFlows := Function.update s.tcpFlows _ _ } _
      exact ⟨hin.symm, hcount, by rw [hphase]⟩
    · cases h
  | serve h f =>
    simp only [StackState.step] at h
    split_ifs at h
    exact onward_serve rfl h
  | reap h =>
    simp only [StackState.step] at h
    split_ifs at h
    unfold StackState.reap at h
    obtain ⟨u, hu, rfl⟩ := Option.map_eq_some_iff.mp h
    obtain ⟨hin, hcount, hphase⟩ := onward_serve (a := .endSweep) rfl hu
    split_ifs
    all_goals exact ⟨hin, hcount, hphase⟩
  | endAccept | endServe | endReap | endRelay | endExpire | endSweep =>
    obtain ⟨hphase, rfl⟩ := when_eq_some.mp h
    exact ⟨rfl, rfl, by simp [hphase]⟩
  | datagram key =>
    obtain ⟨-, rfl⟩ := when_eq_some.mp h
    unfold StackState.datagram
    split_ifs
    all_goals exact ⟨rfl, rfl, .rfl⟩
  | serveUdp key active closed =>
    obtain ⟨-, rfl⟩ := when_eq_some.mp h
    exact ⟨rfl, rfl, .rfl⟩
  | reapUdp key =>
    obtain ⟨-, rfl⟩ := when_eq_some.mp h
    exact ⟨rfl, rfl, .rfl⟩
  | sweepTcp h =>
    obtain ⟨-, rfl⟩ := when_eq_some.mp h
    unfold StackState.sweepTcp
    split
    all_goals exact ⟨rfl, rfl, .rfl⟩
  | sweepUdp h =>
    obtain ⟨-, rfl⟩ := when_eq_some.mp h
    unfold StackState.sweepUdp
    split
    all_goals exact ⟨rfl, rfl, .rfl⟩

end Stack

section Steps

variable {c : Config} {s t : State} {received : Except IoError Packet} {accepted : Bool}
  {written : Except ReatrustError ℕ} {buf packet : Packet}

theorem finish_eq (h : finish c s received accepted written = some t) :
    ∃ e, t = { s with engine := e, call := .receive } := by
  obtain ⟨e, -, rfl⟩ := Option.map_eq_some_iff.mp h
  exact ⟨e, rfl⟩

theorem isFake_eq (destination : Ipv4Addr) : (protocolStack c s).isFake destination = true ↔
    c.fakePool ∧ FakeDns.FakeIpPool.contains destination := by
  unfold TunProtocolStack.isFake protocolStack
  rw [Bool.and_eq_true]

theorem forStack_iff (protocol : UInt8) (destination : Ipv4Addr) (port : UInt16) :
    ForStack c protocol destination port ↔
      if (protocolStack c s).isFake destination then protocol = 6
      else (protocolStack c s).isManaged protocol destination port := by
  unfold ForStack TunProtocolStack.isManaged
  simp only [isFake_eq]
  split_ifs with _ h6 h17
  · rfl
  · simp [protocolStack]
  · simp [protocolStack, h17]
  · simp [h17]

theorem acceptPacket_sent {p : Packet}
    (h : ((protocolStack c s).acceptPacket packet).2 = some p) :
    p = packet ∧ ∃ protocol destination port,
      ipv4ProtocolAndPort packet = some (protocol, destination, port) ∧
        ForStack c protocol destination port := by
  refine ⟨TunStack.acceptPacket_same h, ?_⟩
  obtain rfl := TunStack.acceptPacket_same h
  cases hp : ipv4ProtocolAndPort p with
  | none => simp [TunProtocolStack.acceptPacket, hp] at h
  | some q =>
    obtain ⟨protocol, destination, port⟩ := q
    obtain ⟨-, hsends⟩ := (TunStack.acceptPacket_sent hp).mp h
    exact ⟨protocol, destination, port, rfl, (forStack_iff protocol destination port).mpr hsends⟩

theorem acceptPacket_dropped (h : (protocolStack c s).acceptPacket packet = (true, none)) :
    ∃ protocol destination port,
      ipv4ProtocolAndPort packet = some (protocol, destination, port) ∧ protocol ≠ 6 ∧
        c.fakePool ∧ FakeDns.FakeIpPool.contains destination := by
  cases hp : ipv4ProtocolAndPort packet with
  | none => simp [TunProtocolStack.acceptPacket, hp] at h
  | some q =>
    obtain ⟨protocol, destination, port⟩ := q
    unfold TunProtocolStack.acceptPacket TunProtocolStack.send at h
    rw [hp] at h
    dsimp only at h
    have hdropped : (protocolStack c s).isFake destination = true ∧ protocol ≠ 6 := by
      split_ifs at h
      all_goals simp_all
    exact ⟨protocol, destination, port, rfl, hdropped.2, (isFake_eq destination).mp hdropped.1⟩

theorem acceptPacket_refused (h : (protocolStack c s).acceptPacket packet = (false, none)) :
    s.stack.phase = .stopped ∨ ∀ protocol destination port,
      ipv4ProtocolAndPort packet = some (protocol, destination, port) →
        ¬ (c.fakePool ∧ FakeDns.FakeIpPool.contains destination) ∧
          ¬ ForStack c protocol destination port := by
  by_cases hended : s.stack.phase = .stopped
  · exact .inl hended
  have hreceiving : (protocolStack c s).receiving = true := by simp [protocolStack, hended]
  refine .inr fun protocol destination port hp => ?_
  rw [← isFake_eq (s := s), forStack_iff (s := s)]
  unfold TunProtocolStack.acceptPacket TunProtocolStack.send at h
  rw [hp, hreceiving] at h
  dsimp only at h
  have hrefused : (protocolStack c s).isFake destination = false ∧
      (protocolStack c s).isManaged protocol destination port = false := by
    split_ifs at h
    all_goals simp_all
  simp [hrefused.1, hrefused.2]

/-- A packet behind the first checks of the worker. -/
structure Checked (c : Config) (buf packet : Packet) : Prop where
  nonempty : buf ≠ []
  ipv4 : isIpv6Packet packet = false
  stripped : stripPacketInformation buf c.worker.packetInformation = .ok packet

/-- What is known of the call at which the uplink worker is. -/
structure Invariant (c : Config) (s : State) : Prop extends Conserved c s where
  accepting : ∀ buf packet, s.call = .accept buf packet → Checked c buf packet
  writing : ∀ buf packet, s.call = .write buf packet → Checked c buf packet

/-- The worker counts what the tunnel takes. -/
theorem Checked.packets (h : Checked c buf packet) (written : Except ReatrustError ℕ) :
    (uplinkTurn c.worker (.ok buf) false written).packets = if written.isOk then 1 else 0 := by
  obtain ⟨byte, bytes, rfl⟩ := List.exists_cons_of_ne_nil h.nonempty
  have hstripped := h.stripped
  simp only [uplinkTurn, hstripped, h.ipv4, Bool.false_eq_true, if_false]
  cases written with
  | ok n => rfl
  | error err =>
    simp only [Except.mapError]
    split_ifs
    all_goals first | rfl | contradiction

theorem Trace.Right.mono {ended ended' : Prop} {r : Trace} (h : r.Right c ended)
    (himp : ended → ended') : r.Right c ended' := by
  unfold Trace.Right at h ⊢
  cases hfate : r.fate with
  | malformed | ipv6 | stack | dropped => simpa only [hfate] using h
  | tunnel =>
    simp only [hfate] at h ⊢
    exact ⟨h.1, h.2.imp_left himp⟩

/-- A step that gives the packets at most from one queue to the next. -/
theorem Invariant.keep (hs : Invariant c s) (htrail : t.trail = s.trail)
    (hgiven : t.given = s.given)
    (hstack : t.handed ++ t.stack.incoming ++ queued t =
      s.handed ++ s.stack.incoming ++ queued s)
    (htunnel : t.written.map (·.packet) ++ t.call.writing =
      s.written.map (·.packet) ++ s.call.writing)
    (hcounted : t.uploadPackets =
      UInt64.ofNat ((carried t).length + t.handed.length + t.stack.incoming.length))
    (hphase : s.stack.phase = .stopped → t.stack.phase = .stopped)
    (hcall : t.call = s.call ∨ s.call.accepting = [] ∧ t.call = .receive) : Invariant c t where
  every := by
    have hevery := hs.every
    rw [htrail, hgiven]
    rcases hcall with h | ⟨hnone, h⟩
    · rw [h]
      exact hevery
    · rw [hnone] at hevery
      rw [h]
      exact hevery
  stack := by
    unfold gone
    rw [htrail, hstack]
    exact hs.stack
  tunnel := by
    unfold gone
    rw [htrail, htunnel]
    exact hs.tunnel
  counted := hcounted
  right r hr := (hs.right r (htrail ▸ hr)).mono hphase
  stripped r hr := hs.stripped r (htrail ▸ hr)
  accepting buf packet hc := by
    rcases hcall with h | ⟨-, h⟩
    · exact hs.accepting buf packet (h ▸ hc)
    · rw [h] at hc
      cases hc
  writing buf packet hc := by
    rcases hcall with h | ⟨-, h⟩
    · exact hs.writing buf packet (h ▸ hc)
    · rw [h] at hc
      cases hc

theorem Invariant.trace (hs : Invariant c s) {r : Trace} (htrail : t.trail = s.trail ++ [r])
    (hgiven : t.given = s.trail.map (·.buf) ++ [r.buf]) (hhanded : t.handed = s.handed)
    (hloop : t.stack = s.stack) (hcount : t.uploadPackets = s.uploadPackets)
    (hwritten : t.written = s.written)
    (hqueued : queued t = queued s ++ if r.fate = .stack then [r.packet] else [])
    (htunnel : t.call.writing = s.call.writing ++ if r.fate = .tunnel then [r.packet] else [])
    (hright : r.Right c (s.stack.phase = .stopped))
    (hstripped : r.fate ≠ .malformed →
      stripPacketInformation r.buf c.worker.packetInformation = .ok r.packet)
    (haccepting : t.call.accepting = [])
    (hwriting : ∀ buf packet, t.call = .write buf packet → Checked c buf packet) :
    Invariant c t := by
  have hgone : ∀ fate, gone t fate = gone s fate ++ if r.fate = fate then [r.packet] else [] := by
    intro fate
    unfold gone
    rw [htrail, List.filter_append, List.map_append]
    by_cases hr : r.fate = fate
    · simp [hr]
    · simp [hr]
  have hmem : ∀ q ∈ t.trail, q ∈ s.trail ∨ q = r := by
    intro q hq
    rw [htrail] at hq
    simpa using hq
  constructor
  · constructor
    · rw [htrail, hgiven, haccepting, List.map_append, List.append_nil]
      rfl
    · rw [hgone, hs.stack, hhanded, hloop, hqueued, List.append_assoc]
    · rw [hgone, hs.tunnel, hwritten, htunnel, List.append_assoc]
    · unfold carried
      rw [hcount, hloop, hhanded, hwritten]
      exact hs.counted
    · intro q hq
      rw [hloop]
      rcases hmem q hq with h | rfl
      · exact hs.right q h
      · exact hright
    · intro q hq
      rcases hmem q hq with h | rfl
      · exact hs.stripped q h
      · exact hstripped
  · intro buf packet hc
    rw [hc] at haccepting
    cases haccepting
  · exact hwriting

theorem Invariant.finish (hs : Invariant c s) (hcall : s.call = .receive)
    (h : finish c s received accepted written = some t) : Invariant c t := by
  obtain ⟨e, rfl⟩ := finish_eq h
  refine hs.keep rfl rfl rfl ?_ hs.counted id ?_
  · rw [hcall]
  · rw [hcall]
    exact .inr ⟨rfl, rfl⟩

theorem Invariant.receive (hs : Invariant c s) (hcall : s.call = .receive)
    (h : receive c { s with given := s.given ++ Uplink.received received } received = some t) :
    Invariant c t := by
  have hgiven : s.trail.map (·.buf) = s.given := by
    have hevery := hs.every
    rw [hcall] at hevery
    simpa [Call.accepting] using hevery
  unfold Uplink.receive at h
  split at h
  · rename_i byte bytes
    split at h
    · rename_i packet hstrip
      split_ifs at h with hipv6
      · obtain ⟨e, rfl⟩ := finish_eq h
        refine hs.trace (r := ⟨byte :: bytes, packet, .ipv6⟩) rfl ?_ rfl rfl rfl rfl ?_ ?_ hipv6
          (fun _ => hstrip) rfl ?_
        · rw [hgiven]
          rfl
        · simp [queued]
        · simp [hcall, Call.writing]
        · intro _ _ hc
          cases hc
      · obtain ⟨-, rfl⟩ := when_eq_some.mp h
        have htunnel := hs.tunnel
        rw [hcall] at htunnel
        constructor
        · refine ⟨?_, hs.stack, htunnel, hs.counted, hs.right, hs.stripped⟩
          dsimp only
          rw [hgiven]
          rfl
        · intro buf packet' hc
          obtain ⟨rfl, rfl⟩ := Call.accept.inj hc
          exact ⟨List.cons_ne_nil _ _, by simpa using hipv6, hstrip⟩
        · intro _ _ hc
          cases hc
    · rename_i err hstrip
      obtain ⟨e, rfl⟩ := finish_eq h
      refine hs.trace (r := ⟨byte :: bytes, byte :: bytes, .malformed⟩) rfl ?_ rfl rfl rfl rfl ?_
        ?_ ?_ (absurd rfl) rfl ?_
      · rw [hgiven]
        rfl
      · simp [queued]
      · simp [hcall, Call.writing]
      · unfold stripPacketInformation at hstrip
        split_ifs at hstrip with hinfo hshort
        exact ⟨by simpa using hinfo, hshort⟩
      · intro _ _ hc
        cases hc
  · rename_i hother
    have hnone : Uplink.received received = [] := by
      unfold Uplink.received
      split
      · exact absurd rfl (hother _ _)
      · rfl
    rw [hnone, List.append_nil] at h
    exact hs.finish hcall h

theorem Invariant.accept (hs : Invariant c s) (hcall : s.call = .accept buf packet)
    (h : accept c s buf packet = some t) : Invariant c t := by
  have hchecked := hs.accepting buf packet hcall
  have hgiven : s.given = s.trail.map (·.buf) ++ [buf] := by
    have hevery := hs.every
    rw [hcall] at hevery
    exact hevery.symm
  unfold Uplink.accept at h
  dsimp only at h
  split at h
  · rename_i p haccept
    obtain ⟨rfl, hfor⟩ := acceptPacket_sent (congrArg Prod.snd haccept)
    obtain ⟨e, rfl⟩ := finish_eq h
    refine hs.trace (r := ⟨buf, p, .stack⟩) rfl hgiven rfl rfl rfl rfl ?_ ?_ hfor
      (fun _ => hchecked.stripped) rfl ?_
    · simp [queued, StackEvent.packets]
    · simp [hcall, Call.writing]
    · intro _ _ hc
      cases hc
  · rename_i haccept
    obtain ⟨e, rfl⟩ := finish_eq h
    refine hs.trace (r := ⟨buf, packet, .dropped⟩) rfl hgiven rfl rfl rfl rfl ?_ ?_
      (acceptPacket_dropped haccept) (fun _ => hchecked.stripped) rfl ?_
    · simp [queued]
    · simp [hcall, Call.writing]
    · intro _ _ hc
      cases hc
  · rename_i haccept
    obtain rfl := Option.some.inj h
    refine hs.trace (r := ⟨buf, packet, .tunnel⟩) rfl hgiven rfl rfl rfl rfl ?_ ?_
      ⟨hchecked.ipv4, acceptPacket_refused haccept⟩ (fun _ => hchecked.stripped) rfl ?_
    · simp [queued]
    · simp [hcall, Call.writing]
    · intro buf' packet' hc
      obtain ⟨rfl, rfl⟩ := Call.write.inj hc
      exact hchecked

/-- The tunnel takes the packet, which is then counted, or refuses it. -/
theorem Invariant.write (hs : Invariant c s) (hcall : s.call = .write buf packet)
    (h : Uplink.finish c { s with
      uploadPackets := s.uploadPackets +
        UInt64.ofNat (uplinkTurn c.worker (.ok buf) false written).packets
      written := s.written ++ [⟨packet, written⟩] } (.ok buf) false written = some t) :
    Invariant c t := by
  have hpackets := (hs.writing buf packet hcall).packets written
  have hlength : (carried { s with written := s.written ++ [⟨packet, written⟩] }).length =
      (carried s).length + if written.isOk then 1 else 0 := by
    cases written <;> simp [carried, Except.isOk, Except.toBool]
  obtain ⟨e, rfl⟩ := finish_eq h
  refine hs.keep rfl rfl rfl ?_ ?_ id ?_
  · simp [hcall, Call.writing]
  · dsimp only [carried] at hlength ⊢
    rw [hpackets, hs.counted, ← UInt64.ofNat_add, hlength, carried]
    congr 1
    omega
  · rw [hcall]
    exact .inr ⟨rfl, rfl⟩

theorem Invariant.queued_forStack (hs : Invariant c s) {p : Packet} (hp : p ∈ queued s) :
    ∃ protocol destination port, ipv4ProtocolAndPort p = some (protocol, destination, port) ∧
      ForStack c protocol destination port := by
  have hgone : p ∈ gone s .stack := by
    rw [hs.stack]
    exact List.mem_append_right _ hp
  obtain ⟨r, hr, rfl⟩ := List.mem_map.mp hgone
  obtain ⟨hr, hfate⟩ := List.mem_filter.mp hr
  have hright := hs.right r hr
  unfold Trace.Right at hright
  rw [decide_eq_true_eq] at hfate
  simpa only [hfate] using hright

theorem Invariant.drain (hs : Invariant c s) {e : StackEvent} {next : Option StackEvent}
    {rest : List StackEvent}
    (hqueued : queued s = e.packets ++ queued { s with nextEvent := next, input := rest })
    (h : drain c { s with nextEvent := next, input := rest } e = some t) : Invariant c t := by
  cases e with
  | wake =>
    obtain ⟨-, rfl⟩ := when_eq_some.mp h
    exact hs.keep rfl rfl (by rw [hqueued]; rfl) rfl hs.counted id (.inl rfl)
  | packet p =>
    obtain ⟨u, hu, rfl⟩ := Option.map_eq_some_iff.mp h
    obtain ⟨-, rfl⟩ := when_eq_some.mp hu
    have hmem : p ∈ queued s := by
      rw [hqueued]
      exact List.mem_append_left _ (List.mem_singleton_self p)
    obtain ⟨protocol, destination, port, hp, hfor⟩ := hs.queued_forStack hmem
    obtain ⟨hincoming, hcount, hphase⟩ := drain_forStack (s := s.stack) hp hfor
    refine hs.keep rfl rfl ?_ rfl ?_ (by simp [hphase]) (.inl rfl)
    · calc s.handed ++ (s.stack.drain p).incoming ++
              queued { s with nextEvent := next, input := rest }
          = s.handed ++ (s.stack.incoming ++ [p]) ++
              queued { s with nextEvent := next, input := rest } := by rw [hincoming]
        _ = s.handed ++ s.stack.incoming ++
              ([p] ++ queued { s with nextEvent := next, input := rest }) := by simp
        _ = s.handed ++ s.stack.incoming ++ queued s := by rw [hqueued]; rfl
    · have hone : (s.stack.drain p).uploadPackets - s.stack.uploadPackets = 1 := by
        rw [hcount, UInt64.add_comm, UInt64.add_sub_cancel]
      dsimp only
      rw [hone, hs.counted, hincoming]
      simp only [List.length_append, List.length_singleton, UInt64.ofNat_add, ← add_assoc]
      rfl

theorem Invariant.step {a : Action} (hs : Invariant c s) (h : step c s a = some t) :
    Invariant c t := by
  cases a with
  | engine a =>
    simp only [Uplink.step] at h
    split_ifs at h
    obtain ⟨e, -, rfl⟩ := Option.map_eq_some_iff.mp h
    exact hs.keep rfl rfl rfl rfl hs.counted id (.inl rfl)
  | receive received =>
    simp only [Uplink.step] at h
    split_ifs at h with hcall
    exact hs.receive hcall h
  | accept =>
    simp only [Uplink.step] at h
    split at h
    · rename_i buf packet hcall
      exact hs.accept hcall h
    · cases h
  | write written =>
    simp only [Uplink.step] at h
    split at h
    · rename_i buf packet hcall
      exact hs.write hcall h
    · cases h
  | wake =>
    obtain rfl := Option.some.inj h
    refine hs.keep rfl rfl ?_ rfl hs.counted id (.inl rfl)
    unfold queued
    split_ifs
    · rfl
    · simp [StackEvent.packets]
  | recv =>
    simp only [Uplink.step] at h
    split at h
    · rename_i e rest hinput
      obtain ⟨⟨-, hnext⟩, rfl⟩ := when_eq_some.mp h
      exact hs.keep rfl rfl (by simp [queued, hinput, hnext]) rfl hs.counted id (.inl rfl)
    · cases h
  | iterate now =>
    simp only [Uplink.step] at h
    split_ifs at h
    obtain ⟨u, hu, rfl⟩ := Option.map_eq_some_iff.mp h
    obtain ⟨hphase, rfl⟩ := when_eq_some.mp hu
    exact hs.keep rfl rfl rfl rfl hs.counted (by simp [hphase]) (.inl rfl)
  | stop =>
    simp only [Uplink.step] at h
    split_ifs at h
    obtain ⟨u, hu, rfl⟩ := Option.map_eq_some_iff.mp h
    obtain ⟨-, rfl⟩ := when_eq_some.mp hu
    exact hs.keep rfl rfl rfl rfl hs.counted (fun _ => rfl) (.inl rfl)
  | takeNext =>
    obtain ⟨e, he, h⟩ := Option.bind_eq_some_iff.mp h
    exact hs.drain (by simp [queued, he]) h
  | tryRecv =>
    simp only [Uplink.step] at h
    split at h
    · rename_i e rest hnext hinput
      exact hs.drain (by simp [queued, hnext, hinput]) h
    · cases h
  | endDrain =>
    simp only [Uplink.step] at h
    split_ifs at h
    obtain ⟨u, hu, rfl⟩ := Option.map_eq_some_iff.mp h
    obtain ⟨hphase, rfl⟩ := when_eq_some.mp hu
    exact hs.keep rfl rfl rfl rfl hs.counted (by simp [hphase]) (.inl rfl)
  | stack a =>
    simp only [Uplink.step] at h
    split_ifs at h with hbehind
    obtain ⟨u, hu, rfl⟩ := Option.map_eq_some_iff.mp h
    have hu := onward_of_step hbehind hu
    refine hs.keep rfl rfl ?_ rfl ?_ hu.phase.mpr (.inl rfl)
    · dsimp only
      rw [hu.incoming]
      simp only [List.append_assoc]
      rfl
    · dsimp only
      rw [hs.counted, hu.incoming]
      simp only [List.length_append, Nat.add_assoc]
      rfl

theorem invariant_initial (now : ℕ) : Invariant c (initial now) where
  every := rfl
  stack := rfl
  tunnel := rfl
  counted := rfl
  right := by simp [initial]
  stripped := by simp [initial]
  accepting := by simp [initial]
  writing := by simp [initial]

theorem invariant_of_reachable (hs : (system c).Reachable s) : Invariant c s := by
  refine System.ReachUnder.invariant hs ?_ fun _ _ _ _ ih _ h => ih.step h
  rintro _ ⟨now, rfl⟩
  exact invariant_initial now

/-- Over every run, every packet of the device goes one way: the packets that were accepted for the
stack are those that smoltcp has taken, then those that wait, and those that were not are the ones
written to the tunnel, each in the order in which the device gave them. -/
theorem conserved_of_reachable (s : State) (hs : (system c).Reachable s) : Conserved c s :=
  (invariant_of_reachable hs).toConserved

/-- No client is managed, and domains have fake addresses. -/
private def namesOnly : Config where
  worker := { packetInformation := false, exitOnFatalError := true }
  client := { routeTcp := fun _ _ => .other, routeUdp := fun _ _ => .other }
  fakePool := true
  reader := .plain

/-- An echo request from 10.8.0.2 to 1.1.1.1. -/
private def echoRequest : Packet :=
  [69, 0, 0, 28, 0, 0, 0, 0, 64, 1, 110, 203, 10, 8, 0, 2, 1, 1, 1, 1, 8, 0, 247, 255, 0, 0, 0, 0]

/-- A SYN to a fake address is taken by smoltcp, an echo request that came first written to the
tunnel. -/
theorem conserved_taken : ∃ s, s.given = [echoRequest, synPacket] ∧ s.handed = [synPacket] ∧
    carried s = [echoRequest] ∧ s.uploadPackets = 2 ∧ Conserved namesOnly s := by
  have h0 : (system namesOnly).Reachable (initial 0) := .init ⟨0, rfl⟩
  have hr := System.Reachable.run h0
    [.engine .uplink, .receive (.ok echoRequest), .accept, .write (.ok 28), .engine .uplink,
      .receive (.ok synPacket), .accept, .iterate 0, .tryRecv, .endDrain, .stack (.ingress [])] rfl
  exact ⟨_, rfl, rfl, rfl, rfl, conserved_of_reachable _ hr⟩

/-- The workers and the loop take at most a step of their own. -/
structure Parts (c : Config) (s t : State) : Prop where
  engine : t.engine = s.engine ∨ ∃ b, VpnEngine.step c.worker s.engine b = some t.engine
  stack : t.stack = s.stack ∨ ∃ b, StackState.step c.reader s.stack b = some t.stack

theorem Parts.finish (h : finish c s received accepted written = some t) : Parts c s t := by
  obtain ⟨e, he, rfl⟩ := Option.map_eq_some_iff.mp h
  exact ⟨.inr ⟨_, he⟩, .inl rfl⟩

theorem Parts.receive {given : List Packet}
    (h : receive c { s with given := given } received = some t) : Parts c s t := by
  unfold Uplink.receive at h
  split at h
  · split at h
    · split_ifs at h
      · have hp := Parts.finish h
        exact ⟨hp.engine, hp.stack⟩
      · obtain ⟨-, rfl⟩ := when_eq_some.mp h
        exact ⟨.inl rfl, .inl rfl⟩
    · have hp := Parts.finish h
      exact ⟨hp.engine, hp.stack⟩
  · have hp := Parts.finish h
    exact ⟨hp.engine, hp.stack⟩

theorem Parts.accept (h : accept c s buf packet = some t) : Parts c s t := by
  unfold Uplink.accept at h
  dsimp only at h
  split at h
  · have hp := Parts.finish h
    exact ⟨hp.engine, hp.stack⟩
  · have hp := Parts.finish h
    exact ⟨hp.engine, hp.stack⟩
  · obtain rfl := Option.some.inj h
    exact ⟨.inl rfl, .inl rfl⟩

theorem Parts.drain {e : StackEvent} (h : drain c s e = some t) : Parts c s t := by
  cases e with
  | wake =>
    obtain ⟨-, rfl⟩ := when_eq_some.mp h
    exact ⟨.inl rfl, .inl rfl⟩
  | packet p =>
    obtain ⟨u, hu, rfl⟩ := Option.map_eq_some_iff.mp h
    exact ⟨.inl rfl, .inr ⟨_, hu⟩⟩

theorem Parts.step {a : Action} (h : step c s a = some t) : Parts c s t := by
  cases a with
  | engine a =>
    simp only [Uplink.step] at h
    split_ifs at h
    obtain ⟨e, he, rfl⟩ := Option.map_eq_some_iff.mp h
    exact ⟨.inr ⟨a, he⟩, .inl rfl⟩
  | receive received =>
    simp only [Uplink.step] at h
    split_ifs at h
    exact .receive h
  | accept =>
    simp only [Uplink.step] at h
    split at h
    · exact .accept h
    · cases h
  | write written =>
    simp only [Uplink.step] at h
    split at h
    · have hp := Parts.finish h
      exact ⟨hp.engine, hp.stack⟩
    · cases h
  | wake =>
    obtain rfl := Option.some.inj h
    exact ⟨.inl rfl, .inl rfl⟩
  | recv =>
    simp only [Uplink.step] at h
    split at h
    · obtain ⟨-, rfl⟩ := when_eq_some.mp h
      exact ⟨.inl rfl, .inl rfl⟩
    · cases h
  | iterate | stop | endDrain | stack =>
    simp only [Uplink.step] at h
    split_ifs at h
    obtain ⟨u, hu, rfl⟩ := Option.map_eq_some_iff.mp h
    exact ⟨.inl rfl, .inr ⟨_, hu⟩⟩
  | takeNext =>
    obtain ⟨e, -, h⟩ := Option.bind_eq_some_iff.mp h
    have hp := Parts.drain h
    exact ⟨hp.engine, hp.stack⟩
  | tryRecv =>
    simp only [Uplink.step] at h
    split at h
    · have hp := Parts.drain h
      exact ⟨hp.engine, hp.stack⟩
    · cases h

/-- What holds of the workers by themselves and of the loop by itself holds of both together. -/
theorem parts_of_reachable (hs : (system c).Reachable s) :
    (workers c.worker).Reachable s.engine ∧ (stackSystem c.reader).Reachable s.stack := by
  refine System.ReachUnder.invariant
    (I := fun s => (workers c.worker).Reachable s.engine ∧ (stackSystem c.reader).Reachable s.stack)
    hs ?_ ?_
  · rintro _ ⟨now, rfl⟩
    exact ⟨.init rfl, .init ⟨now, rfl⟩⟩
  · rintro s a t - ⟨hengine, hstack⟩ - h
    constructor
    · rcases (Parts.step h).engine with he | ⟨b, hb⟩
      · exact he ▸ hengine
      · exact .step hengine trivial hb
    · rcases (Parts.step h).stack with he | ⟨b, hb⟩
      · exact he ▸ hstack
      · exact .step hstack trivial hb

end Steps

end NulConnect.VpnEngine.Uplink
