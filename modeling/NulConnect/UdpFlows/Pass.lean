import NulConnect.UdpFlows.Flow

/-! `process_udp`, pass after pass: the table of flows, the sockets of the listeners, and what
goes on between the passes. -/
namespace NulConnect.UdpFlows
open Transition TunStack

/-- The socket of a listener: where it is bound, and its datagrams that are still to be read,
each with its source. -/
structure UdpSocket where
  bound : Endpoint
  rx : List (Endpoint × Datagram)
deriving DecidableEq, Repr

/-- What `now_millis` returns at a time, and the milliseconds that have really gone by since the
loop began, which the code does not see. -/
structure Clock where
  wall : ℕ
  elapsed : ℕ
deriving DecidableEq, Repr

/-- The listener that a pass is at, and the ones it has still to visit. -/
structure Visit where
  rest : List (Endpoint × ℕ)
  target : Endpoint
  handle : ℕ
deriving DecidableEq, Repr

/-- Where the loop stands in a pass; `left` are the flows of the listener that it has still to
visit. -/
inductive Phase where
  | between
  | choosing (rest : List (Endpoint × ℕ))
  | taking (v : Visit) (datagrams : List (Endpoint × Datagram))
  | serving (v : Visit) (left : List ℕ)
  | handing (v : Visit) (left : List ℕ) (i : ℕ)
  | hearing (v : Visit) (left : List ℕ) (i : ℕ)
  | reaping
  | stopped
deriving DecidableEq, Repr

/-- A datagram of the app, as it comes from the device. -/
structure Sent where
  source : Endpoint
  target : Endpoint
  data : Datagram
deriving DecidableEq, Repr

/-- `flows` holds all flows that there have been, the table being those that are in it. -/
structure State where
  phase : Phase
  clock : Clock
  listeners : List (Endpoint × ℕ)
  sockets : ℕ → Option UdpSocket
  flows : List Flow
  sent : List Sent
  uploadBytes : UInt64
  downloadBytes : UInt64

inductive Action where
  | listen (target : Endpoint) (handle : ℕ)
  | sweep (target : Endpoint) (handle : ℕ)
  | arrive (p : Sent) (handle : Option ℕ)
  | beginPass (clock : Clock)
  | visit (target : Endpoint) (handle : ℕ)
  | take
  | endTake
  | tryConnect (i : ℕ)
  | handOver
  | endHandOver
  | tryRecv (taken : Bool)
  | endRecv
  | endServe
  | endVisits
  | reap (i : ℕ)
  | endPass
  | stop
  | thread (i : ℕ) (a : ThreadAction)

namespace State

def initial (clock : Clock) : State where
  phase := .between
  clock := clock
  listeners := []
  sockets _ := none
  flows := []
  sent := []
  uploadBytes := 0
  downloadBytes := 0

def find (s : State) (key : UdpKey) : Option ℕ :=
  s.flows.findIdx? fun f => f.inTable && f.key = key

/-- The number of flows in the table. -/
def size (s : State) : ℕ := s.flows.countP (·.inTable)

def setFlow (s : State) (i : ℕ) (f : Flow) : State := { s with flows := s.flows.set i f }

/-- The socket of a destination takes a datagram, if there is one with room for it. -/
def arrive (s : State) (p : Sent) : Option ℕ → Option State
  | none => some { s with sent := s.sent ++ [p] }
  | some handle =>
    match s.sockets handle with
    | some k => when (k.bound = p.target) { s with
        sent := s.sent ++ [p]
        sockets := Function.update s.sockets handle
          (some { k with rx := k.rx ++ [(p.source, p.data)] }) }
    | none => none

/-- A source without a flow gets one, unless the table is full. -/
def openFlow (s : State) (key : UdpKey) (target : Endpoint) : State :=
  if (s.find key).isNone ∧ s.size < maxUdpFlows then
    { s with flows := s.flows ++ [.opened key target s.clock.wall] }
  else s

def acceptData (s : State) (key : UdpKey) (data : Datagram) : State :=
  match s.find key with
  | some i =>
    match s.flows[i]? with
    | some f =>
      let r := f.accept data s.clock.wall
      { s.setFlow i r.1 with uploadBytes := s.uploadBytes + .ofNat r.2 }
    | none => s
  | none => s

def take (s : State) : Option State :=
  match s.phase with
  | .taking v ((source, data) :: datagrams) =>
    some ((({ s with phase := .taking v datagrams }.openFlow ⟨v.handle, source⟩ v.target).acceptData
      ⟨v.handle, source⟩ data))
  | _ => none

/-- The flows of a listener. -/
def flowsOf (s : State) (handle : ℕ) : List ℕ :=
  (List.range s.flows.length).filter fun i =>
    s.flows[i]?.any fun f => f.inTable && f.key.handle = handle

def visit (s : State) (target : Endpoint) (handle : ℕ) : Option State :=
  match s.phase, s.sockets handle with
  | .choosing rest, some k => when ((target, handle) ∈ rest) { s with
      phase := .taking ⟨rest.erase (target, handle), target, handle⟩ k.rx
      sockets := Function.update s.sockets handle (some { k with rx := [] }) }
  | _, _ => none

def tryConnect (s : State) (i : ℕ) : Option State :=
  match s.phase, s.flows[i]? with
  | .serving v left, some f => when (i ∈ left)
      { s.setFlow i f.tryConnect with phase := .handing v (left.erase i) i }
  | _, _ => none

def handOver (s : State) : Option State :=
  match s.phase with
  | .handing _ _ i =>
    match s.flows[i]? with
    | some f => f.handOver.map fun r =>
        { s.setFlow i r.1 with uploadBytes := s.uploadBytes + .ofNat r.2 }
    | none => none
  | _ => none

def endHandOver (s : State) : Option State :=
  match s.phase with
  | .handing v left i => when (s.flows[i]?.any fun f => f.handOver.isNone)
      { s with phase := .hearing v left i }
  | _ => none

def tryRecv (s : State) (taken : Bool) : Option State :=
  match s.phase with
  | .hearing v _ i =>
    match s.flows[i]?, s.sockets v.handle with
    | some f, some k => (f.tryRecv k.bound taken s.clock.wall).map fun r =>
        { s.setFlow i r.1 with downloadBytes := s.downloadBytes + .ofNat r.2 }
    | _, _ => none
  | _ => none

def endRecv (s : State) : Option State :=
  match s.phase with
  | .hearing v left i =>
    match s.flows[i]? with
    | some f => f.endRecv.map fun f' => { s.setFlow i f' with phase := .serving v left }
    | none => none
  | _ => none

def reap (s : State) (i : ℕ) : Option State :=
  match s.flows[i]? with
  | some f => when (s.phase = .reaping ∧ f.expired s.clock.wall) (s.setFlow i f.remove)
  | none => none

def step (s : State) : Action → Option State
  -- ensure_udp_listener, sweep_idle_listeners and iface.poll
  | .listen target handle =>
    when (s.phase = .between ∧ (∀ l ∈ s.listeners, l.1 ≠ target) ∧ s.sockets handle = none) { s with
      listeners := s.listeners ++ [(target, handle)]
      sockets := Function.update s.sockets handle (some ⟨target, []⟩) }
  | .sweep target handle =>
    when (s.phase = .between ∧ (target, handle) ∈ s.listeners ∧
      ∀ f ∈ s.flows, f.inTable → f.key.handle ≠ handle) { s with
        listeners := s.listeners.erase (target, handle)
        sockets := Function.update s.sockets handle none }
  | .arrive p handle => if s.phase = .between then s.arrive p handle else none
  -- process_udp
  | .beginPass clock => when (s.phase = .between ∧ s.clock.elapsed ≤ clock.elapsed)
      { s with phase := .choosing s.listeners, clock := clock }
  | .visit target handle => s.visit target handle
  | .take => s.take
  | .endTake =>
    match s.phase with
    | .taking v [] => some { s with phase := .serving v (s.flowsOf v.handle) }
    | _ => none
  | .tryConnect i => s.tryConnect i
  | .handOver => s.handOver
  | .endHandOver => s.endHandOver
  | .tryRecv taken => s.tryRecv taken
  | .endRecv => s.endRecv
  | .endServe =>
    match s.phase with
    | .serving v [] => some { s with phase := .choosing v.rest }
    | _ => none
  | .endVisits => when (s.phase = .choosing []) { s with phase := .reaping }
  | .reap i => s.reap i
  | .endPass => when (s.phase = .reaping ∧ ∀ f ∈ s.flows, ¬ f.expired s.clock.wall)
      { s with phase := .between }
  -- the end of run_transport_stack
  | .stop => when (s.phase = .between)
      { s with phase := .stopped, flows := s.flows.map Flow.remove }
  | .thread i a => s.flows[i]?.bind fun f => (f.thread a).map (s.setFlow i)

end State

/-- The passes of `process_udp` over all that the app, the tunnels, the threads and the clock
do. -/
def passSystem : System State Action where
  init s := ∃ clock, s = .initial clock
  step := State.step

end NulConnect.UdpFlows
