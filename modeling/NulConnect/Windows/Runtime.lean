import NulConnect.Transition.System
import NulConnect.Transition.Mutex
import NulConnect.VpnEngine
import Mathlib.Tactic

/-! `WindowsRuntime`: the shared state of the helper service and the atomic steps of
`begin_start`, `start_worker`, the monitor, `stop` and `cleanup_leftovers`. -/
namespace NulConnect.Windows
open Transition

inductive TunStatus where
  | stopped
  | starting
  | running
  | stopping
  | failed
deriving DecidableEq, Repr

structure RouteSpec where
  interfaceLuid : UInt64
  destination : BitVec 32
  prefixLen : UInt8
  nextHop : BitVec 32
deriving DecidableEq, Repr

structure PersistedNetworkState where
  routes : List RouteSpec := []
  nrpt : Bool := false
deriving DecidableEq, Repr

/-- `begin_start` admits a start only from `Stopped` and `Failed`. -/
def admitStart : TunStatus → Except String Unit
  | .starting => .error "VPN is already starting"
  | .running => .error "VPN is already running"
  | .stopping => .error "VPN is stopping"
  | .stopped | .failed => .ok ()

/-- A start request, from `begin_start` to the end of its worker thread. -/
inductive StartPhase where
  | idle
  | refused
  | accepted
  | tokenRead
  | queued
  | locked
  | cleaning
  | planning
  | starting
  | started
  | installing
  | installed
  | confirmed
  | published
  | failing
  | reporting
  | done
deriving DecidableEq, Repr

inductive MonitorPhase where
  | idle
  | sleeping
  | checking
  | waiting
  | locked
  | confirmed
  | taken
  | cleared
  | undone
  | done
deriving DecidableEq, Repr

/-- A call of `stop`, which `cleanup` follows with `cleanup_leftovers`. -/
inductive StopPhase where
  | idle
  | counted
  | marked
  | locked
  | taken
  | undone
  | returned
  | leftovers
  | done
deriving DecidableEq, Repr

/-- The threads that take the `operation` lock. -/
inductive Thread (ι κ : Type*) where
  | worker (t : ι)
  | monitor (t : ι)
  | stop (u : κ)
deriving DecidableEq

/-- Starts are named by `ι`, stops by `κ`. A start creates at most one engine, which is
named after it. -/
structure State (ι κ : Type*) where
  status : TunStatus
  engine : Option ι
  network : PersistedNetworkState
  /-- the record on disk -/
  persisted : Option PersistedNetworkState
  operation : Option (Thread ι κ)
  generation : UInt64
  start : ι → StartPhase
  /-- the generation read by `begin_start` -/
  token : ι → UInt64
  /-- the worker's local `network` -/
  plan : ι → PersistedNetworkState
  monitor : ι → MonitorPhase
  /-- the monitor's local `result` -/
  outcome : ι → Option EngineResult
  stop : κ → StopPhase
  /-- the engine a stop took out of the state -/
  taken : κ → Option ι
  /-- engines started and not yet stopped -/
  live : ι → Bool
  /-- the engine's result slot -/
  result : ι → Option EngineResult

inductive Action (ι κ : Type*) where
  | beginStart (t : ι)
  | readGeneration (t : ι)
  | spawnWorker (t : ι) (ok : Bool)
  | workerLock (t : ι)
  | checkGeneration (t : ι)
  | cleanPersisted (t : ι)
  | buildPlan (t : ι) (ok : Bool)
  | engineStart (t : ι) (ok : Bool)
  | adapterLuid (t : ι) (ok : Bool)
  | installPlan (t : ι) (network : PersistedNetworkState) (ok : Bool)
  | recheckGeneration (t : ι)
  | publish (t : ι)
  | spawnMonitor (t : ι) (ok : Bool)
  | failCheck (t : ι)
  | failWrite (t : ι)
  | engineEnds (t : ι) (r : EngineResult)
  | monitorWake (t : ι)
  | monitorStatus (t : ι)
  | monitorLock (t : ι)
  | monitorRecheck (t : ι)
  | monitorTakeResult (t : ι)
  | monitorClear (t : ι)
  | monitorUndo (t : ι)
  | monitorReport (t : ι)
  | stopCount (u : κ)
  | stopMark (u : κ)
  | stopLock (u : κ)
  | stopTake (u : κ)
  | stopUndo (u : κ)
  | stopReport (u : κ)
  | leftoverLock (u : κ)
  | leftoverClean (u : κ)

variable {ι κ : Type*}

def initial : State ι κ where
  status := .stopped
  engine := none
  network := {}
  persisted := none
  operation := none
  generation := 0
  start _ := .idle
  token _ := 0
  plan _ := {}
  monitor _ := .idle
  outcome _ := none
  stop _ := .idle
  taken _ := none
  live _ := false
  result _ := none

variable [DecidableEq ι] [DecidableEq κ]

namespace State

@[simp] def setStart (s : State ι κ) (t : ι) (p : StartPhase) : State ι κ :=
  { s with start := Function.update s.start t p }

@[simp] def setMonitor (s : State ι κ) (t : ι) (p : MonitorPhase) : State ι κ :=
  { s with monitor := Function.update s.monitor t p }

@[simp] def setStop (s : State ι κ) (u : κ) (p : StopPhase) : State ι κ :=
  { s with stop := Function.update s.stop u p }

@[simp] def setLive (s : State ι κ) (t : ι) (b : Bool) : State ι κ :=
  { s with live := Function.update s.live t b }

end State

@[simp] def workerReturns (s : State ι κ) (t : ι) (p : StartPhase) : State ι κ :=
  { s.setStart t p with operation := none }

def step (s : State ι κ) : Action ι κ → Option (State ι κ)
  -- begin_start, with the state lock held
  | .beginStart t => when (s.start t = .idle) <|
      match admitStart s.status with
      | .error _ => s.setStart t .refused
      | .ok _ => { s.setStart t .accepted with status := .starting }
  | .readGeneration t => when (s.start t = .accepted)
      { s.setStart t .tokenRead with token := Function.update s.token t s.generation }
  | .spawnWorker t ok => when (s.start t = .tokenRead)
      (s.setStart t (if ok then .queued else .done))
  -- start_worker
  | .workerLock t => when (s.start t = .queued ∧ s.operation = none)
      { s.setStart t .locked with operation := some (.worker t) }
  | .checkGeneration t => when (s.start t = .locked) <|
      if s.generation = s.token t then s.setStart t .cleaning else workerReturns s t .done
  | .cleanPersisted t => when (s.start t = .cleaning)
      { s.setStart t .planning with persisted := none }
  | .buildPlan t ok => when (s.start t = .planning) <|
      if ok then s.setStart t .starting else workerReturns s t .failing
  | .engineStart t ok => when (s.start t = .starting) <|
      if ok then { s.setStart t .started with
        live := Function.update s.live t true
        result := Function.update s.result t none }
      else workerReturns s t .failing
  | .adapterLuid t ok => when (s.start t = .started) <|
      if ok then s.setStart t .installing else (workerReturns s t .failing).setLive t false
  -- the record is saved before an error of the installation is returned
  | .installPlan t network ok => when (s.start t = .installing) <|
      if ok then { s.setStart t .installed with
        persisted := some network
        plan := Function.update s.plan t network }
      else { (workerReturns s t .failing).setLive t false with persisted := some network }
  | .recheckGeneration t => when (s.start t = .installed) <|
      if s.generation = s.token t then s.setStart t .confirmed
      else (workerReturns s t .done).setLive t false
  | .publish t => when (s.start t = .confirmed)
      { s.setStart t .published with
        engine := some t
        network := s.plan t
        status := .running }
  | .spawnMonitor t ok => when (s.start t = .published)
      ((workerReturns s t .done).setMonitor t (if ok then .sleeping else .done))
  -- the worker thread after `start_worker` returned an error
  | .failCheck t => when (s.start t = .failing)
      (s.setStart t (if s.generation = s.token t then .reporting else .done))
  | .failWrite t => when (s.start t = .reporting) { s.setStart t .done with status := .failed }
  | .engineEnds t r => when (s.live t = true ∧ s.result t = none)
      { s with result := Function.update s.result t (some r) }
  -- spawn_monitor
  | .monitorWake t => when (s.monitor t = .sleeping)
      (s.setMonitor t (if s.generation = s.token t then .checking else .done))
  | .monitorStatus t => when (s.monitor t = .checking)
      (s.setMonitor t (if engineStatus (s.result t) = .stopped then .waiting else .sleeping))
  | .monitorLock t => when (s.monitor t = .waiting ∧ s.operation = none)
      { s.setMonitor t .locked with operation := some (.monitor t) }
  | .monitorRecheck t => when (s.monitor t = .locked) <|
      if s.generation = s.token t then s.setMonitor t .confirmed
      else { s.setMonitor t .done with operation := none }
  | .monitorTakeResult t => when (s.monitor t = .confirmed)
      { s.setMonitor t .taken with
        outcome := Function.update s.outcome t (s.result t)
        result := Function.update s.result t none }
  | .monitorClear t => when (s.monitor t = .taken)
      { s.setMonitor t .cleared with engine := none, network := {} }
  | .monitorUndo t => when (s.monitor t = .cleared)
      { (s.setMonitor t .undone).setLive t false with persisted := none }
  | .monitorReport t => when (s.monitor t = .undone)
      { s.setMonitor t .done with
        status := match s.outcome t with
          | some (.error _) => .failed
          | _ => .stopped
        operation := none }
  -- stop
  | .stopCount u => when (s.stop u = .idle)
      { s.setStop u .counted with generation := s.generation + 1 }
  | .stopMark u => when (s.stop u = .counted)
      { s.setStop u .marked with
        status := if s.status = .running ∨ s.status = .starting then .stopping else s.status }
  | .stopLock u => when (s.stop u = .marked ∧ s.operation = none)
      { s.setStop u .locked with operation := some (.stop u) }
  | .stopTake u => when (s.stop u = .locked)
      { s.setStop u .taken with
        taken := Function.update s.taken u s.engine
        engine := none
        network := {} }
  | .stopUndo u => when (s.stop u = .taken)
      { s.setStop u .undone with
        live := (s.taken u).elim s.live (Function.update s.live · false)
        persisted := none }
  | .stopReport u => when (s.stop u = .undone)
      { s.setStop u .returned with status := .stopped, operation := none }
  -- cleanup_leftovers, after the stop of a cleanup request
  | .leftoverLock u => when (s.stop u = .returned ∧ s.operation = none)
      { s.setStop u .leftovers with operation := some (.stop u) }
  | .leftoverClean u => when (s.stop u = .leftovers)
      { s.setStop u .done with persisted := none, operation := none }

/-- The helper service with the start requests `ι` and the stop requests `κ`. -/
def system (ι κ : Type*) [DecidableEq ι] [DecidableEq κ] : System (State ι κ) (Action ι κ) where
  init s := s = initial
  step := step

end NulConnect.Windows
