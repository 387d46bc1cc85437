import NulConnect.Transition.System
import NulConnect.Transition.Mutex
import NulConnect.VpnEngine
import Mathlib.Tactic

/-! `HelperRuntime`: the shared state of the macOS helper and the atomic steps of `start_tun`,
its worker, the runtime monitor, `stop_tun` and `helper_status`. -/
namespace NulConnect.Macos
open Transition

/-- A `start_tun` request up to its reply, then its worker thread. -/
inductive StartPhase where
  | idle
  | refused
  | accepted
  | written
  | rejected
  | queued
  | locked
  | snapshotting
  | decoding
  | starting
  | started
  | routing
  | probing
  | publishing
  | published
  | aborting
  | failing
  | reporting
  | succeeded
  | spawning
  | stopping
  | done
deriving DecidableEq, Repr

inductive MonitorPhase (ι : Type*) where
  | idle
  | sleeping
  | waiting
  | locked
  | taken (e : ι)
  | ending (e : ι)
  | restored
  | done
deriving DecidableEq

inductive StopPhase (ι : Type*) where
  | idle
  | waiting
  | locked
  | cleared
  | taken (e : Option ι)
  | restored
  | returned (ok : Bool)
deriving DecidableEq

/-- The `tun` part of a status reply. -/
inductive TunReply where
  | starting
  | failed (message : String)
  | running
  | stopping
  | stopped
deriving DecidableEq, Repr

/-- A call of `helper_status`. -/
inductive QueryPhase where
  | idle
  | readFailure
  | readEngine
  | answered (reply : TunReply)
deriving DecidableEq, Repr

/-- Who calls `stop_tun`: a request, or a worker whose monitor cannot be spawned. -/
inductive Caller (ι κ : Type*) where
  | request (u : κ)
  | worker (t : ι)
deriving DecidableEq

/-- The threads that take the `tun_operation` lock. -/
inductive Thread (ι κ : Type*) where
  | worker (t : ι)
  | monitor (t : ι)
  | stop (c : Caller ι κ)
deriving DecidableEq

/-- Starts are named by `ι`, the other requests by `κ`. A start creates at most one engine,
which is named after it. -/
structure State (ι κ : Type*) where
  tunEngine : Option ι
  tunOperation : Option (Thread ι κ)
  tunStarting : Bool
  tunFailure : Option String
  start : ι → StartPhase
  /-- `start_tun` has returned `starting` -/
  replied : ι → Bool
  monitor : ι → MonitorPhase ι
  /-- the monitor's local `result` -/
  outcome : ι → Option EngineResult
  stop : Caller ι κ → StopPhase ι
  query : κ → QueryPhase
  /-- engines started and not yet stopped -/
  live : ι → Bool
  /-- the engine's result slot, empty until its workers publish -/
  result : ι → Option EngineResult

inductive Action (ι κ : Type*) where
  | beginStart (t : ι)
  | writeStarting (t : ι) (ok : Bool)
  | spawnWorker (t : ι) (ok : Bool)
  | startReturns (t : ι)
  | workerLock (t : ι)
  | checkEngine (t : ι)
  | snapshotNetwork (t : ι) (ok : Bool)
  | decodeConfig (t : ι) (ok : Bool)
  | engineStart (t : ι) (ok : Bool)
  | interfaceName (t : ι) (ok : Bool)
  | setupRoutes (t : ι) (ok : Bool)
  | waitSetup (t : ι) (ok : Bool)
  | abort (t : ι)
  | publish (t : ι)
  | writeRunning (t : ι) (ok : Bool)
  | clearStarting (t : ι)
  | reportFailure (t : ι) (message : String)
  | spawnMonitor (t : ι)
  | monitorNotSpawned (t : ι) (message : String)
  | workerStopped (t : ι)
  | engineEnds (t : ι) (r : EngineResult)
  | monitorCheck (t : ι)
  | monitorLock (t : ι)
  | monitorTake (t : ι)
  | monitorTakeResult (t : ι)
  | monitorStop (t : ι)
  | monitorReport (t : ι)
  | stopRequest (u : κ)
  | stopLock (c : Caller ι κ)
  | stopClearFailure (c : Caller ι κ)
  | stopTake (c : Caller ι κ)
  | stopEngine (c : Caller ι κ)
  | stopWrite (c : Caller ι κ) (ok : Bool)
  | queryStarting (u : κ)
  | queryFailure (u : κ)
  | queryEngine (u : κ)

@[simp] def StartPhase.spawned : StartPhase → Bool
  | .idle | .refused | .accepted | .written | .rejected => false
  | _ => true

variable {ι κ : Type*}

def initial : State ι κ where
  tunEngine := none
  tunOperation := none
  tunStarting := false
  tunFailure := none
  start _ := .idle
  replied _ := false
  monitor _ := .idle
  outcome _ := none
  stop _ := .idle
  query _ := .idle
  live _ := false
  result _ := none

variable [DecidableEq ι] [DecidableEq κ]

namespace State

@[simp] def setStart (s : State ι κ) (t : ι) (p : StartPhase) : State ι κ :=
  { s with start := Function.update s.start t p }

@[simp] def setMonitor (s : State ι κ) (t : ι) (p : MonitorPhase ι) : State ι κ :=
  { s with monitor := Function.update s.monitor t p }

@[simp] def setStop (s : State ι κ) (c : Caller ι κ) (p : StopPhase ι) : State ι κ :=
  { s with stop := Function.update s.stop c p }

@[simp] def setQuery (s : State ι κ) (u : κ) (p : QueryPhase) : State ι κ :=
  { s with query := Function.update s.query u p }

@[simp] def stopLive (s : State ι κ) (e : Option ι) : State ι κ :=
  { s with live := e.elim s.live (Function.update s.live · false) }

end State

/-- `start_tun_worker` returns and drops its guard. -/
@[simp] def workerReturns (s : State ι κ) (t : ι) (p : StartPhase) : State ι κ :=
  { s.setStart t p with tunOperation := none }

def step (s : State ι κ) : Action ι κ → Option (State ι κ)
  -- start_tun, up to the assignments with `tun_starting` held
  | .beginStart t => when (s.start t = .idle) <|
      if s.tunStarting ∨ s.tunEngine ≠ none then s.setStart t .refused
      else { s.setStart t .accepted with tunStarting := true, tunFailure := none }
  | .writeStarting t ok => when (s.start t = .accepted)
      (s.setStart t (if ok then .written else .rejected))
  | .spawnWorker t ok => when (s.start t = .written)
      (s.setStart t (if ok then .queued else .rejected))
  | .startReturns t => when ((s.start t).spawned)
      { s with replied := Function.update s.replied t true }
  -- start_tun_worker
  | .workerLock t => when (s.start t = .queued ∧ s.tunOperation = none)
      { s.setStart t .locked with tunOperation := some (.worker t) }
  | .checkEngine t => when (s.start t = .locked) <|
      if s.tunEngine = none then s.setStart t .snapshotting else workerReturns s t .failing
  | .snapshotNetwork t ok => when (s.start t = .snapshotting) <|
      if ok then s.setStart t .decoding else workerReturns s t .failing
  | .decodeConfig t ok => when (s.start t = .decoding) <|
      if ok then s.setStart t .starting else workerReturns s t .failing
  | .engineStart t ok => when (s.start t = .starting) <|
      if ok then { s.setStart t .started with live := Function.update s.live t true }
      else workerReturns s t .failing
  | .interfaceName t ok => when (s.start t = .started)
      (s.setStart t (if ok then .routing else .aborting))
  | .setupRoutes t ok => when (s.start t = .routing)
      (s.setStart t (if ok then .probing else .aborting))
  | .waitSetup t ok => when (s.start t = .probing)
      (s.setStart t (if ok then .publishing else .aborting))
  | .abort t => when (s.start t = .aborting) ((workerReturns s t .failing).stopLive (some t))
  -- the assignment drops an engine that is still in the slot
  | .publish t => when (s.start t = .publishing)
      { (s.setStart t .published).stopLive s.tunEngine with tunEngine := some t }
  | .writeRunning t ok => when (s.start t = .published)
      (workerReturns s t (if ok then .succeeded else .failing))
  -- the worker thread after start_tun_worker
  | .clearStarting t => when (s.start t = .succeeded ∨ s.start t = .failing)
      { s.setStart t (if s.start t = .succeeded then .spawning else .reporting) with
        tunStarting := false }
  | .reportFailure t message => when (s.start t = .reporting)
      { s.setStart t .done with tunFailure := some message }
  | .spawnMonitor t => when (s.start t = .spawning)
      ((s.setStart t .done).setMonitor t .sleeping)
  | .monitorNotSpawned t message => when (s.start t = .spawning)
      { (s.setStart t .stopping).setStop (.worker t) .waiting with tunFailure := some message }
  | .workerStopped t => when (s.start t = .stopping ∧
        (s.stop (.worker t) = .returned true ∨ s.stop (.worker t) = .returned false))
      (s.setStart t .done)
  | .engineEnds t r => when (s.live t = true ∧ s.result t = none)
      { s with result := Function.update s.result t (some r) }
  -- spawn_tun_runtime_monitor
  | .monitorCheck t => when (s.monitor t = .sleeping)
      (s.setMonitor t (match s.tunEngine with
        | none => .done
        | some e => if engineStatus (s.result e) = .stopped then .waiting else .sleeping))
  | .monitorLock t => when (s.monitor t = .waiting ∧ s.tunOperation = none)
      { s.setMonitor t .locked with tunOperation := some (.monitor t) }
  | .monitorTake t => when (s.monitor t = .locked) <|
      match s.tunEngine with
      | none => { s.setMonitor t .done with tunOperation := none }
      | some e => { s.setMonitor t (.taken e) with tunEngine := none }
  | .monitorTakeResult t =>
    match s.monitor t with
    | .taken e => some { s.setMonitor t (.ending e) with
        outcome := Function.update s.outcome t (s.result e)
        result := Function.update s.result e none }
    | _ => none
  | .monitorStop t =>
    match s.monitor t with
    | .ending e => some ((s.setMonitor t .restored).stopLive (some e))
    | _ => none
  | .monitorReport t => when (s.monitor t = .restored)
      { s.setMonitor t .done with
        tunFailure := match s.outcome t with
          | some (.ok _) => none
          | some (.error message) => some message
          | none => s.tunFailure
        tunOperation := none }
  -- stop_tun
  | .stopRequest u => when (s.stop (.request u) = .idle) (s.setStop (.request u) .waiting)
  | .stopLock c => when (s.stop c = .waiting ∧ s.tunOperation = none)
      { s.setStop c .locked with tunOperation := some (.stop c) }
  | .stopClearFailure c => when (s.stop c = .locked)
      { s.setStop c .cleared with tunFailure := none }
  | .stopTake c => when (s.stop c = .cleared)
      { s.setStop c (.taken s.tunEngine) with tunEngine := none }
  | .stopEngine c =>
    match s.stop c with
    | .taken e => some ((s.setStop c .restored).stopLive e)
    | _ => none
  | .stopWrite c ok => when (s.stop c = .restored)
      { s.setStop c (.returned ok) with tunOperation := none }
  -- helper_status
  | .queryStarting u => when (s.query u = .idle)
      (s.setQuery u (if s.tunStarting then .answered .starting else .readFailure))
  | .queryFailure u => when (s.query u = .readFailure)
      (s.setQuery u (match s.tunFailure with
        | some message => .answered (.failed message)
        | none => .readEngine))
  | .queryEngine u => when (s.query u = .readEngine)
      (s.setQuery u (.answered (match s.tunEngine with
        | some e => if engineStatus (s.result e) = .stopped then .stopping else .running
        | none => .stopped)))

/-- The helper with the start requests `ι` and the other requests `κ`. -/
def system (ι κ : Type*) [DecidableEq ι] [DecidableEq κ] : System (State ι κ) (Action ι κ) where
  init s := s = initial
  step := step

end NulConnect.Macos
