import NulConnect.Transition.LockOrder

/-! The mutexes that the functions and the threads of an engine take, and the threads for whose
end they wait. -/
namespace NulConnect.VpnEngine.LockUse
open Transition

inductive EngineMutex where
  /-- `VpnEngineImpl::result`. -/
  | result
  /-- `VpnEngineImpl::workers`. -/
  | workers
  /-- `TunProtocolStack::worker`. -/
  | stackWorker
  /-- `FakeDnsServer::thread`. -/
  | dnsThread
  /-- `FakeIpPool::inner`. -/
  | pool
deriving DecidableEq

inductive EngineThread where
  | uplink
  | downlink
  | transports
  | fakeDns
deriving DecidableEq

/-- An engine among the mutexes and the threads of a helper. `device` is what the TUN device takes
when it is opened and when it is dropped. -/
structure Engine (μ τ : Type*) where
  mutex : EngineMutex → μ
  thread : EngineThread → τ
  device : Code μ τ

namespace Engine

variable {μ τ : Type*} (e : Engine μ τ)

/-- `TunProtocolStack::stop`, also run by its `drop`: the guard lives as long as the block of the
`if let`. -/
def stackStop : Code μ τ :=
  .lock (e.mutex .stackWorker) (.choice .skip (.join (e.thread .transports)))

/-- `FakeDnsServer::stop`, also run by its `drop`. -/
def fakeDnsStop : Code μ τ :=
  .lock (e.mutex .dnsThread) (.choice .skip (.join (e.thread .fakeDns)))

def cancel : Code μ τ := .seq e.stackStop (.choice .skip e.fakeDnsStop)

/-- The guard of `workers` is dropped before the workers are waited for. -/
def joinWorkers : Code μ τ :=
  .seq (.lock (e.mutex .workers) .skip)
    (.choice .skip (.seq (.join (e.thread .uplink)) (.join (e.thread .downlink))))

def stop : Code μ τ := .seq e.cancel e.joinWorkers

def status : Code μ τ := .lock (e.mutex .result) .skip

def takeResult : Code μ τ := .seq (.lock (e.mutex .result) .skip) (.choice .skip e.stop)

/-- The last reference to the engine is dropped, and may be the last one to its stack. -/
def drop : Code μ τ :=
  .seq e.stop (.seq (.choice .skip e.stackStop) (.choice .skip e.fakeDnsStop))

/-- `start_l3_vpn_engine`; where it fails, it drops what it has made. -/
def start : Code μ τ :=
  .seq e.device (.choice .skip
    (.seq (.choice .skip e.stackStop) (.seq (.choice .skip e.fakeDnsStop) e.device)))

/-- `set_result` of `fail_engine`. -/
def failEngine : Code μ τ := .lock (e.mutex .result) .skip

/-- The uplink worker; it may drop the last reference to the stack. -/
def spawnTunToL3 : Code μ τ :=
  .seq (.choice .skip e.failEngine) (.seq (.choice .skip e.stackStop) e.device)

def spawnL3ToTun : Code μ τ := .seq (.choice .skip e.failEngine) e.device

/-- The stack loop looks up names of fake addresses. -/
def runTransportStack : Code μ τ := .seq (.loop (.lock (e.mutex .pool) .skip)) e.device

/-- The fake DNS server allocates addresses. -/
def serve : Code μ τ := .loop (.lock (e.mutex .pool) .skip)

def code : EngineThread → Code μ τ
  | .uplink => e.spawnTunToL3
  | .downlink => e.spawnL3ToTun
  | .transports => e.runTransportStack
  | .fakeDns => e.serve

end Engine

/-- The ranks within an engine, above all that may be held where an engine is used. -/
def mutexRank : EngineMutex → ℕ
  | .workers | .stackWorker | .dnsThread => 6
  | .result | .pool => 8

def threadRank : EngineThread → ℕ
  | .uplink | .downlink => 5
  | .transports | .fakeDns => 7

theorem mutexRank_le (m : EngineMutex) : mutexRank m ≤ 9 := by
  cases m
  all_goals decide

theorem threadRank_le (t : EngineThread) : threadRank t ≤ 9 := by
  cases t
  all_goals decide

section Order

variable {μ τ : Type*} {e : Engine μ τ} {r : Ranking μ τ} {n : ℕ}

/-- The ranking of a helper agrees with the ranks within the engine, and the device comes last. -/
structure Placed (r : Ranking μ τ) (e : Engine μ τ) : Prop where
  mutex : ∀ m, r.mutex (e.mutex m) = mutexRank m
  thread : ∀ t, r.thread (e.thread t) = threadRank t
  device : ∀ n ≤ 9, r.Ascends n e.device

variable (he : Placed r e)
include he

theorem ascends_stackStop (hn : n ≤ 6) : r.Ascends n e.stackStop := by
  simp only [Engine.stackStop, Ranking.Ascends, he.mutex, he.thread, mutexRank, threadRank]
  exact ⟨hn, trivial, Nat.le_refl 7⟩

theorem ascends_fakeDnsStop (hn : n ≤ 6) : r.Ascends n e.fakeDnsStop := by
  simp only [Engine.fakeDnsStop, Ranking.Ascends, he.mutex, he.thread, mutexRank, threadRank]
  exact ⟨hn, trivial, Nat.le_refl 7⟩

theorem ascends_stop (hn : n ≤ 5) : r.Ascends n e.stop := by
  refine ⟨⟨ascends_stackStop he (by omega), trivial, ascends_fakeDnsStop he (by omega)⟩, ?_⟩
  simp only [Engine.joinWorkers, Ranking.Ascends, he.mutex, he.thread, mutexRank, threadRank]
  exact ⟨⟨by omega, trivial⟩, trivial, hn, hn⟩

theorem ascends_status (hn : n ≤ 8) : r.Ascends n e.status := by
  simp only [Engine.status, Ranking.Ascends, he.mutex, mutexRank]
  exact ⟨hn, trivial⟩

theorem ascends_takeResult (hn : n ≤ 5) : r.Ascends n e.takeResult :=
  ⟨ascends_status he (by omega), trivial, ascends_stop he hn⟩

theorem ascends_drop (hn : n ≤ 5) : r.Ascends n e.drop :=
  ⟨ascends_stop he hn, ⟨trivial, ascends_stackStop he (by omega)⟩, trivial,
    ascends_fakeDnsStop he (by omega)⟩

theorem ascends_start (hn : n ≤ 5) : r.Ascends n e.start := by
  have hdevice := he.device n (by omega)
  exact ⟨hdevice, trivial, ⟨trivial, ascends_stackStop he (by omega)⟩,
    ⟨trivial, ascends_fakeDnsStop he (by omega)⟩, hdevice⟩

/-- The threads of an engine wait only for what is ranked above their own ends. -/
theorem ascends_code (t : EngineThread) : r.Ascends (r.thread (e.thread t) + 1) (e.code t) := by
  rw [he.thread]
  cases t with
  | uplink =>
    exact ⟨⟨trivial, ascends_status he (by decide)⟩,
      ⟨trivial, ascends_stackStop he (Nat.le_refl 6)⟩, he.device 6 (by decide)⟩
  | downlink => exact ⟨⟨trivial, ascends_status he (by decide)⟩, he.device 6 (by decide)⟩
  | transports =>
    refine ⟨?_, he.device 8 (by decide)⟩
    simp only [Ranking.Ascends, he.mutex, mutexRank]
    exact ⟨Nat.le_refl 8, trivial⟩
  | fakeDns =>
    simp only [Engine.code, Engine.serve, Ranking.Ascends, he.mutex, mutexRank]
    exact ⟨Nat.le_refl 8, trivial⟩

end Order

end NulConnect.VpnEngine.LockUse
