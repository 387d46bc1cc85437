import NulConnect.VpnEngine.LockUse

/-! The mutexes of the macOS helper: which are taken by the handlers of requests, the start workers
and the runtime monitors, and in which order. -/
namespace NulConnect.Macos.LockUse
open Transition VpnEngine.LockUse

/-- The mutexes of `HelperRuntime` and of the engines. -/
inductive Mutex where
  | tunEngine
  | tunOperation
  | tunStarting
  | tunFailure
  | shuttingDown
  | engine (e : ℕ) (m : EngineMutex)
deriving DecidableEq

inductive Thread where
  /-- `serve`. -/
  | main
  | client (n : ℕ)
  | startWorker (n : ℕ)
  | monitor (n : ℕ)
  | engine (e : ℕ) (t : EngineThread)
deriving DecidableEq

abbrev Code := Transition.Code Mutex Thread

/-- The TUN device of macOS takes no mutex. -/
def engine (e : ℕ) : Engine Mutex Thread where
  mutex := .engine e
  thread := .engine e
  device := .skip

/-- The guards of the two conditions are dropped before the blocks behind them. -/
def helperStatus : Code :=
  .seq (.lock .tunStarting .skip) (.choice .skip
    (.seq (.lock .tunFailure .skip) (.choice .skip
      (.lock .tunEngine (.choice .skip (.pick fun e => (engine e).status))))))

def startTun : Code :=
  .lock .tunStarting (.choice .skip
    (.seq (.lock .tunEngine .skip) (.choice .skip (.lock .tunFailure .skip))))

/-- An engine that is given up is stopped, and dropped on return. -/
def giveUp (e : ℕ) : Code := .seq (engine e).stop (engine e).drop

def startTunWorker : Code :=
  .lock .tunOperation
    (.seq (.lock .tunEngine .skip) (.choice .skip
      (.pick fun e => .seq (engine e).start (.choice .skip
        (.choice (giveUp e) (.lock .tunEngine .skip))))))

/-- `stop_tun` drops the guard of the engine before it stops the engine. -/
def stopTun : Code :=
  .lock .tunOperation
    (.seq (.lock .tunFailure .skip)
      (.seq (.lock .tunEngine .skip) (.choice .skip (.pick giveUp))))

/-- The thread of `start_tun`. -/
def startThread : Code :=
  .seq startTunWorker (.seq (.lock .tunStarting .skip)
    (.choice .skip (.seq (.lock .tunFailure .skip) (.choice .skip stopTun))))

/-- `spawn_tun_runtime_monitor`: the engine is dropped before the guard of the operation. -/
def monitor : Code :=
  .seq (.loop (.lock .tunEngine (.choice .skip (.pick fun e => (engine e).status))))
    (.choice .skip (.lock .tunOperation
      (.seq (.lock .tunEngine .skip) (.choice .skip (.pick fun e =>
        .seq (engine e).takeResult (.seq (engine e).stop
          (.seq (.choice .skip (.lock .tunFailure .skip)) (engine e).drop)))))))

/-- `handle_request`; the other commands take no mutex. -/
def handleRequest : Code :=
  .choice .skip (.choice helperStatus (.choice startTun (.choice stopTun
    (.seq stopTun (.lock .shuttingDown .skip)))))

def code : Thread → Code
  | .main => .seq (.loop (.lock .shuttingDown .skip)) stopTun
  | .client _ => .loop handleRequest
  | .startWorker _ => startThread
  | .monitor _ => monitor
  | .engine e t => (engine e).code t

def rank : Mutex → ℕ
  | .tunOperation => 1
  | .tunStarting => 2
  | .tunFailure => 3
  | .tunEngine => 4
  | .engine _ m => mutexRank m
  | .shuttingDown => 9

/-- No thread of the helper itself is waited for. -/
def endRank : Thread → ℕ
  | .engine _ t => threadRank t
  | _ => 0

def ranking : Ranking Mutex Thread where
  mutex := rank
  thread := endRank
  bound := 9
  mutex_le m := by
    cases m with
    | engine e m => exact mutexRank_le m
    | tunOperation | tunStarting | tunFailure | tunEngine | shuttingDown => decide
  thread_le t := by
    cases t with
    | engine e t => exact threadRank_le t
    | main | client | startWorker | monitor => exact Nat.zero_le 9

theorem placed (e : ℕ) : Placed ranking (engine e) where
  mutex _ := rfl
  thread _ := rfl
  device _ _ := trivial

theorem ascends_giveUp (e : ℕ) : ranking.Ascends 2 (giveUp e) :=
  ⟨ascends_stop (placed e) (by decide), ascends_drop (placed e) (by decide)⟩

theorem ascends_stopTun : ranking.Ascends 1 stopTun :=
  ⟨by decide, ⟨by decide, trivial⟩, ⟨by decide, trivial⟩, trivial, ascends_giveUp⟩

theorem ascends_startTunWorker : ranking.Ascends 1 startTunWorker :=
  ⟨by decide, ⟨by decide, trivial⟩, trivial, fun e =>
    ⟨ascends_start (placed e) (by decide), trivial, ascends_giveUp e, by decide, trivial⟩⟩

theorem ascends_helperStatus : ranking.Ascends 1 helperStatus :=
  ⟨⟨by decide, trivial⟩, trivial, ⟨by decide, trivial⟩, trivial, by decide, trivial, fun e =>
    ascends_status (placed e) (by decide)⟩

theorem ascends_startTun : ranking.Ascends 1 startTun :=
  ⟨by decide, trivial, ⟨by decide, trivial⟩, trivial, by decide, trivial⟩

theorem ascends_monitor : ranking.Ascends 1 monitor :=
  ⟨⟨by decide, trivial, fun e => ascends_status (placed e) (by decide)⟩, trivial, by decide,
    ⟨by decide, trivial⟩, trivial, fun e =>
      ⟨ascends_takeResult (placed e) (by decide), ascends_stop (placed e) (by decide),
        ⟨trivial, by decide, trivial⟩, ascends_drop (placed e) (by decide)⟩⟩

/-- Every thread takes its mutexes, and waits for threads, in the order of the ranking. -/
theorem orders_code : ranking.Orders code := by
  intro t
  cases t with
  | main => exact ⟨⟨by decide, trivial⟩, ascends_stopTun⟩
  | client n =>
    change ranking.Ascends 1 (.loop handleRequest)
    exact ⟨trivial, ascends_helperStatus, ascends_startTun, ascends_stopTun, ascends_stopTun,
      by decide, trivial⟩
  | startWorker n =>
    change ranking.Ascends 1 startThread
    exact ⟨ascends_startTunWorker, ⟨by decide, trivial⟩, trivial, ⟨by decide, trivial⟩, trivial,
      ascends_stopTun⟩
  | monitor n => exact ascends_monitor
  | engine e t => exact ascends_code (placed e) t

/-- Whatever the requests and however the threads take turns, a thread that waits for a mutex or
for the end of a thread waits in the end for one that can go on. -/
theorem helperGoesOn_of_reachable (s : Threads Mutex Thread)
    (hs : (Threads.system code).Reachable s)
    (t : Thread) (ht : s.todo t ≠ []) :
    ∃ u, Relation.ReflTransGen s.WaitsFor t u ∧ s.CanStep u :=
  Threads.goesOn_of_orders orders_code hs ht

/-- While one client stops the engine, another that asks for the same waits for it. -/
theorem helperGoesOn_twoStops : ∃ s : Threads Mutex Thread, s.WaitsFor (.client 1) (.client 0) ∧
    ∃ u, Relation.ReflTransGen s.WaitsFor (.client 1) u ∧ s.CanStep u := by
  have hr := System.Reachable.run (S := Threads.system code) (.init rfl)
    [(.client 0, 1), (.client 0, 1), (.client 0, 1), (.client 0, 1), (.client 0, 0), (.client 0, 0),
      (.client 1, 1), (.client 1, 1), (.client 1, 1), (.client 1, 1), (.client 1, 0)] rfl
  exact ⟨_, .inl ⟨.tunOperation, _, _, rfl, rfl⟩,
    helperGoesOn_of_reachable _ hr (.client 1) (List.cons_ne_nil _ _)⟩

end NulConnect.Macos.LockUse
