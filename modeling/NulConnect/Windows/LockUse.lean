import NulConnect.VpnEngine.LockUse

/-! The mutexes of the Windows helper: which are taken by the clients of the pipe, the start
workers, the runtime monitors and the service, and in which order. -/
namespace NulConnect.Windows.LockUse
open Transition VpnEngine.LockUse

/-- The mutexes of `WindowsRuntime`, of the log, of the service and of the engines. -/
inductive Mutex where
  | state
  | operation
  | logLock
  /-- `DATA_DIR`, whose first caller makes the others wait. -/
  | dataDir
  | stopSender
  | engine (e : ℕ) (m : EngineMutex)
deriving DecidableEq

inductive Thread where
  /-- `run_service`, or `run_console`. -/
  | main
  /-- `serve`, for the service. -/
  | server
  /-- The control handler of the service. -/
  | control
  | client (n : ℕ)
  | startWorker (n : ℕ)
  | monitor (n : ℕ)
  | engine (e : ℕ) (t : EngineThread)
deriving DecidableEq

abbrev Code := Transition.Code Mutex Thread

/-- `log_dir` and `state_dir`. -/
def dataDir : Code := .lock .dataDir .skip

def log : Code := .lock .logLock dataDir

/-- Any number of lines for the log, and of accesses to the directory of the state. -/
def logs : Code := .loop (.choice log dataDir)

/-- The Wintun device logs when it is opened and when it is dropped; there is no fake DNS server,
whose threads and mutexes nobody takes. -/
def engine (e : ℕ) : Engine Mutex Thread where
  mutex := .engine e
  thread := .engine e
  device := logs

def statusJson : Code := .lock .state .skip

def setStatus : Code := .lock .state log

/-- The state gets another engine, or none, and drops the one that it had. -/
def replaceEngine : Code := .lock .state (.choice .skip (.pick fun e => (engine e).drop))

def cleanupLeftovers : Code := .lock .operation logs

def beginStart : Code := .seq (.lock .state .skip) (.choice .skip log)

/-- An engine that is given up is stopped, and dropped on return. -/
def giveUp (e : ℕ) : Code := .seq (engine e).stop (.seq logs (engine e).drop)

/-- `start_worker`; where no monitor can be spawned, its reference to the engine is dropped. -/
def startWorker : Code :=
  .lock .operation (.choice .skip
    (.seq logs (.pick fun e => .seq (engine e).start (.choice .skip
      (.seq logs (.choice (giveUp e)
        (.seq replaceEngine (.seq log (.choice .skip (engine e).drop)))))))))

/-- The thread of `begin_start`. -/
def startThread : Code := .seq startWorker (.choice .skip (.seq log (.choice .skip setStatus)))

/-- `spawn_monitor`: the guard of the operation is dropped before the engine. -/
def monitor : Code :=
  .pick fun e => .seq (.loop (engine e).status)
    (.seq (.choice .skip (.lock .operation (.choice .skip
        (.seq (engine e).takeResult
          (.seq replaceEngine (.seq (engine e).stop (.seq logs setStatus)))))))
      (engine e).drop)

def stop : Code :=
  .seq (.lock .state .skip) (.lock .operation
    (.seq (.lock .state .skip) (.seq (.choice .skip (.pick giveUp)) (.seq logs setStatus))))

/-- `handle_request`; `request_shutdown` is a stop. -/
def handleRequest : Code :=
  .choice .skip (.choice statusJson (.choice beginStart (.choice stop
    (.choice (.seq stop cleanupLeftovers) logs))))

def serveClient : Code := .seq logs (.seq handleRequest logs)

/-- The service waits for its server at the end; the console is its own server. -/
def main : Code :=
  .seq logs (.seq cleanupLeftovers (.seq logs (.seq stop (.choice .skip (.join .server)))))

def code : Thread → Code
  | .main => main
  | .server => logs
  | .control => .loop (.lock .stopSender .skip)
  | .client _ => serveClient
  | .startWorker _ => startThread
  | .monitor _ => monitor
  | .engine e t => (engine e).code t

def rank : Mutex → ℕ
  | .operation => 1
  | .state => 2
  | .stopSender => 2
  | .engine _ m => mutexRank m
  | .logLock => 9
  | .dataDir => 10

def endRank : Thread → ℕ
  | .server => 1
  | .engine _ t => threadRank t
  | _ => 0

def ranking : Ranking Mutex Thread where
  mutex := rank
  thread := endRank
  bound := 10
  mutex_le m := by
    cases m with
    | engine e m => exact Nat.le_trans (mutexRank_le m) (by decide)
    | state | operation | logLock | dataDir | stopSender => decide
  thread_le t := by
    cases t with
    | engine e t => exact Nat.le_trans (threadRank_le t) (by decide)
    | server => exact by decide
    | main | control | client | startWorker | monitor => exact Nat.zero_le 10

section Order

variable {n : ℕ}

theorem ascends_log (hn : n ≤ 9) : ranking.Ascends n log := ⟨hn, by decide, trivial⟩

theorem ascends_logs (hn : n ≤ 9) : ranking.Ascends n logs :=
  ⟨ascends_log hn, Nat.le_trans hn (by decide), trivial⟩

theorem placed (e : ℕ) : Placed ranking (engine e) where
  mutex _ := rfl
  thread _ := rfl
  device _ hn := ascends_logs hn

theorem ascends_setStatus (hn : n ≤ 2) : ranking.Ascends n setStatus :=
  ⟨hn, ascends_log (by decide)⟩

theorem ascends_replaceEngine (hn : n ≤ 2) : ranking.Ascends n replaceEngine :=
  ⟨hn, trivial, fun e => ascends_drop (placed e) (by decide)⟩

theorem ascends_giveUp (e : ℕ) : ranking.Ascends 2 (giveUp e) :=
  ⟨ascends_stop (placed e) (by decide), ascends_logs (by decide),
    ascends_drop (placed e) (by decide)⟩

theorem ascends_cleanupLeftovers : ranking.Ascends 1 cleanupLeftovers :=
  ⟨by decide, ascends_logs (by decide)⟩

theorem ascends_startWorker : ranking.Ascends 1 startWorker :=
  ⟨by decide, trivial, ascends_logs (by decide), fun e =>
    ⟨ascends_start (placed e) (by decide), trivial, ascends_logs (by decide), ascends_giveUp e,
      ascends_replaceEngine (by decide), ascends_log (by decide), trivial,
      ascends_drop (placed e) (by decide)⟩⟩

theorem ascends_monitor : ranking.Ascends 1 monitor := fun e =>
  ⟨ascends_status (placed e) (by decide),
    ⟨trivial, by decide, trivial, ascends_takeResult (placed e) (by decide),
      ascends_replaceEngine (by decide), ascends_stop (placed e) (by decide),
      ascends_logs (by decide), ascends_setStatus (by decide)⟩,
    ascends_drop (placed e) (by decide)⟩

theorem ascends_stop : ranking.Ascends 1 stop :=
  ⟨⟨by decide, trivial⟩, by decide, ⟨by decide, trivial⟩, ⟨trivial, ascends_giveUp⟩,
    ascends_logs (by decide), ascends_setStatus (by decide)⟩

theorem ascends_handleRequest : ranking.Ascends 1 handleRequest :=
  ⟨trivial, ⟨by decide, trivial⟩, ⟨⟨by decide, trivial⟩, trivial, ascends_log (by decide)⟩,
    ascends_stop, ⟨ascends_stop, ascends_cleanupLeftovers⟩, ascends_logs (by decide)⟩

/-- Every thread takes its mutexes, and waits for threads, in the order of the ranking. -/
theorem orders_code : ranking.Orders code := by
  intro t
  cases t with
  | main =>
    change ranking.Ascends 1 main
    exact ⟨ascends_logs (by decide), ascends_cleanupLeftovers, ascends_logs (by decide),
      ascends_stop, trivial, Nat.le_refl 1⟩
  | server => exact ascends_logs (by decide)
  | control => exact ⟨by decide, trivial⟩
  | client n =>
    change ranking.Ascends 1 serveClient
    exact ⟨ascends_logs (by decide), ascends_handleRequest, ascends_logs (by decide)⟩
  | startWorker n =>
    change ranking.Ascends 1 startThread
    exact ⟨ascends_startWorker, trivial, ascends_log (by decide), trivial,
      ascends_setStatus (by decide)⟩
  | monitor n => exact ascends_monitor
  | engine e t => exact ascends_code (placed e) t

/-- Whatever the requests and however the threads take turns, a thread that waits for a mutex or
for the end of a thread waits in the end for one that can go on. -/
theorem serviceGoesOn_of_reachable (s : Threads Mutex Thread)
    (hs : (Threads.system code).Reachable s)
    (t : Thread) (ht : s.todo t ≠ []) :
    ∃ u, Relation.ReflTransGen s.WaitsFor t u ∧ s.CanStep u :=
  Threads.goesOn_of_orders orders_code hs ht

/-- While one client stops the engine, another that asks for the same waits for it. -/
theorem serviceGoesOn_twoStops : ∃ s : Threads Mutex Thread, s.WaitsFor (.client 1) (.client 0) ∧
    ∃ u, Relation.ReflTransGen s.WaitsFor (.client 1) u ∧ s.CanStep u := by
  -- from the head of a client to the mutex of the operation
  let way (n : ℕ) : List (Thread × ℕ) :=
    [0, 0, 0, 1, 1, 1, 0, 0, 0, 0, 0].map fun branch => (.client n, branch)
  have hr := System.Reachable.run (S := Threads.system code) (.init rfl)
    (way 0 ++ (.client 0, 0) :: way 1) rfl
  exact ⟨_, .inl ⟨.operation, _, _, rfl, rfl⟩,
    serviceGoesOn_of_reachable _ hr (.client 1) (List.cons_ne_nil _ _)⟩

end Order

end NulConnect.Windows.LockUse
