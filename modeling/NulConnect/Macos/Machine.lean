import NulConnect.Macos.RouteUndo
import NulConnect.Macos.ResolverOwnership
import NulConnect.Macos.StartWorker

/-! The start worker of the macOS helper with the routes, the resolver files and the DNS settings
that it changes, and what stops it. -/
namespace NulConnect.Macos
open Net

variable {δ : Type*} [DecidableEq δ] (destination : List Text → Option δ)

/-- What the helper changes on the machine, and its engine. -/
structure Machine (δ : Type*) where
  worker : WorkerState
  routes : RouteState δ
  resolvers : ResolverState

/-- What the worker meets. The route environment is that of the commands; the result of the
resolvers, the interface and the fake DNS server are those of the run. -/
structure SessionEnv where
  snapshot : SnapshotEnv
  decode : Text → Except Text (List UInt8)
  /-- `VpnEngine::start`, with the engine's `interface_name` and `fake_dns_addr` -/
  engineStart : (engine : VpnEngineConfig) →
    Except (FailedStart (startConfig engine)) (Option Text × Option SocketAddr)
  discoverTunName : Except AtrError Text
  resolver : ResolverEnv
  routes : RouteEnv
  waitSetup : Text → Except AtrError Unit
  writeFailed : Except AtrError Unit
  writeRunning : Except AtrError Unit
  restore : RestoreEnv

/-- The environment of `setup_managed_tun_routes` once the resolver files are written. -/
def SessionEnv.routeEnv (env : SessionEnv) (tunName : Text) (fakeDns : Option SocketAddr) :
    RouteEnv :=
  { env.routes with tunName := tunName, fakeDns := fakeDns.isSome, resolvers := .ok () }

/-- A worker returns, or the process dies while it writes. -/
inductive Outcome where
  | returns (result : Except AtrError Unit)
  | died

namespace Machine

/-- `setup_managed_tun_routes` with its resolver files. -/
def setupNetwork (env : SessionEnv) (config : HelperConfig) (tunName : Text)
    (fakeDns : Option SocketAddr) (m : Machine δ) : Outcome × Machine δ :=
  if ¬ config.setupRoutes then (.returns (.ok ()), m)
  else
    match m.resolvers.configureScopedDnsResolvers env.resolver config.managedDomains config.dnsAddr
      fakeDns with
    | (.error .died, resolvers) =>
      (.died, { m with routes := cleanupTunRoutes destination m.routes, resolvers := resolvers })
    | (.error (.failed err), resolvers) =>
      (.returns (.error err),
        { m with routes := cleanupTunRoutes destination m.routes, resolvers := resolvers })
    | (.ok _, resolvers) =>
      let setup := setupManagedTunRoutes destination config.toRouteConfig
        (env.routeEnv tunName fakeDns) m.routes
      (.returns setup.1, { m with routes := setup.2, resolvers := resolvers })

/-- `restore_tun_network_after_stop`. -/
def restoreNetwork (env : RestoreEnv) (m : Machine δ) : Machine δ where
  worker := restoreTunNetworkAfterStop env m.worker
  routes := cleanupTunRoutes destination m.routes
  resolvers := m.resolvers.cleanupScopedDnsResolvers

/-- The engine stops and the network is restored: what `stop_tun`, the monitor and a worker that
gives up do. -/
def stop (env : RestoreEnv) (m : Machine δ) : Machine δ :=
  restoreNetwork destination env
    { m with worker := { m.worker with tunEngine := false, running := false } }

/-- The start worker from its snapshot on. -/
def startEngine (env : SessionEnv) (config : HelperConfig) (m : Machine δ) : Outcome × Machine δ :=
  match intoVpnEngineConfig env.decode config with
  | .error err => (.returns (.error err), m)
  | .ok engine =>
    match env.engineStart engine with
    | .error failure =>
      (.returns (match env.writeFailed with | .error e => .error e | .ok _ => .error failure.err),
        { m with
          worker := (restoreTunNetworkState env.restore
            { m.worker with running := failure.left }).2
          routes := cleanupTunRoutes destination m.routes })
    | .ok (interfaceName, fakeDns) =>
      let m := { m with worker := { m.worker with running := true } }
      match interfaceName.elim env.discoverTunName .ok with
      | .error err => (.returns (.error err), m.stop destination env.restore)
      | .ok tunName =>
        match m.setupNetwork destination env config tunName fakeDns with
        | (.died, m) => (.died, m)
        | (.returns (.error err), m) => (.returns (.error err), m.stop destination env.restore)
        | (.returns (.ok _), m) =>
          match env.waitSetup tunName with
          | .error err => (.returns (.error err), m.stop destination env.restore)
          | .ok _ => (.returns env.writeRunning,
              { m with worker := { m.worker with tunEngine := true } })

/-- `start_tun_worker`. -/
def start (env : SessionEnv) (config : HelperConfig) (m : Machine δ) : Outcome × Machine δ :=
  if m.worker.tunEngine then
    (.returns (.error (.invalidState "tun is already running".toList)), m)
  else
    match snapshotTunNetworkState env.snapshot m.worker with
    | (.error err, worker) => (.returns (.error err), { m with worker := worker })
    | (.ok _, worker) => startEngine destination env config { m with worker := worker }

/-- The engine is gone with its process. -/
def lose (m : Machine δ) : Machine δ :=
  { m with worker := { m.worker with tunEngine := false, running := false } }

end Machine

theorem snapshot_engine (env : SnapshotEnv) (s : WorkerState) :
    (snapshotTunNetworkState env s).2.tunEngine = s.tunEngine := by
  unfold snapshotTunNetworkState
  split_ifs
  · rfl
  · split
    all_goals rfl

section Worker

variable (env : SessionEnv) (config : HelperConfig) (m : Machine δ)

/-- The address of the fake DNS server, where the engine starts. -/
def SessionEnv.fakeDns : Option SocketAddr :=
  match intoVpnEngineConfig env.decode config with
  | .error _ => none
  | .ok engine =>
    match env.engineStart engine with
    | .error _ => none
    | .ok p => p.2

/-- The same start, as the worker alone sees it. -/
def SessionEnv.startEnv : StartEnv where
  snapshot := env.snapshot
  decode := env.decode
  engineStart engine := (env.engineStart engine).map Prod.fst
  discoverTunName := env.discoverTunName
  setupRoutes tunName :=
    match (m.setupNetwork destination env config tunName (env.fakeDns config)).1 with
    | .returns result => result
    | .died => .ok ()
  waitSetup := env.waitSetup
  writeFailed := env.writeFailed
  writeRunning := env.writeRunning
  restore := env.restore

/-- The setup of the network is no concern of the worker's own state. -/
theorem setupNetwork_worker (worker : WorkerState) (tunName : Text)
    (fakeDns : Option SocketAddr) :
    Machine.setupNetwork destination env config tunName fakeDns { m with worker := worker } =
      ((m.setupNetwork destination env config tunName fakeDns).1,
        { (m.setupNetwork destination env config tunName fakeDns).2 with worker := worker }) := by
  unfold Machine.setupNetwork
  split_ifs
  · dsimp only
    split
    all_goals rfl
  · rfl

theorem stop_worker {w : WorkerState} (hengine : w.tunEngine = false) (routes : RouteState δ)
    (resolvers : ResolverState) (restore : RestoreEnv) :
    (Machine.stop destination restore
      { worker := w, routes := routes, resolvers := resolvers }).worker =
      restoreTunNetworkAfterStop restore { w with running := false } := by
  obtain ⟨settings, snapshot, tunEngine, running⟩ := w
  have hfalse : tunEngine = false := hengine
  rw [hfalse]
  rfl

/-- A start that returns is a run of `startTunWorker`. -/
theorem startTunWorker_of_start {result : Except AtrError Unit}
    (h : (m.start destination env config).1 = .returns result) :
    startTunWorker (env.startEnv destination config m) config m.worker =
      (result, (m.start destination env config).2.worker) := by
  unfold Machine.start at h ⊢
  unfold startTunWorker
  by_cases hengine : m.worker.tunEngine
  · rw [if_pos hengine] at h
    rw [if_pos hengine, if_pos hengine, ← Outcome.returns.inj h]
  · rw [if_neg hengine] at h
    rw [if_neg hengine, if_neg hengine]
    have hslot := (snapshot_engine env.snapshot m.worker).trans (by simpa using hengine)
    have hsnapshot : (env.startEnv destination config m).snapshot = env.snapshot := rfl
    rw [hsnapshot]
    generalize snapshotTunNetworkState env.snapshot m.worker = r at h hslot ⊢
    obtain ⟨snapshotted, worker⟩ := r
    cases snapshotted with
    | error err =>
      rw [← Outcome.returns.inj h]
    | ok u =>
      have hdecode : (env.startEnv destination config m).decode = env.decode := rfl
      dsimp only at h hslot ⊢
      unfold Machine.startEngine at h ⊢
      rw [hdecode]
      cases hconfig : intoVpnEngineConfig env.decode config with
      | error err =>
        rw [hconfig] at h
        rw [← Outcome.returns.inj h]
      | ok engine =>
        rw [hconfig] at h
        have hengineStart : (env.startEnv destination config m).engineStart engine =
            (env.engineStart engine).map Prod.fst := rfl
        dsimp only at h ⊢
        rw [hengineStart]
        cases hstart : env.engineStart engine with
        | error err =>
          rw [hstart] at h
          have hwriteFailed : (env.startEnv destination config m).writeFailed = env.writeFailed :=
            rfl
          have hrestore : (env.startEnv destination config m).restore = env.restore := rfl
          rw [← Outcome.returns.inj h]
          dsimp only [Except.map]
          rw [hwriteFailed, hrestore]
          cases env.writeFailed with
          | error e => rfl
          | ok u => rfl
        | ok p =>
          obtain ⟨interfaceName, fakeDns⟩ := p
          rw [hstart] at h
          have hdiscover : (env.startEnv destination config m).discoverTunName =
              env.discoverTunName := rfl
          dsimp only [Except.map] at h ⊢
          rw [hdiscover]
          cases hname : interfaceName.elim env.discoverTunName Except.ok with
          | error err =>
            rw [hname] at h
            rw [← Outcome.returns.inj h]
            exact congrArg (Prod.mk _) (stop_worker destination hslot _ _ _).symm
          | ok tunName =>
            rw [hname] at h
            have hfake : env.fakeDns config = fakeDns := by
              rw [SessionEnv.fakeDns, hconfig]
              dsimp only
              rw [hstart]
            have hsetup : (env.startEnv destination config m).setupRoutes tunName =
                match (m.setupNetwork destination env config tunName fakeDns).1 with
                | .returns result => result
                | .died => .ok () := by rw [← hfake]; rfl
            have hwait : (env.startEnv destination config m).waitSetup = env.waitSetup := rfl
            have hworker := setupNetwork_worker destination env config m
              { worker with running := true } tunName fakeDns
            dsimp only at h ⊢
            rw [hworker] at h
            rw [hworker, hsetup]
            generalize m.setupNetwork destination env config tunName fakeDns = r at h ⊢
            obtain ⟨outcome, m'⟩ := r
            cases outcome with
            | died => cases h
            | returns setup =>
              cases setup with
              | error err =>
                rw [← Outcome.returns.inj h]
                exact congrArg (Prod.mk _) (stop_worker destination hslot _ _ _).symm
              | ok u =>
                dsimp only at h ⊢
                rw [hwait]
                cases hready : env.waitSetup tunName with
                | error err =>
                  rw [hready] at h
                  rw [← Outcome.returns.inj h]
                  exact congrArg (Prod.mk _) (stop_worker destination hslot _ _ _).symm
                | ok u =>
                  rw [hready] at h
                  have hwriteRunning : (env.startEnv destination config m).writeRunning =
                      env.writeRunning := rfl
                  rw [← Outcome.returns.inj h, hwriteRunning]
                  cases env.writeRunning with
                  | error err => rfl
                  | ok u => rfl

end Worker

end NulConnect.Macos
