import NulConnect.Macos.Machine
import NulConnect.Transition.Program

/-! A start, a stop and the recovery of a new process one change at a time, in the order of the
source, and that uninterrupted they come to what the calls do as a whole. -/
namespace NulConnect.Macos.Stepwise
open Net Transition

section Routes

variable {δ : Type*} [DecidableEq δ] (destination : List Text → Option δ)

def deleteRouteCidr (cidr : Text) : Program (RouteState δ) Unit :=
  .act fun s => Macos.deleteRouteCidr destination s cidr

def deleteRoutes : List Text → Program (RouteState δ) Unit
  | [] => pure ()
  | cidr :: cidrs => do
    deleteRouteCidr destination cidr
    deleteRoutes cidrs

def cleanupTunRoutes : Program (RouteState δ) Unit := do
  let record ← .reads RouteState.record
  deleteRoutes destination (record.getD [])
  .act fun s => { s with record := none }

def addRouteCidr (failure : Option Text) (cidr : Text) (target : List Text) :
    Program (RouteState δ) (Except AtrError Unit) :=
  .call (Macos.addRouteCidr destination failure cidr target)

def addTunRoutes (failure : Text → Option Text) (target : List Text) :
    List Text → List Text → Program (RouteState δ) (Except AtrError (List Text))
  | [], installed => pure (.ok installed)
  | cidr :: rest, installed =>
    if trim cidr = [] then addTunRoutes failure target rest installed
    else do
      match ← addRouteCidr destination (failure cidr) cidr target with
      | .error e =>
        deleteRoutes destination installed
        pure (.error e)
      | .ok _ => addTunRoutes failure target rest (installed ++ [cidr])

def addNodeRoutes (failure : Text → Option Text) (target : List Text) :
    List Text → List Text → Program (RouteState δ) (List Text)
  | [], installed => pure installed
  | cidr :: rest, installed => do
    match ← addRouteCidr destination (failure cidr) cidr target with
    | .error _ => addNodeRoutes failure target rest installed
    | .ok _ => addNodeRoutes failure target rest (installed ++ [cidr])

def pinNodeRoutes (env : RouteEnv) (nodeRoutes installed : List Text) :
    Program (RouteState δ) (List Text) :=
  if nodeRoutes = [] then pure installed
  else
    match env.gateway with
    | .ok gateway => addNodeRoutes destination env.nodeFailure [gateway] nodeRoutes installed
    | .error _ => pure installed

/-- The file is there before the list is in it; until then no route is read from it. -/
def writeRoutes (write : Except AtrError Unit) (installed : List Text) :
    Program (RouteState δ) (Except AtrError Unit) :=
  match write with
  | .error e => pure (.error e)
  | .ok _ => do
    .act fun s => { s with record := some [] }
    .act fun s => { s with record := some installed }
    pure (.ok ())

/-- `setup_managed_tun_routes` behind the resolver files. -/
def installRoutes (config : RouteConfig) (env : RouteEnv) :
    Program (RouteState δ) (Except AtrError Unit) :=
  match nodeRouteCidrs env with
  | .error e => pure (.error e)
  | .ok nodeRoutes => do
    match ← addTunRoutes destination env.tunFailure ["-interface".toList, env.tunName]
      (tunRoutes config env) [] with
    | .error e => pure (.error e)
    | .ok installed =>
      let installed ← pinNodeRoutes destination env nodeRoutes installed
      writeRoutes env.write installed

end Routes

section Resolvers

def removeFiles : List Text → Program ResolverState Unit
  | [] => pure ()
  | domain :: domains => do
    .act fun s => { s with files := Function.update s.files domain none }
    removeFiles domains

def cleanupScopedDnsResolvers : Program ResolverState Unit := do
  let domains ← .reads ResolverState.recorded
  removeFiles domains
  .act fun s => { s with record := none }

/-- The bytes come into the file one by one. -/
def fillFile (domain : Text) (front : List UInt8) : List UInt8 → Program ResolverState Unit
  | [] => .act fun s => { s with files := Function.update s.files domain (some front) }
  | byte :: bytes => do
    .act fun s => { s with files := Function.update s.files domain (some front) }
    fillFile domain (front ++ [byte]) bytes

def writeFile (domain : Text) (contents : List UInt8) (outcome : WriteOutcome) :
    Program ResolverState Unit :=
  match outcome.leaves contents with
  | none => pure ()
  | some bytes => do
    .act fun s => { s with written := s.written ++ [domain] }
    fillFile domain [] bytes

def writeResolvers (env : ResolverEnv) (contents legacy : List UInt8) :
    List Text → List Text → Program ResolverState (Except Ending (List Text))
  | [], installed => pure (.ok installed)
  | domain :: rest, installed => do
    let existing ← .reads fun s => s.files domain
    if keepsExisting legacy existing then writeResolvers env contents legacy rest installed
    else
      writeFile domain contents (env.write domain)
      match env.write domain with
      | .written => writeResolvers env contents legacy rest (installed ++ [domain])
      | .fails err _ => pure (.error (.failed err))
      | .dies _ => pure (.error .died)

def tearRecord (left : Option ℕ) : Program ResolverState Unit :=
  .act fun s => { s with record := if left.isSome then some .torn else s.record }

def writeRecord (env : ResolverEnv) (installed : List Text) :
    Program ResolverState (Except Ending Unit) :=
  match env.recordWrite with
  | .written => do
    tearRecord (some 0)
    .act fun s => { s with record := some (.whole installed) }
    pure (.ok ())
  | .fails err left => do
    tearRecord left
    pure (.error (.failed err))
  | .dies left => do
    tearRecord left
    pure (.error .died)

def configureScopedDnsResolvers (env : ResolverEnv) (domains : List Text) (server : Text)
    (fakeDns : Option SocketAddr) : Program ResolverState (Except Ending Unit) := do
  cleanupScopedDnsResolvers
  .act fun s => { s with written := [] }
  match env.createDir with
  | .error err => pure (.error (.failed err))
  | .ok _ =>
    match ← writeResolvers env (toUtf8 (resolverContents server fakeDns))
      (toUtf8 (legacyContents server)) (normalizedResolverDomains domains) [] with
    | .error ending => pure (.error ending)
    | .ok installed => writeRecord env installed

end Resolvers

section Settings

def snapshotTunNetworkState (env : SnapshotEnv) : Program WorkerState (Except AtrError Unit) := do
  let s ← .reads fun s => (s.snapshot.isSome, env.collect s.settings)
  if s.1 then pure (.ok ())
  else
    match s.2, env.write with
    | .error err, _ => pure (.error err)
    | .ok services, .written => do
      .act fun s => { s with snapshot := some .torn }
      .act fun s => { s with snapshot := some (.whole services) }
      pure (.ok ())
    | .ok _, .refused err => pure (.error err)
    | .ok _, .broken err => do
      .act fun s => { s with snapshot := some .torn }
      pure (.error err)

/-- `networksetup -setdnsservers`. -/
def setDnsServers (name : Text) (servers : List Text) : Program WorkerState Unit :=
  .act fun s => { s with
    settings := Function.update s.settings name { s.settings name with dnsServers := servers } }

/-- `networksetup -setsearchdomains`. -/
def setSearchDomains (name : Text) (domains : List Text) : Program WorkerState Unit :=
  .act fun s => { s with
    settings := Function.update s.settings name { s.settings name with searchDomains := domains } }

def restoreServices (env : RestoreEnv) :
    List (Text × TunNetworkSettings) → Program WorkerState (Except AtrError Unit)
  | [] => pure (.ok ())
  | (name, saved) :: rest =>
    match env.setDns name with
    | .error err => pure (.error err)
    | .ok _ => do
      setDnsServers name saved.dnsServers
      match env.setSearch name with
      | .error err => pure (.error err)
      | .ok _ =>
        setSearchDomains name saved.searchDomains
        restoreServices env rest

def restoreTunNetworkState (env : RestoreEnv) : Program WorkerState (Except AtrError Unit) := do
  match ← .reads WorkerState.snapshot, env.read with
  | none, _ => pure (.error (.notFound "tun network snapshot not found".toList))
  | some _, .error err => pure (.error err)
  | some .torn, .ok _ => pure (.error env.parseError)
  | some (.whole services), .ok _ =>
    match env.services with
    | .error err => pure (.error err)
    | .ok existing =>
      match ← restoreServices env (services.filter fun p => p.1 ∈ existing), env.remove with
      | .error err, _ => pure (.error err)
      | .ok _, .error err => pure (.error err)
      | .ok _, .ok _ => do
        .act fun s => { s with snapshot := none }
        pure (.ok ())

/-- A command whose failure is ignored. -/
def attempt (succeeds : Bool) (command : Program WorkerState Unit) : Program WorkerState Unit :=
  if succeeds then command else pure ()

/-- The loop of `reset_dns_to_default`. -/
def resetServices (env : RestoreEnv) : List Text → Program WorkerState Unit
  | [] => pure ()
  | name :: names => do
    attempt (env.resetDns name) (setDnsServers name [])
    attempt (env.resetSearch name) (setSearchDomains name [])
    resetServices env names

def resetDnsToDefault (env : RestoreEnv) : Program WorkerState Unit :=
  match env.resetServices with
  | .error _ => pure ()
  | .ok names => resetServices env names

def restoreTunNetworkAfterStop (env : RestoreEnv) : Program WorkerState Unit := do
  match ← restoreTunNetworkState env with
  | .ok _ => pure ()
  | .error (.notFound _) => pure ()
  | .error _ => resetDnsToDefault env

end Settings

section Machine

variable {δ : Type*} [DecidableEq δ] (destination : List Text → Option δ)

def worker : Program.Part WorkerState (Machine δ) where
  get m := m.worker
  put worker m := { m with worker := worker }
  get_put _ _ := rfl
  put_put _ _ _ := rfl
  put_get _ := rfl

def routes : Program.Part (RouteState δ) (Machine δ) where
  get m := m.routes
  put routes m := { m with routes := routes }
  get_put _ _ := rfl
  put_put _ _ _ := rfl
  put_get _ := rfl

def resolvers : Program.Part ResolverState (Machine δ) where
  get m := m.resolvers
  put resolvers m := { m with resolvers := resolvers }
  get_put _ _ := rfl
  put_put _ _ _ := rfl
  put_get _ := rfl

def setupNetwork (env : SessionEnv) (config : HelperConfig) (tunName : Text)
    (fakeDns : Option SocketAddr) : Program (Machine δ) Outcome :=
  if ¬ config.setupRoutes then pure (.returns (.ok ()))
  else do
    (cleanupTunRoutes destination).within routes
    match ← (configureScopedDnsResolvers env.resolver config.managedDomains config.dnsAddr
      fakeDns).within resolvers with
    | .error .died => pure .died
    | .error (.failed err) => pure (.returns (.error err))
    | .ok _ =>
      let result ← (installRoutes destination config.toRouteConfig
        (env.routeEnv tunName fakeDns)).within routes
      pure (.returns result)

def restoreNetwork (env : RestoreEnv) : Program (Machine δ) Unit := do
  (cleanupTunRoutes destination).within routes
  cleanupScopedDnsResolvers.within resolvers
  (restoreTunNetworkAfterStop env).within worker

def stop (env : RestoreEnv) : Program (Machine δ) Unit := do
  .act fun m => { m with worker := { m.worker with tunEngine := false, running := false } }
  restoreNetwork destination env

def startEngine (env : SessionEnv) (config : HelperConfig) : Program (Machine δ) Outcome :=
  match intoVpnEngineConfig env.decode config with
  | .error err => pure (.returns (.error err))
  | .ok engine =>
    match env.engineStart engine with
    | .error failure => do
      .act fun m => { m with worker := { m.worker with running := failure.left } }
      let _ ← (restoreTunNetworkState env.restore).within worker
      (cleanupTunRoutes destination).within routes
      match env.writeFailed with
      | .error err => pure (.returns (.error err))
      | .ok _ => pure (.returns (.error failure.err))
    | .ok (interfaceName, fakeDns) => do
      .act fun m => { m with worker := { m.worker with running := true } }
      match interfaceName.elim env.discoverTunName .ok with
      | .error err =>
        stop destination env.restore
        pure (.returns (.error err))
      | .ok tunName =>
        match ← setupNetwork destination env config tunName fakeDns with
        | .died => pure .died
        | .returns (.error err) =>
          stop destination env.restore
          pure (.returns (.error err))
        | .returns (.ok _) =>
          match env.waitSetup tunName with
          | .error err =>
            stop destination env.restore
            pure (.returns (.error err))
          | .ok _ =>
            .act fun m => { m with worker := { m.worker with tunEngine := true } }
            pure (.returns env.writeRunning)

def start (env : SessionEnv) (config : HelperConfig) : Program (Machine δ) Outcome := do
  if ← .reads fun m => m.worker.tunEngine then
    pure (.returns (.error (.invalidState "tun is already running".toList)))
  else
    match ← (snapshotTunNetworkState env.snapshot).within worker with
    | .error err => pure (.returns (.error err))
    | .ok _ => startEngine destination env config

end Machine

section RunRoutes

variable {δ : Type*} [DecidableEq δ] (destination : List Text → Option δ)

@[simp] theorem run_deleteRoutes (cidrs : List Text) (s : RouteState δ) :
    (deleteRoutes destination cidrs).run s = ((), Macos.deleteRoutes destination s cidrs) := by
  induction cidrs generalizing s with
  | nil => rfl
  | cons cidr cidrs ih => exact ih _

@[simp] theorem run_cleanupTunRoutes (s : RouteState δ) :
    (cleanupTunRoutes destination).run s = ((), Macos.cleanupTunRoutes destination s) := by
  simp [cleanupTunRoutes, Macos.cleanupTunRoutes]

theorem run_addTunRoutes (failure : Text → Option Text) (target cidrs installed : List Text)
    (s : RouteState δ) : (addTunRoutes destination failure target cidrs installed).run s =
      Macos.addTunRoutes destination failure target cidrs installed s := by
  induction cidrs generalizing installed s with
  | nil => rfl
  | cons cidr cidrs ih =>
    unfold addTunRoutes Macos.addTunRoutes
    split_ifs
    · exact ih installed s
    · rw [Program.run_bind, addRouteCidr, Program.run_call]
      generalize Macos.addRouteCidr destination (failure cidr) cidr target s = r
      obtain ⟨result, t⟩ := r
      cases result with
      | error e => simp
      | ok u => exact ih (installed ++ [cidr]) t

theorem run_addNodeRoutes (failure : Text → Option Text) (target cidrs installed : List Text)
    (s : RouteState δ) : (addNodeRoutes destination failure target cidrs installed).run s =
      Macos.addNodeRoutes destination failure target cidrs installed s := by
  induction cidrs generalizing installed s with
  | nil => rfl
  | cons cidr cidrs ih =>
    unfold addNodeRoutes Macos.addNodeRoutes
    rw [Program.run_bind, addRouteCidr, Program.run_call]
    generalize Macos.addRouteCidr destination (failure cidr) cidr target s = r
    obtain ⟨result, t⟩ := r
    cases result with
    | error e => exact ih installed t
    | ok u => exact ih (installed ++ [cidr]) t

@[simp] theorem run_pinNodeRoutes (env : RouteEnv) (nodeRoutes installed : List Text)
    (s : RouteState δ) : (pinNodeRoutes destination env nodeRoutes installed).run s =
      Macos.pinNodeRoutes destination env nodeRoutes installed s := by
  unfold pinNodeRoutes Macos.pinNodeRoutes
  split_ifs
  · rfl
  · cases env.gateway with
    | error e => rfl
    | ok gateway =>
      exact run_addNodeRoutes destination env.nodeFailure [gateway] nodeRoutes installed s

/-- With the cleanup before it, this is `setup_managed_tun_routes` once the resolver files are
there. -/
theorem run_installRoutes {config : RouteConfig} {env : RouteEnv} (hsetup : config.setupRoutes)
    (hresolvers : env.resolvers = .ok ()) (s : RouteState δ) :
    (installRoutes destination config env).run (Macos.cleanupTunRoutes destination s) =
      setupManagedTunRoutes destination config env s := by
  unfold installRoutes setupManagedTunRoutes
  rw [if_neg (by simpa using hsetup), hresolvers]
  cases nodeRouteCidrs env with
  | error e => rfl
  | ok nodeRoutes =>
    dsimp only
    rw [Program.run_bind, run_addTunRoutes]
    generalize Macos.addTunRoutes destination env.tunFailure ["-interface".toList, env.tunName]
      (tunRoutes config env) [] (Macos.cleanupTunRoutes destination s) = r
    obtain ⟨result, t⟩ := r
    cases result with
    | error e => rfl
    | ok installed =>
      dsimp only
      rw [Program.run_bind, run_pinNodeRoutes]
      unfold writeRoutes
      cases env.write with
      | error e => rfl
      | ok u => rfl

end RunRoutes

section RunResolvers

@[simp] theorem run_removeFiles (domains : List Text) (s : ResolverState) :
    (removeFiles domains).run s = ((), { s with
      files := domains.foldl (fun files name => Function.update files name none) s.files }) := by
  induction domains generalizing s with
  | nil => rfl
  | cons domain domains ih => exact ih _

@[simp] theorem run_cleanupScopedDnsResolvers (s : ResolverState) :
    cleanupScopedDnsResolvers.run s = ((), s.cleanupScopedDnsResolvers) := by
  simp [cleanupScopedDnsResolvers, ResolverState.cleanupScopedDnsResolvers]

theorem run_fillFile (domain : Text) (front bytes : List UInt8) (s : ResolverState) :
    (fillFile domain front bytes).run s = ((), { s with
      files := Function.update s.files domain (some (front ++ bytes)) }) := by
  induction bytes generalizing front s with
  | nil => simp [fillFile]
  | cons byte bytes ih =>
    unfold fillFile
    rw [Program.run_bind, Program.run_act, ih, Function.update_idem, List.append_assoc,
      List.singleton_append]

@[simp] theorem run_writeFile (domain : Text) (contents : List UInt8) (outcome : WriteOutcome)
    (s : ResolverState) :
    (writeFile domain contents outcome).run s = ((), s.writeFile domain contents outcome) := by
  unfold writeFile ResolverState.writeFile
  cases outcome.leaves contents with
  | none => rfl
  | some bytes =>
    dsimp only
    rw [Program.run_bind, run_fillFile]
    rfl

@[simp] theorem run_writeResolvers (env : ResolverEnv) (contents legacy : List UInt8)
    (names installed : List Text) (s : ResolverState) :
    (writeResolvers env contents legacy names installed).run s =
      ResolverState.writeResolvers env contents legacy names installed s := by
  induction names generalizing installed s with
  | nil => rfl
  | cons domain rest ih =>
    unfold writeResolvers ResolverState.writeResolvers
    rw [Program.run_bind, Program.run_reads]
    dsimp only
    split_ifs
    · exact ih installed s
    · rw [Program.run_bind, run_writeFile]
      dsimp only
      cases env.write domain with
      | written => exact ih _ _
      | fails err left => rfl
      | dies left => rfl

@[simp] theorem run_writeRecord (env : ResolverEnv) (installed : List Text) (s : ResolverState) :
    (writeRecord env installed).run s = s.writeRecord env installed := by
  unfold writeRecord ResolverState.writeRecord
  cases env.recordWrite with
  | written => rfl
  | fails err left => rfl
  | dies left => rfl

@[simp] theorem run_configureScopedDnsResolvers (env : ResolverEnv) (domains : List Text)
    (server : Text) (fakeDns : Option SocketAddr) (s : ResolverState) :
    (configureScopedDnsResolvers env domains server fakeDns).run s =
      s.configureScopedDnsResolvers env domains server fakeDns := by
  unfold configureScopedDnsResolvers ResolverState.configureScopedDnsResolvers
  rw [Program.run_bind, run_cleanupScopedDnsResolvers, Program.run_bind, Program.run_act]
  dsimp only
  cases env.createDir with
  | error err => rfl
  | ok u =>
    dsimp only
    rw [Program.run_bind, run_writeResolvers]
    generalize ResolverState.writeResolvers env (toUtf8 (resolverContents server fakeDns))
      (toUtf8 (legacyContents server)) (normalizedResolverDomains domains) []
      { s.cleanupScopedDnsResolvers with written := [] } = r
    obtain ⟨result, t⟩ := r
    cases result with
    | error ending => rfl
    | ok installed => exact run_writeRecord ..

end RunResolvers

section RunSettings

@[simp] theorem run_snapshotTunNetworkState (env : SnapshotEnv) (s : WorkerState) :
    (snapshotTunNetworkState env).run s = Macos.snapshotTunNetworkState env s := by
  unfold snapshotTunNetworkState Macos.snapshotTunNetworkState
  rw [Program.run_bind, Program.run_reads]
  dsimp only
  split_ifs
  · rfl
  · split
    all_goals simp_all

theorem run_restoreServices (env : RestoreEnv) (services : List (Text × TunNetworkSettings))
    (s : WorkerState) : (restoreServices env services).run s =
      ((Macos.restoreServices env services s.settings).1,
        { s with settings := (Macos.restoreServices env services s.settings).2 }) := by
  induction services generalizing s with
  | nil => rfl
  | cons p services ih =>
    obtain ⟨name, saved⟩ := p
    unfold restoreServices Macos.restoreServices
    cases env.setDns name with
    | error err => rfl
    | ok u =>
      cases hsearch : env.setSearch name with
      | error err =>
        dsimp only
        rw [Program.run_bind]
        rfl
      | ok u =>
        dsimp only
        rw [Program.run_bind, Program.run_bind]
        exact ih _

@[simp] theorem run_restoreTunNetworkState (env : RestoreEnv) (s : WorkerState) :
    (restoreTunNetworkState env).run s = Macos.restoreTunNetworkState env s := by
  obtain ⟨settings, snapshot, tunEngine, running⟩ := s
  unfold restoreTunNetworkState Macos.restoreTunNetworkState
  rw [Program.run_bind, Program.run_reads]
  dsimp only
  cases snapshot with
  | none => rfl
  | some file =>
    cases env.read with
    | error err => rfl
    | ok u =>
      cases file with
      | torn => rfl
      | whole services =>
        cases env.services with
        | error err => rfl
        | ok existing =>
          dsimp only
          rw [Program.run_bind, run_restoreServices]
          generalize Macos.restoreServices env _ settings = r
          obtain ⟨result, settings⟩ := r
          cases result with
          | error err => rfl
          | ok u =>
            cases env.remove with
            | error err => rfl
            | ok u => rfl

/-- What the two commands leave of the settings of a service. -/
def resetService (env : RestoreEnv) (settings : Text → TunNetworkSettings) (name : Text) :
    Text → TunNetworkSettings :=
  Function.update settings name {
    dnsServers := if env.resetDns name then [] else (settings name).dnsServers
    searchDomains := if env.resetSearch name then [] else (settings name).searchDomains }

theorem run_resetServices (env : RestoreEnv) (names : List Text) (s : WorkerState) :
    (resetServices env names).run s =
      ((), { s with settings := names.foldl (resetService env) s.settings }) := by
  induction names generalizing s with
  | nil => rfl
  | cons name names ih =>
    have hreset : ((attempt (env.resetSearch name) (setSearchDomains name [])).run
        ((attempt (env.resetDns name) (setDnsServers name [])).run s).2).2 =
        { s with settings := resetService env s.settings name } := by
      unfold attempt resetService setDnsServers setSearchDomains
      cases env.resetDns name
      all_goals cases env.resetSearch name
      all_goals simp
    unfold resetServices
    rw [Program.run_bind, Program.run_bind, ih, hreset]
    rfl

theorem run_resetDnsToDefault (env : RestoreEnv) (s : WorkerState) :
    (resetDnsToDefault env).run s =
      ((), { s with settings := Macos.resetDnsToDefault env s.settings }) := by
  unfold resetDnsToDefault Macos.resetDnsToDefault
  cases env.resetServices with
  | error err => rfl
  | ok names => exact run_resetServices env names s

@[simp] theorem run_restoreTunNetworkAfterStop (env : RestoreEnv) (s : WorkerState) :
    (restoreTunNetworkAfterStop env).run s = ((), Macos.restoreTunNetworkAfterStop env s) := by
  unfold restoreTunNetworkAfterStop Macos.restoreTunNetworkAfterStop
  rw [Program.run_bind, run_restoreTunNetworkState]
  generalize Macos.restoreTunNetworkState env s = r
  obtain ⟨result, t⟩ := r
  cases result with
  | ok u => rfl
  | error err =>
    cases err with
    | notFound text => rfl
    | _ => exact run_resetDnsToDefault env t

end RunSettings

section RunMachine

variable {δ : Type*} [DecidableEq δ] (destination : List Text → Option δ) (m : Machine δ)

theorem run_setupNetwork (env : SessionEnv) (config : HelperConfig) (tunName : Text)
    (fakeDns : Option SocketAddr) : (setupNetwork destination env config tunName fakeDns).run m =
      m.setupNetwork destination env config tunName fakeDns := by
  unfold setupNetwork Machine.setupNetwork
  split_ifs with hsetup
  · rw [Program.run_bind, Program.run_within, run_cleanupTunRoutes, Program.run_bind,
      Program.run_within, run_configureScopedDnsResolvers]
    have hroutes : (installRoutes destination config.toRouteConfig
        (env.routeEnv tunName fakeDns)).run (Macos.cleanupTunRoutes destination m.routes) =
        setupManagedTunRoutes destination config.toRouteConfig (env.routeEnv tunName fakeDns)
          m.routes := run_installRoutes destination hsetup rfl m.routes
    dsimp only [routes, resolvers]
    generalize m.resolvers.configureScopedDnsResolvers env.resolver config.managedDomains
      config.dnsAddr fakeDns = r
    obtain ⟨result, resolvers⟩ := r
    cases result with
    | error ending =>
      cases ending with
      | died => rfl
      | failed err => rfl
    | ok u =>
      dsimp only
      rw [Program.run_bind, Program.run_within, hroutes]
      rfl
  · rfl

theorem run_restoreNetwork (env : RestoreEnv) :
    (restoreNetwork destination env).run m = ((), m.restoreNetwork destination env) := by
  unfold restoreNetwork Machine.restoreNetwork
  simp only [Program.run_bind, Program.run_within, run_cleanupTunRoutes,
    run_cleanupScopedDnsResolvers, run_restoreTunNetworkAfterStop]
  rfl

theorem run_stop (env : RestoreEnv) :
    (stop destination env).run m = ((), m.stop destination env) := by
  unfold stop Machine.stop
  rw [Program.run_bind, Program.run_act, run_restoreNetwork]

theorem run_startEngine (env : SessionEnv) (config : HelperConfig) :
    (startEngine destination env config).run m = m.startEngine destination env config := by
  unfold startEngine Machine.startEngine
  cases intoVpnEngineConfig env.decode config with
  | error err => rfl
  | ok engine =>
    dsimp only
    cases env.engineStart engine with
    | error failure =>
      dsimp only
      rw [Program.run_bind, Program.run_act, Program.run_bind, Program.run_within,
        run_restoreTunNetworkState, Program.run_bind, Program.run_within, run_cleanupTunRoutes]
      cases env.writeFailed with
      | error err => rfl
      | ok u => rfl
    | ok p =>
      obtain ⟨interfaceName, fakeDns⟩ := p
      dsimp only
      rw [Program.run_bind, Program.run_act]
      cases interfaceName.elim env.discoverTunName Except.ok with
      | error err =>
        dsimp only
        rw [Program.run_bind, run_stop]
        rfl
      | ok tunName =>
        dsimp only
        rw [Program.run_bind, run_setupNetwork]
        generalize Machine.setupNetwork destination env config tunName fakeDns _ = r
        obtain ⟨outcome, m'⟩ := r
        cases outcome with
        | died => rfl
        | returns result =>
          cases result with
          | error err =>
            dsimp only
            rw [Program.run_bind, run_stop]
            rfl
          | ok u =>
            dsimp only
            cases env.waitSetup tunName with
            | error err =>
              dsimp only
              rw [Program.run_bind, run_stop]
              rfl
            | ok u => rfl

/-- A start that is not cut off comes to `start_tun_worker` as a whole. -/
theorem run_start (env : SessionEnv) (config : HelperConfig) :
    (start destination env config).run m = m.start destination env config := by
  unfold start Machine.start
  rw [Program.run_bind, Program.run_reads]
  dsimp only
  split_ifs
  · rfl
  · rw [Program.run_bind, Program.run_within, run_snapshotTunNetworkState]
    dsimp only [worker]
    generalize Macos.snapshotTunNetworkState env.snapshot m.worker = r
    obtain ⟨result, worker⟩ := r
    cases result with
    | error err => rfl
    | ok u => exact run_startEngine destination _ env config

end RunMachine

end NulConnect.Macos.Stepwise
