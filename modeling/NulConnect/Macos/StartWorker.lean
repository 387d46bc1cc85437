import NulConnect.Macos.Config
import NulConnect.VpnEngine.Startup

/-! `start_tun_worker` from its first check to its reply, with the snapshot of the network settings
that it takes and restores. -/
namespace NulConnect.Macos
open Net
open VpnEngine (StartConfig StartStep Starting starts)

/-- What `networksetup` gives for a network service. -/
structure TunNetworkSettings where
  dnsServers : List Text
  searchDomains : List Text
deriving DecidableEq

/-- The snapshot file. A write that breaks off leaves one that does not parse. -/
inductive SnapshotFile where
  | whole (services : List (Text × TunNetworkSettings))
  | torn

inductive FileWrite where
  | written
  | refused (err : AtrError)
  | broken (err : AtrError)

/-- The settings of the system, the snapshot file, whether an engine is in the slot, and whether
anything of the engine of the worker is running. -/
structure WorkerState where
  settings : Text → TunNetworkSettings
  snapshot : Option SnapshotFile
  tunEngine : Bool
  running : Bool

/-- The commands of `snapshot_tun_network_state`; the two queries of a service are one. -/
structure SnapshotEnv where
  services : Except AtrError (List Text)
  query : Text → Except AtrError Unit
  createDir : Except AtrError Unit
  write : FileWrite

/-- The commands of `restore_tun_network_state` and `reset_dns_to_default`. -/
structure RestoreEnv where
  read : Except AtrError Unit
  parseError : AtrError
  services : Except AtrError (List Text)
  setDns : Text → Except AtrError Unit
  setSearch : Text → Except AtrError Unit
  remove : Except AtrError Unit
  resetServices : Except AtrError (List Text)
  resetDns : Text → Bool
  resetSearch : Text → Bool

def startConfig (engine : VpnEngineConfig) : StartConfig where
  interruptEvent := true
  fakeIp := engine.fakeIp.isSome

/-- A `VpnEngine::start` that returns `Err`, with the threads that it has spawned once none of them
can go on. -/
structure FailedStart (c : StartConfig) where
  err : AtrError
  step : StartStep
  threads : Starting
  reachable : (starts c).Reachable threads
  failed : threads.Failed step
  settled : threads.Settled c

def FailedStart.left {c : StartConfig} (failure : FailedStart c) : Bool :=
  ¬ failure.threads.Released

/-- What the worker meets: every step of it that may fail. -/
structure StartEnv where
  snapshot : SnapshotEnv
  decode : Text → Except Text (List UInt8)
  /-- `VpnEngine::start`, with the engine's `interface_name` -/
  engineStart : (engine : VpnEngineConfig) → Except (FailedStart (startConfig engine)) (Option Text)
  discoverTunName : Except AtrError Text
  setupRoutes : Text → Except AtrError Unit
  waitSetup : Text → Except AtrError Unit
  writeFailed : Except AtrError Unit
  writeRunning : Except AtrError Unit
  restore : RestoreEnv

def SnapshotEnv.collect (env : SnapshotEnv) (settings : Text → TunNetworkSettings) :
    Except AtrError (List (Text × TunNetworkSettings)) := do
  let names ← env.services
  let services ← names.mapM fun name => (env.query name).map fun _ => (name, settings name)
  env.createDir
  return services

def snapshotTunNetworkState (env : SnapshotEnv) (s : WorkerState) :
    Except AtrError Unit × WorkerState :=
  if s.snapshot.isSome then (.ok (), s)
  else
    match env.collect s.settings, env.write with
    | .error err, _ => (.error err, s)
    | .ok services, .written => (.ok (), { s with snapshot := some (.whole services) })
    | .ok _, .refused err => (.error err, s)
    | .ok _, .broken err => (.error err, { s with snapshot := some .torn })

/-- The loop of `restore_tun_network_state` over the services that still exist. -/
def restoreServices (env : RestoreEnv) : List (Text × TunNetworkSettings) →
    (Text → TunNetworkSettings) → Except AtrError Unit × (Text → TunNetworkSettings)
  | [], settings => (.ok (), settings)
  | (name, saved) :: rest, settings =>
    match env.setDns name with
    | .error err => (.error err, settings)
    | .ok _ =>
      let settings := Function.update settings name
        { settings name with dnsServers := saved.dnsServers }
      match env.setSearch name with
      | .error err => (.error err, settings)
      | .ok _ => restoreServices env rest (Function.update settings name
          { settings name with searchDomains := saved.searchDomains })

def restoreTunNetworkState (env : RestoreEnv) (s : WorkerState) :
    Except AtrError Unit × WorkerState :=
  match s.snapshot, env.read with
  | none, _ => (.error (.notFound "tun network snapshot not found".toList), s)
  | some _, .error err => (.error err, s)
  | some .torn, .ok _ => (.error env.parseError, s)
  | some (.whole services), .ok _ =>
    match env.services with
    | .error err => (.error err, s)
    | .ok existing =>
      match restoreServices env (services.filter fun p => p.1 ∈ existing) s.settings,
        env.remove with
      | (.error err, settings), _ => (.error err, { s with settings := settings })
      | (.ok _, settings), .error err => (.error err, { s with settings := settings })
      | (.ok _, settings), .ok _ => (.ok (), { s with settings := settings, snapshot := none })

def resetDnsToDefault (env : RestoreEnv) (settings : Text → TunNetworkSettings) :
    Text → TunNetworkSettings :=
  match env.resetServices with
  | .error _ => settings
  | .ok names => names.foldl (fun settings name => Function.update settings name {
      dnsServers := if env.resetDns name then [] else (settings name).dnsServers
      searchDomains := if env.resetSearch name then [] else (settings name).searchDomains })
    settings

/-- `restore_tun_network_after_stop`, as far as the snapshot is concerned. -/
def restoreTunNetworkAfterStop (env : RestoreEnv) (s : WorkerState) : WorkerState :=
  match restoreTunNetworkState env s with
  | (.ok _, s) => s
  | (.error (.notFound _), s) => s
  | (.error _, s) => { s with settings := resetDnsToDefault env s.settings }

/-- The worker stops its engine and restores the network. -/
def abandon (env : StartEnv) (s : WorkerState) : WorkerState :=
  restoreTunNetworkAfterStop env.restore { s with running := false }

def startTunWorker (env : StartEnv) (config : HelperConfig) (s : WorkerState) :
    Except AtrError Unit × WorkerState :=
  if s.tunEngine then (.error (.invalidState "tun is already running".toList), s)
  else
    match snapshotTunNetworkState env.snapshot s with
    | (.error err, s) => (.error err, s)
    | (.ok _, s) =>
      match intoVpnEngineConfig env.decode config with
      | .error err => (.error err, s)
      | .ok engine =>
        match env.engineStart engine with
        | .error failure =>
          -- The worker has nothing to stop: whatever the call has left goes on.
          let s := (restoreTunNetworkState env.restore { s with running := failure.left }).2
          match env.writeFailed with
          | .error err => (.error err, s)
          | .ok _ => (.error failure.err, s)
        | .ok interfaceName =>
          let s := { s with running := true }
          match interfaceName.elim env.discoverTunName .ok with
          | .error err => (.error err, abandon env s)
          | .ok tunName =>
            match env.setupRoutes tunName with
            | .error err => (.error err, abandon env s)
            | .ok _ =>
              match env.waitSetup tunName with
              | .error err => (.error err, abandon env s)
              | .ok _ =>
                let s := { s with tunEngine := true }
                match env.writeRunning with
                | .error err => (.error err, s)
                | .ok _ => (.ok (), s)

def startedTunWorker (env : StartEnv) (interfaceName : Option Text) (s : WorkerState) :
    Except AtrError Unit × WorkerState :=
  match interfaceName.elim env.discoverTunName .ok with
  | .error err => (.error err, abandon env s)
  | .ok tunName =>
    match env.setupRoutes tunName with
    | .error err => (.error err, abandon env s)
    | .ok _ =>
      match env.waitSetup tunName with
      | .error err => (.error err, abandon env s)
      | .ok _ =>
        let s := { s with tunEngine := true }
        match env.writeRunning with
        | .error err => (.error err, s)
        | .ok _ => (.ok (), s)

theorem startTunWorker_eq_started {env : StartEnv} {config : HelperConfig} {s t : WorkerState}
    {engine : VpnEngineConfig} {interfaceName : Option Text} (hslot : s.tunEngine = false)
    (hsnap : snapshotTunNetworkState env.snapshot s = (.ok (), t))
    (hd : intoVpnEngineConfig env.decode config = .ok engine)
    (he : env.engineStart engine = .ok interfaceName) :
    startTunWorker env config s =
      startedTunWorker env interfaceName { t with running := true } := by
  unfold startTunWorker startedTunWorker
  simp only [hslot, hsnap, hd, he, Bool.false_eq_true, if_false]

structure RestoreEnv.Succeeds (env : RestoreEnv) : Prop where
  read : env.read = .ok ()
  services : ∃ names, env.services = .ok names
  setDns : ∀ name, env.setDns name = .ok ()
  setSearch : ∀ name, env.setSearch name = .ok ()
  remove : env.remove = .ok ()

/-- A failed start leaves no engine, and no snapshot file where there was none, so that a later
snapshot holds the settings of its own time. -/
structure LeftClean (before after : WorkerState) : Prop where
  running : after.running = false
  slot : after.tunEngine = false
  snapshot : before.snapshot = none → after.snapshot = none
  later : before.snapshot = none → ∀ env settings services, env.collect settings = .ok services →
    env.write = .written →
      (snapshotTunNetworkState env { after with settings := settings }).2.snapshot =
        some (.whole services)

def LeavesNothing (env : StartEnv) (config : HelperConfig) (s : WorkerState) : Prop :=
  ∀ err, (startTunWorker env config s).1 = .error err → LeftClean s (startTunWorker env config s).2

/-- The failures that have no clean-up do not occur: a snapshot that breaks off in its write, a
configuration that does not decode after a new snapshot, a downlink worker that cannot be spawned
beside an uplink worker that goes on, and a started engine whose state cannot be written. -/
structure CleansUp (env : StartEnv) (config : HelperConfig) (s : WorkerState) : Prop where
  snapshot : s.snapshot = none → ∀ services, env.snapshot.collect s.settings = .ok services →
    ∀ err, env.snapshot.write ≠ .broken err
  decode : s.snapshot = none → (snapshotTunNetworkState env.snapshot s).1 = .ok () →
    ∃ bytes, env.decode config.resourceBytes = .ok bytes
  engine : (snapshotTunNetworkState env.snapshot s).1 = .ok () →
    ∀ engine, intoVpnEngineConfig env.decode config = .ok engine →
    ∀ failure, env.engineStart engine = .error failure → failure.step = .downlink →
      failure.threads.uplinkFailed = true
  running : (snapshotTunNetworkState env.snapshot s).1 = .ok () →
    ∀ engine, intoVpnEngineConfig env.decode config = .ok engine →
    ∀ interfaceName, env.engineStart engine = .ok interfaceName →
    ∀ tunName, interfaceName.elim env.discoverTunName .ok = .ok tunName →
      env.setupRoutes tunName = .ok () → env.waitSetup tunName = .ok () → env.writeRunning = .ok ()

section Restore

variable {env : RestoreEnv} {s : WorkerState}

theorem restoreServices_ok (h : env.Succeeds) (services : List (Text × TunNetworkSettings))
    (settings : Text → TunNetworkSettings) :
    (restoreServices env services settings).1 = .ok () := by
  induction services generalizing settings with
  | nil => rfl
  | cons p services ih =>
    obtain ⟨name, saved⟩ := p
    simp only [restoreServices, h.setDns name, h.setSearch name]
    exact ih _

/-- Restoring a snapshot leaves the engine as it is. -/
theorem restoreTunNetworkState_engine (env : RestoreEnv) (s : WorkerState) :
    (restoreTunNetworkState env s).2.running = s.running ∧
      (restoreTunNetworkState env s).2.tunEngine = s.tunEngine := by
  unfold restoreTunNetworkState
  split
  · exact ⟨rfl, rfl⟩
  · exact ⟨rfl, rfl⟩
  · exact ⟨rfl, rfl⟩
  · split
    · exact ⟨rfl, rfl⟩
    · split
      all_goals exact ⟨rfl, rfl⟩

theorem restoreTunNetworkState_whole (h : env.Succeeds)
    {services : List (Text × TunNetworkSettings)}
    (hs : s.snapshot = some (.whole services)) :
    ∃ settings, restoreTunNetworkState env s =
      (.ok (), { s with settings := settings, snapshot := none }) := by
  obtain ⟨names, hnames⟩ := h.services
  have hloop := restoreServices_ok h (services.filter fun p => p.1 ∈ names) s.settings
  refine ⟨(restoreServices env (services.filter fun p => p.1 ∈ names) s.settings).2, ?_⟩
  unfold restoreTunNetworkState
  rw [hs, h.read]
  dsimp only
  rw [hnames]
  dsimp only
  rw [h.remove]
  generalize restoreServices env (services.filter fun p => p.1 ∈ names) s.settings = r at hloop ⊢
  obtain ⟨result, settings⟩ := r
  dsimp only at hloop
  rw [hloop]

/-- Where the worker gives up, its engine is stopped and its own snapshot restored. -/
theorem leftClean_abandon {env : StartEnv} (h : env.restore.Succeeds) {before : WorkerState}
    (hslot : s.tunEngine = false)
    (hfile : before.snapshot = none → ∃ services, s.snapshot = some (.whole services)) :
    (abandon env s).running = false ∧ (abandon env s).tunEngine = false ∧
      (before.snapshot = none → (abandon env s).snapshot = none) := by
  have hengine := restoreTunNetworkState_engine env.restore { s with running := false }
  unfold abandon restoreTunNetworkAfterStop
  refine ⟨?_, ?_, fun hnone => ?_⟩
  · split
    all_goals
      next heq =>
      rw [heq] at hengine
      exact hengine.1
  · split
    all_goals
      next heq =>
      rw [heq] at hengine
      exact hengine.2.trans hslot
  · obtain ⟨services, hs⟩ := hfile hnone
    obtain ⟨settings, hrestore⟩ := restoreTunNetworkState_whole h
      (s := { s with running := false }) hs
    rw [hrestore]

end Restore

section Start

variable {env : StartEnv} {config : HelperConfig} {s t : WorkerState}

theorem FailedStart.left_eq_false {c : StartConfig} {failure : FailedStart c} :
    failure.left = false ↔ (failure.step = .downlink → failure.threads.uplinkFailed = true) := by
  have hsound := VpnEngine.sound_of_reachable failure.reachable
  rw [← hsound.released_of_settled failure.failed failure.settled, left, decide_eq_false_iff_not,
    not_not]

theorem LeftClean.of (hrunning : t.running = false) (hslot : t.tunEngine = false)
    (hfile : s.snapshot = none → t.snapshot = none) : LeftClean s t where
  running := hrunning
  slot := hslot
  snapshot := hfile
  later hnone env settings services hcollect hwrite := by
    unfold snapshotTunNetworkState
    rw [if_neg (by simp [hfile hnone])]
    simp only [hcollect, hwrite]

/-- What taking the snapshot does: it fails before the file is there, or in the middle of it, or
the file is whole. -/
theorem snapshot_cases (env : SnapshotEnv) (s : WorkerState) :
    (∃ file, snapshotTunNetworkState env s = (.ok (), { s with snapshot := some file }) ∧
      (s.snapshot = none → ∃ services, file = .whole services) ∧
      (s.snapshot = none → ∀ err, env.write ≠ .broken err)) ∨
    (∃ err, snapshotTunNetworkState env s = (.error err, s) ∧
      ∀ services, env.collect s.settings = .ok services → ∀ err, env.write ≠ .broken err) ∨
    (∃ err services,
      snapshotTunNetworkState env s = (.error err, { s with snapshot := some .torn }) ∧
      s.snapshot = none ∧ env.collect s.settings = .ok services ∧ env.write = .broken err) := by
  unfold snapshotTunNetworkState
  cases hs : s.snapshot with
  | some file =>
    refine .inl ⟨file, ?_, by simp, by simp⟩
    exact (if_pos rfl).trans (by rw [← hs])
  | none =>
    rw [if_neg (by simp)]
    cases hc : env.collect s.settings with
    | error err => exact .inr (.inl ⟨err, rfl, by simp⟩)
    | ok services =>
      cases hw : env.write with
      | written => exact .inl ⟨_, rfl, fun _ => ⟨services, rfl⟩, by simp⟩
      | refused err => exact .inr (.inl ⟨err, rfl, by simp⟩)
      | broken err => exact .inr (.inr ⟨err, services, rfl, rfl, rfl, rfl⟩)

/-- Once the engine runs, a failure leaves something only in the last write. -/
theorem startedTunWorker_leaves_iff (interfaceName : Option Text)
    (habandon : LeftClean s (abandon env t)) :
    (∀ err, (startedTunWorker env interfaceName t).1 = .error err →
        LeftClean s (startedTunWorker env interfaceName t).2) ↔
      ∀ tunName, interfaceName.elim env.discoverTunName .ok = .ok tunName →
        env.setupRoutes tunName = .ok () → env.waitSetup tunName = .ok () →
        env.writeRunning = .ok () := by
  unfold startedTunWorker
  cases hn : interfaceName.elim env.discoverTunName .ok with
  | error err =>
    refine ⟨fun _ tun ht => ?_, fun _ _ _ => habandon⟩
    cases ht
  | ok tunName =>
    dsimp only
    cases hr : env.setupRoutes tunName with
    | error err =>
      refine ⟨fun _ tun ht hset => ?_, fun _ _ _ => habandon⟩
      obtain rfl := Except.ok.inj ht
      rw [hr] at hset
      cases hset
    | ok =>
      dsimp only
      cases hw : env.waitSetup tunName with
      | error err =>
        refine ⟨fun _ tun ht _ hwait => ?_, fun _ _ _ => habandon⟩
        obtain rfl := Except.ok.inj ht
        rw [hw] at hwait
        cases hwait
      | ok =>
        dsimp only
        cases hs : env.writeRunning with
        | error err =>
          constructor
          · intro hleft
            cases (hleft err rfl).slot
          · intro h
            cases h tunName rfl hr hw
        | ok =>
          refine ⟨fun _ _ _ _ _ => rfl, fun _ err h => ?_⟩
          cases h

/-- A configuration that does not decode leaves a new snapshot behind. -/
theorem leavesNothing_iff_of_undecoded {file : SnapshotFile} {err : AtrError}
    (hslot : s.tunEngine = false) (hrunning : s.running = false)
    (hsnap : snapshotTunNetworkState env.snapshot s = (.ok (), { s with snapshot := some file }))
    (hd : intoVpnEngineConfig env.decode config = .error err) :
    LeavesNothing env config s ↔ CleansUp env config s := by
  have hbad : ¬ ∃ bytes, env.decode config.resourceBytes = .ok bytes := by
    rw [← intoVpnEngineConfig_isOk, hd]
    rintro ⟨_, h⟩
    cases h
  have hrun : startTunWorker env config s = (.error err, { s with snapshot := some file }) := by
    unfold startTunWorker
    simp only [hslot, hsnap, hd, Bool.false_eq_true, if_false]
  unfold LeavesNothing
  rw [hrun]
  constructor
  · intro hleft
    have hclean := hleft err rfl
    have hsome : s.snapshot ≠ none := fun hnone => Option.some_ne_none _ (hclean.snapshot hnone)
    refine ⟨fun hnone => absurd hnone hsome, fun hnone => absurd hnone hsome,
      fun _ engine h => ?_, fun _ engine h => ?_⟩
    all_goals
      rw [hd] at h
      cases h
  · intro hclean err _
    refine .of hrunning hslot fun hnone => ?_
    exact absurd (hclean.decode hnone (by rw [hsnap])) hbad

/-- Where the engine cannot be started, the worker restores its own snapshot and leaves whatever
the call has left. -/
theorem leavesNothing_iff_of_failure {file : SnapshotFile} {engine : VpnEngineConfig}
    {failure : FailedStart (startConfig engine)} (hslot : s.tunEngine = false)
    (hrestore : env.restore.Succeeds)
    (hsnap : snapshotTunNetworkState env.snapshot s = (.ok (), { s with snapshot := some file }))
    (hwhole : s.snapshot = none → ∃ services, file = .whole services)
    (hd : intoVpnEngineConfig env.decode config = .ok engine)
    (he : env.engineStart engine = .error failure) :
    LeavesNothing env config s ↔
      (failure.step = .downlink → failure.threads.uplinkFailed = true) := by
  let left : WorkerState := { s with snapshot := some file, running := failure.left }
  have hengine := restoreTunNetworkState_engine env.restore left
  have hfile : s.snapshot = none → (restoreTunNetworkState env.restore left).2.snapshot = none := by
    intro hnone
    obtain ⟨services, rfl⟩ := hwhole hnone
    obtain ⟨settings, hrestored⟩ := restoreTunNetworkState_whole hrestore (s := left) rfl
    rw [hrestored]
  have hrun : ∃ err, startTunWorker env config s =
      (.error err, (restoreTunNetworkState env.restore left).2) := by
    unfold startTunWorker
    rw [hslot, hsnap]
    simp only [hd, he, Bool.false_eq_true, if_false]
    split
    all_goals exact ⟨_, rfl⟩
  obtain ⟨err, hrun⟩ := hrun
  unfold LeavesNothing
  rw [hrun, ← FailedStart.left_eq_false]
  constructor
  · intro hleft
    exact hengine.1.symm.trans (hleft err rfl).running
  · intro hleft _ _
    exact .of (hengine.1.trans hleft) (hengine.2.trans hslot) hfile

/-- The rest of the worker, once the snapshot is there. -/
theorem leavesNothing_iff_of_snapshot {file : SnapshotFile} (hslot : s.tunEngine = false)
    (hrunning : s.running = false) (hrestore : env.restore.Succeeds)
    (hsnap : snapshotTunNetworkState env.snapshot s = (.ok (), { s with snapshot := some file }))
    (hwhole : s.snapshot = none → ∃ services, file = .whole services)
    (hwritten : s.snapshot = none → ∀ err, env.snapshot.write ≠ .broken err) :
    LeavesNothing env config s ↔ CleansUp env config s := by
  have hok : (snapshotTunNetworkState env.snapshot s).1 = .ok () := by rw [hsnap]
  cases hd : intoVpnEngineConfig env.decode config with
  | error err => exact leavesNothing_iff_of_undecoded hslot hrunning hsnap hd
  | ok engine =>
    have hdecode : ∃ bytes, env.decode config.resourceBytes = .ok bytes :=
      intoVpnEngineConfig_isOk.mp ⟨engine, hd⟩
    cases he : env.engineStart engine with
    | error failure =>
      rw [leavesNothing_iff_of_failure hslot hrestore hsnap hwhole hd he]
      refine ⟨fun hcond => ⟨fun hnone _ _ => hwritten hnone, fun _ _ => hdecode,
        fun _ engine' h failure' h' => ?_, fun _ engine' h _ h' => ?_⟩,
        fun h => h.engine hok engine hd failure he⟩
      · obtain rfl := Except.ok.inj (hd.symm.trans h)
        obtain rfl := Except.error.inj (he.symm.trans h')
        exact hcond
      · obtain rfl := Except.ok.inj (hd.symm.trans h)
        rw [he] at h'
        cases h'
    | ok interfaceName =>
      have hfile (hnone : s.snapshot = none) :
          ∃ services, some file = some (.whole services) := by
        obtain ⟨services, rfl⟩ := hwhole hnone
        exact ⟨services, rfl⟩
      obtain ⟨h1, h2, h3⟩ := leftClean_abandon hrestore hslot hfile
        (s := { s with snapshot := some file, running := true })
      have habandon : LeftClean s _ := .of h1 h2 h3
      have hstarted := startedTunWorker_leaves_iff interfaceName habandon
      unfold LeavesNothing
      rw [startTunWorker_eq_started hslot hsnap hd he]
      refine hstarted.trans ⟨fun hrun => ⟨fun hnone _ _ => hwritten hnone, fun _ _ => hdecode,
        fun _ engine' h failure' h' => ?_, fun _ engine' h name h' => ?_⟩,
        fun h => h.running hok engine hd interfaceName he⟩
      · obtain rfl := Except.ok.inj (hd.symm.trans h)
        rw [he] at h'
        cases h'
      · obtain rfl := Except.ok.inj (hd.symm.trans h)
        obtain rfl := Except.ok.inj (he.symm.trans h')
        exact hrun

/-- The start fails without a trace exactly where no failure without a clean-up occurs. -/
theorem leavesNothing_iff (hslot : s.tunEngine = false) (hrunning : s.running = false)
    (hrestore : env.restore.Succeeds) : LeavesNothing env config s ↔ CleansUp env config s := by
  obtain ⟨file, hsnap, hwhole, hwritten⟩ | ⟨failure, hsnap, hbroken⟩ |
    ⟨failure, services, hsnap, hnone, hcollect, hwrite⟩ := snapshot_cases env.snapshot s
  · exact leavesNothing_iff_of_snapshot hslot hrunning hrestore hsnap hwhole hwritten
  · constructor
    · intro _
      refine ⟨fun _ => hbroken, fun _ h => ?_, fun h => ?_, fun h => ?_⟩
      all_goals
        rw [hsnap] at h
        cases h
    · rintro - err -
      unfold startTunWorker
      rw [hslot, hsnap]
      exact .of hrunning hslot id
  · constructor
    · intro hleft
      have hclean := hleft failure (by
        unfold startTunWorker
        rw [hslot, hsnap]
        rfl)
      have hfile := hclean.snapshot hnone
      unfold startTunWorker at hfile
      rw [hslot, hsnap] at hfile
      cases hfile
    · intro hclean
      exact absurd hwrite (hclean.snapshot hnone services hcollect failure)

end Start

section Examples

/-- A request for a tunnel without routes of its own. -/
private def plainConfig (resourceBytes : String) : HelperConfig where
  setupRoutes := false
  managedRouteCidrs := ["10.0.0.0/8".toList]
  dnsAddr := "10.0.0.53".toList
  resourceBytes := resourceBytes.toList
  serviceHost := []
  tunName := none
  managedDomains := []
  mtu := 1400
  exitOnFatalError := true
  fakeIp := false

private def willing : RestoreEnv where
  read := .ok ()
  parseError := .parseFailed []
  services := .ok ["Wi-Fi".toList]
  setDns _ := .ok ()
  setSearch _ := .ok ()
  remove := .ok ()
  resetServices := .ok []
  resetDns _ := true
  resetSearch _ := true

private theorem willing_succeeds : willing.Succeeds where
  read := rfl
  services := ⟨_, rfl⟩
  setDns _ := rfl
  setSearch _ := rfl
  remove := rfl

/-- The first step fails, and nothing has been spawned. -/
private def unreachableStart (c : StartConfig) : FailedStart c where
  err := .networkFailed "connection refused".toList
  step := .virtualIp
  threads := { Starting.initial with main := .leaving .virtualIp (.drop []) }
  reachable := by
    have h : (starts c).Reachable .initial := .init rfl
    exact h.run [.call false] rfl
  failed := rfl
  settled := by
    rintro (ok | _) -
    all_goals rfl

/-- The engine cannot be started, and only the empty text decodes. -/
private def unreachableServer : StartEnv where
  snapshot :=
    { services := .ok ["Wi-Fi".toList]
      query := fun _ => .ok ()
      createDir := .ok ()
      write := .written }
  decode text := if text = [] then .ok [] else .error "Invalid symbol 33, offset 0.".toList
  engineStart engine := .error (unreachableStart (startConfig engine))
  discoverTunName := .ok "utun7".toList
  setupRoutes _ := .ok ()
  waitSetup _ := .ok ()
  writeFailed := .ok ()
  writeRunning := .ok ()
  restore := willing

private def fresh : WorkerState where
  settings _ := { dnsServers := [], searchDomains := [] }
  snapshot := none
  tunEngine := false
  running := false

/-- A start that does not reach its server fails and leaves nothing. -/
theorem leavesNothing_unreachable : LeavesNothing unreachableServer (plainConfig "") fresh ∧
    ∃ err, (startTunWorker unreachableServer (plainConfig "") fresh).1 = .error err := by
  refine ⟨(leavesNothing_iff rfl rfl willing_succeeds).mpr ⟨?_, ?_, ?_, ?_⟩, _, rfl⟩
  · intro _ _ _ err h
    cases h
  · exact fun _ _ => ⟨[], rfl⟩
  · intro _ engine _ failure h hstep
    obtain rfl := Except.error.inj h
    cases hstep
  · intro _ engine _ name h
    cases h

/-- A request that passes the check and whose resource bytes do not decode leaves its snapshot. -/
theorem undecoded_start_leaves : ¬ ∀ env config s, validateHelperConfig config = .ok () →
    s.tunEngine = false → s.running = false → env.restore.Succeeds →
      LeavesNothing env config s := by
  intro hall
  have hvalid : validateHelperConfig (plainConfig "!!!!") = .ok () := by
    decide +kernel
  have hleft := hall unreachableServer _ fresh hvalid rfl rfl willing_succeeds _ rfl
  cases hleft.snapshot rfl

end Examples

end NulConnect.Macos
