import NulConnect.Macos.StepInvariants
import NulConnect.Transition.System

/-! Whole sessions of the macOS helper: starts, stops, the death of the process at any point of
them, and the recovery of the next one. -/
namespace NulConnect.Macos
open Net Transition Transition.Table

variable {δ : Type*} [DecidableEq δ] (destination : List Text → Option δ)

/-- What the user and the other programs have given the machine. -/
structure UserState (δ : Type*) where
  table : δ → Option (List Text)
  files : Text → Option (List UInt8)
  settings : Text → TunNetworkSettings

/-- The work that changes the machine; it holds the lock `tun_operation`, or comes before the first
client. -/
inductive Request where
  | start (env : SessionEnv) (config : HelperConfig)
  | stop (env : RestoreEnv)
  | recover (env : RestoreEnv)

/-- A route that a start may add. -/
def Candidate (env : SessionEnv) (config : HelperConfig) (cidr : Text) : Prop :=
  cidr ∈ config.managedRouteCidrs ∨ cidr = fakeIpCidr ∨
    cidr = trim config.dnsAddr ++ "/32".toList ∨
    ∃ nodeRoutes, nodeRouteCidrs env.routes = .ok nodeRoutes ∧ cidr ∈ nodeRoutes

namespace Request

/-- A new process begins with it. -/
def recovers : Request → Bool
  | .recover _ => true
  | _ => false

/-- The files that a new process looks for. -/
def leftovers (m : Machine δ) : Bool :=
  m.routes.record.isSome || m.resolvers.record.isSome || m.worker.snapshot.isSome

def program : Request → Program (Machine δ) Outcome
  | .start env config => Stepwise.start destination env config
  | .stop env => do
    Stepwise.stop destination env
    pure (.returns (.ok ()))
  | .recover env => do
    if ← .reads leftovers then
      Stepwise.restoreNetwork destination env
      pure (.returns (.ok ()))
    else pure (.returns (.ok ()))

/-- The destinations of the routes that the request may add. -/
def routes : Request → Set δ
  | .start env config => {d | ∃ cidr, Candidate env config cidr ∧ d ∈ destOf destination cidr}
  | _ => ∅

/-- The names of the resolver files that the request may write. -/
def files : Request → Set Text
  | .start _ config => {name | name ∈ normalizedResolverDomains config.managedDomains}
  | _ => ∅

end Request

/-- `lostRoutes` and `lostFiles` are history: the entries of starts in which the process died before
they were on record. -/
structure Session (δ : Type*) where
  alive : Bool
  machine : Machine δ
  user : UserState δ
  lostRoutes : Set δ
  lostFiles : Set Text

/-- `interrupt` ends the process behind the first `k` changes of a request. -/
inductive SessionAction (δ : Type*) where
  | changeRoute (d : δ) (target : Option (List Text))
  | changeFile (name : Text) (bytes : Option (List UInt8))
  | changeSettings (service : Text) (settings : TunNetworkSettings)
  | request (r : Request)
  | interrupt (r : Request) (k : ℕ)
  | die

namespace Session

/-- The process dies at work on the request. -/
def dies (s : Session δ) (r : Request) (m : Machine δ) : Session δ := { s with
  alive := false
  machine := m.lose
  lostRoutes := s.lostRoutes ∪ adrift (r.routes destination) s.user.table m.routes.table
    (dests destination (m.routes.record.getD []))
  lostFiles := s.lostFiles ∪ adrift r.files s.user.files m.resolvers.files m.resolvers.recorded }

def step (s : Session δ) : SessionAction δ → Option (Session δ)
  | .changeRoute d target => some { s with
      user.table := Function.update s.user.table d target
      machine.routes.table := Function.update s.machine.routes.table d target
      lostRoutes := s.lostRoutes \ {d} }
  | .changeFile name bytes => some { s with
      user.files := Function.update s.user.files name bytes
      machine.resolvers.files := Function.update s.machine.resolvers.files name bytes
      lostFiles := s.lostFiles \ {name} }
  | .changeSettings service settings => some { s with
      user.settings := Function.update s.user.settings service settings
      machine.worker.settings := Function.update s.machine.worker.settings service settings }
  | .request r => when (s.alive ≠ r.recovers)
      (match (r.program destination).run s.machine with
      | (.returns _, m) => { s with alive := true, machine := m }
      | (.died, m) => s.dies destination r m)
  | .interrupt r k => when (s.alive ≠ r.recovers)
      (s.dies destination r ((r.program destination).cut k s.machine))
  | .die => some { s with alive := false, machine := s.machine.lose }

/-- The first process meets nothing of an earlier one. -/
structure Initial (s : Session δ) : Prop where
  table : s.machine.routes.table = s.user.table
  files : s.machine.resolvers.files = s.user.files
  settings : s.machine.worker.settings = s.user.settings
  routeRecord : s.machine.routes.record = none
  resolverRecord : s.machine.resolvers.record = none
  snapshot : s.machine.worker.snapshot = none
  lost : s.lostRoutes = ∅ ∧ s.lostFiles = ∅

def system : System (Session δ) (SessionAction δ) where
  init := Initial
  step := step destination

end Session

/-- A start that claims nothing of the user's: the destinations are free, and a domain has no file
or one that stays. -/
structure ClaimsFree (user : UserState δ) (env : SessionEnv) (config : HelperConfig) : Prop where
  routes : ∀ d ∈ (Request.start env config).routes destination, user.table d = none
  names : ∀ name ∈ normalizedResolverDomains config.managedDomains, user.files name = none ∨
    keepsExisting (toUtf8 (legacyContents config.dnsAddr)) (user.files name)

/-- Every file that the start begins to write is written. -/
structure Writes (env : SessionEnv) (config : HelperConfig) : Prop where
  snapshot : ∀ err, env.snapshot.write ≠ .broken err
  files : ∀ name ∈ normalizedResolverDomains config.managedDomains,
    env.resolver.write name = .written
  resolverRecord : env.resolver.recordWrite = .written
  routeRecord : env.routes.write = .ok ()

/-- The commands that restore the settings succeed. -/
def Request.Benign (user : UserState δ) : Request → Prop
  | .start env config => ClaimsFree destination user env config ∧ env.restore.Succeeds
  | .stop env => env.Succeeds
  | .recover env => env.Succeeds

def Request.Writes : Request → Prop
  | .start env config => Macos.Writes env config
  | _ => True

/-- No write of the snapshot has been broken off. -/
def Machine.Untorn (m : Machine δ) : Prop := m.worker.snapshot ≠ some .torn

namespace Session

/-- The others leave alone what the helper has on record, and the process does not die while it
writes the snapshot of the settings. -/
def Benign (s : Session δ) : SessionAction δ → Prop
  | .changeRoute d _ => d ∉ dests destination (s.machine.routes.record.getD [])
  | .changeFile name _ => name ∉ s.machine.resolvers.recorded
  | .changeSettings _ _ => s.machine.worker.snapshot = none
  | .request r => r.Benign destination s.user ∧ r.Writes
  | .interrupt r k => r.Benign destination s.user ∧
      ((r.program destination).cut k s.machine).Untorn
  | .die => True

/-- At any time the settings are the user's, and so are the routes and the files but for those on
record and those that are lost, where the user has none; without an engine nothing is on record,
and all that is not lost is as the user has it. -/
structure Undisturbed (s : Session δ) : Prop where
  settings : s.machine.worker.settings = s.user.settings
  routes : Borrowed s.user.table s.machine.routes.table
    (dests destination (s.machine.routes.record.getD [])) s.lostRoutes
  files : Borrowed s.user.files s.machine.resolvers.files s.machine.resolvers.recorded s.lostFiles
  idle : s.alive → s.machine.worker.tunEngine = false →
    s.machine.routes.record = none ∧ s.machine.resolvers.record = none
  restored : s.alive → s.machine.worker.tunEngine = false →
    (∀ d ∉ s.lostRoutes, s.machine.routes.table d = s.user.table d) ∧
      ∀ name ∉ s.lostFiles, s.machine.resolvers.files name = s.user.files name

end Session

section Machine

variable {destination} {user : UserState δ} {lostRoutes looseRoutes : Set δ}
  {lostFiles looseFiles : Set Text} {engine : Bool} {m : Machine δ}

/-- What the machine is at all times. -/
structure Intact (destination : List Text → Option δ) (user : UserState δ) (lostRoutes : Set δ)
    (lostFiles : Set Text) (m : Machine δ) : Prop where
  routes : RoutesKept destination user.table lostRoutes m.routes
  resolvers : ResolversKept user.files lostFiles m.resolvers
  saved : Saved user.settings m.worker

/-- What it is while no snapshot is written. -/
structure Standing (destination : List Text → Option δ) (user : UserState δ) (lostRoutes : Set δ)
    (lostFiles : Set Text) (engine : Bool) (m : Machine δ) : Prop where
  routes : RoutesKept destination user.table lostRoutes m.routes
  resolvers : ResolversKept user.files lostFiles m.resolvers
  resting : Resting user.settings engine m.worker

/-- Nothing is on record. -/
def Unrecorded (m : Machine δ) : Prop := m.routes.record = none ∧ m.resolvers.record = none

omit [DecidableEq δ] in
theorem Standing.intact (h : Standing destination user lostRoutes lostFiles engine m) :
    Intact destination user lostRoutes lostFiles m := ⟨h.routes, h.resolvers, h.resting.toSaved⟩

omit [DecidableEq δ] in
theorem Standing.withRunning (h : Standing destination user lostRoutes lostFiles engine m)
    (running : Bool) : Standing destination user lostRoutes lostFiles engine
      { m with worker := { m.worker with running := running } } :=
  ⟨h.routes, h.resolvers, ⟨h.resting.same, h.resting.whole⟩, h.resting.untorn, h.resting.engine⟩

omit [DecidableEq δ] in
theorem Intact.lose (h : Intact destination user lostRoutes lostFiles m) :
    Intact destination user lostRoutes lostFiles m.lose :=
  ⟨h.routes, h.resolvers, h.saved.same, h.saved.whole⟩

theorem cleanupRoutes_safe (h : Standing destination user lostRoutes lostFiles engine m) :
    ((Stepwise.cleanupTunRoutes destination).within Stepwise.routes).Safe
      (Standing destination user lostRoutes lostFiles engine)
      (fun _ t => t.routes.record = none ∧ t.resolvers = m.resolvers) m :=
  Program.safe_within.mpr ((cleanup_safe h.routes).mono
    (fun _ hr => ⟨hr, h.resolvers, h.resting⟩) fun _ _ _ hrecord => ⟨hrecord, rfl⟩)

theorem restoreNetwork_safe (h : Standing destination user lostRoutes lostFiles engine m)
    {env : RestoreEnv} (henv : env.Succeeds) : (Stepwise.restoreNetwork destination env).Safe
      (Standing destination user lostRoutes lostFiles engine) (fun _ => Unrecorded) m := by
  apply (cleanupRoutes_safe h).bind
  rintro _ t ht ⟨hrecord, -⟩
  have hresolvers : (Stepwise.cleanupScopedDnsResolvers.within Stepwise.resolvers).Safe
      (Standing destination user lostRoutes lostFiles engine) (fun _ => Unrecorded) t :=
    Program.safe_within.mpr ((cleanupScopedDnsResolvers_safe ht.resolvers).mono
      (fun _ hr => ⟨ht.routes, hr, ht.resting⟩) fun _ _ _ hnone => ⟨hrecord, hnone⟩)
  apply hresolvers.bind
  intro _ u hu hunrecorded
  exact Program.safe_within.mpr ((restoreTunNetworkAfterStop_safe hu.resting henv).mono
    (fun _ hr => ⟨hu.routes, hu.resolvers, hr⟩) fun _ _ _ _ => hunrecorded)

theorem stop_safe (h : Standing destination user lostRoutes lostFiles engine m)
    {env : RestoreEnv} (henv : env.Succeeds) : (Stepwise.stop destination env).Safe
      (Intact destination user lostRoutes lostFiles)
      (fun _ t => Standing destination user lostRoutes lostFiles false t ∧ Unrecorded t) m := by
  have hstopped : Standing destination user lostRoutes lostFiles false
      { m with worker := { m.worker with tunEngine := false, running := false } } :=
    ⟨h.routes, h.resolvers, ⟨h.resting.same, h.resting.whole⟩, h.resting.untorn, rfl⟩
  refine Program.safe_bind.mpr (Program.safe_act.mpr ⟨h.intact, hstopped.intact, ?_⟩)
  exact (restoreNetwork_safe hstopped henv).mono (fun _ => Standing.intact)
    fun _ _ ht hunrecorded => ⟨ht, hunrecorded⟩

/-- What a start may lose where it is cut off: what was lost before, and what it claims. -/
structure Leeway (destination : List Text → Option δ) (user : UserState δ) (env : SessionEnv)
    (config : HelperConfig) (lostRoutes looseRoutes : Set δ) (lostFiles looseFiles : Set Text) :
    Prop extends ClaimsFree destination user env config where
  lostRoutes : lostRoutes ⊆ looseRoutes
  freeRoutes : ∀ d ∈ looseRoutes, user.table d = none
  claimedRoutes : (Request.start env config).routes destination ⊆ looseRoutes
  lostFiles : lostFiles ⊆ looseFiles
  freeFiles : ∀ name ∈ looseFiles, user.files name = none
  claimedFiles : ∀ name ∈ normalizedResolverDomains config.managedDomains,
    user.files name = none → name ∈ looseFiles

variable {env : SessionEnv} {config : HelperConfig}

omit [DecidableEq δ] in
theorem Standing.loosen (h : Standing destination user lostRoutes lostFiles engine m)
    (hway : Leeway destination user env config lostRoutes looseRoutes lostFiles looseFiles) :
    Standing destination user looseRoutes looseFiles engine m :=
  ⟨h.routes.more hway.lostRoutes hway.freeRoutes,
    h.resolvers.more hway.lostFiles hway.freeFiles, h.resting⟩

/-- The routes that a run adds are among the candidates. -/
theorem candidate_of_mem {tunName cidr : Text} {fakeDns : Option SocketAddr}
    (h : cidr ∈ tunRoutes config.toRouteConfig (env.routeEnv tunName fakeDns)) :
    Candidate env config cidr := by
  rw [tunRoutes, mem_sortDedup] at h
  simp only [List.mem_append] at h
  rcases h with (hmanaged | hfake) | hdns
  · exact .inl hmanaged
  · split_ifs at hfake
    · exact .inr (.inl (List.mem_singleton.mp hfake))
    · cases hfake
  · split_ifs at hdns
    · exact .inr (.inr (.inl (List.mem_singleton.mp hdns)))
    · cases hdns

theorem setupNetwork_safe (h : Standing destination user lostRoutes lostFiles engine m)
    (hway : Leeway destination user env config lostRoutes looseRoutes lostFiles looseFiles)
    (tunName : Text) (fakeDns : Option SocketAddr) :
    (Stepwise.setupNetwork destination env config tunName fakeDns).Safe
      (Standing destination user looseRoutes looseFiles engine)
      (fun _ t => Writes env config → Standing destination user lostRoutes lostFiles engine t)
      m := by
  unfold Stepwise.setupNetwork
  split_ifs
  · apply ((cleanupRoutes_safe h).mono (fun _ ht => ht.loosen hway) fun _ _ ht hrecord =>
      And.intro ht hrecord.1).bind
    rintro _ t ht ⟨hkept, hrecord⟩
    have hresolvers : ((Stepwise.configureScopedDnsResolvers env.resolver config.managedDomains
        config.dnsAddr fakeDns).within Stepwise.resolvers).Safe
        (Standing destination user looseRoutes looseFiles engine)
        (fun _ u => u.routes = t.routes ∧ u.worker = t.worker ∧
          (Writes env config → ResolversKept user.files lostFiles u.resolvers)) t :=
      Program.safe_within.mpr ((configure_safe hway.lostFiles hway.freeFiles fakeDns hkept.resolvers
        hway.names hway.claimedFiles).mono (fun _ hr => ⟨ht.routes, hr, ht.resting⟩)
        fun _ _ _ hwritten => ⟨rfl, rfl, fun hwrites => hwritten hwrites.files
          hwrites.resolverRecord⟩)
    apply hresolvers.bind
    rintro r u hu ⟨hsameRoutes, hsameWorker, hfiles⟩
    have hkept' : Writes env config → Standing destination user lostRoutes lostFiles engine u := by
      intro hwrites
      refine ⟨?_, hfiles hwrites, hu.resting⟩
      rw [hsameRoutes]
      exact hkept.routes
    split
    · exact ⟨hu, hkept'⟩
    · exact ⟨hu, hkept'⟩
    · have hinstall : ((Stepwise.installRoutes destination config.toRouteConfig
          (env.routeEnv tunName fakeDns)).within Stepwise.routes).Safe
          (Standing destination user looseRoutes looseFiles engine)
          (fun _ v => Writes env config →
            Standing destination user lostRoutes lostFiles engine v) u := by
        apply Program.safe_within.mpr
        have hbegin : RoutesKept destination user.table lostRoutes u.routes := by
          rw [hsameRoutes]
          exact hkept.routes
        have hnone : u.routes.record = none := by
          rw [hsameRoutes]
          exact hrecord
        apply (installRoutes_safe hway.lostRoutes hway.freeRoutes hnone hbegin ?_ ?_).mono
        · exact fun _ hr => ⟨hr, hu.resolvers, hu.resting⟩
        · exact fun _ _ _ hwritten hwrites =>
            ⟨hwritten hwrites.routeRecord, hfiles hwrites, hu.resting⟩
        · exact fun cidr hcidr d hd => hway.claimedRoutes ⟨cidr, candidate_of_mem hcidr, hd⟩
        · exact fun nodeRoutes hnodes cidr hcidr d hd =>
            hway.claimedRoutes ⟨cidr, .inr (.inr (.inr ⟨nodeRoutes, hnodes, hcidr⟩)), hd⟩
      apply hinstall.bind
      exact fun _ v hv hwritten => ⟨hv, hwritten⟩
  · exact ⟨h.loosen hway, fun _ => h⟩

/-- How a request ends: with a machine that is kept, where all it writes is written, and without an
engine nothing on record, unless the process has died. -/
structure Ended (destination : List Text → Option δ) (user : UserState δ) (lostRoutes : Set δ)
    (lostFiles : Set Text) (writes : Prop) (outcome : Outcome) (m : Machine δ) : Prop where
  kept : writes → Intact destination user lostRoutes lostFiles m ∧ m.Untorn
  idle : ∀ result, outcome = .returns result → m.worker.tunEngine = false → Unrecorded m

/-- A start that gives up. -/
theorem giveUp_safe (h : Standing destination user looseRoutes looseFiles engine m)
    {writes : Prop} (hkept : writes → Standing destination user lostRoutes lostFiles engine m)
    {restore : RestoreEnv} (henv : restore.Succeeds) (result : Except AtrError Unit) :
    (do
      Stepwise.stop destination restore
      pure (.returns result) : Program (Machine δ) Outcome).Safe
      (Intact destination user looseRoutes looseFiles)
      (Ended destination user lostRoutes lostFiles writes) m := by
  by_cases hwrites : writes
  · apply (((stop_safe h henv).and (stop_safe (hkept hwrites) henv)).mono (fun _ ht => ht.1)
      fun _ _ _ => id).bind
    rintro _ t ht ⟨⟨-, hunrecorded⟩, hstopped, -⟩
    exact ⟨ht, fun _ => ⟨hstopped.intact, hstopped.resting.untorn⟩, fun _ _ _ => hunrecorded⟩
  · apply (stop_safe h henv).bind
    rintro _ t ht ⟨-, hunrecorded⟩
    exact ⟨ht, fun hw => absurd hw hwrites, fun _ _ _ => hunrecorded⟩

theorem startEngine_safe (h : Standing destination user lostRoutes lostFiles false m)
    (hclean : Unrecorded m) (hrestore : env.restore.Succeeds)
    (hway : Leeway destination user env config lostRoutes looseRoutes lostFiles looseFiles) :
    (Stepwise.startEngine destination env config).Safe
      (Intact destination user looseRoutes looseFiles)
      (Ended destination user lostRoutes lostFiles (Writes env config)) m := by
  have hloose {t : Machine δ} (ht : Standing destination user lostRoutes lostFiles false t) :
      Intact destination user looseRoutes looseFiles t := (ht.loosen hway).intact
  unfold Stepwise.startEngine
  split
  · exact ⟨hloose h, fun _ => ⟨h.intact, h.resting.untorn⟩, fun _ _ _ => hclean⟩
  · split
    · rename_i failure hstart
      have hleft := h.withRunning failure.left
      refine Program.safe_bind.mpr (Program.safe_act.mpr ⟨hloose h, hloose hleft, ?_⟩)
      have hrestored : ((Stepwise.restoreTunNetworkState env.restore).within
          Stepwise.worker).Safe (Standing destination user lostRoutes lostFiles false)
          (fun _ t => t.resolvers = m.resolvers)
          { m with worker := { m.worker with running := failure.left } } :=
        Program.safe_within.mpr ((restoreTunNetworkState_safe env.restore hleft.resting).mono
          (fun _ hr => ⟨h.routes, h.resolvers, hr⟩) fun _ _ _ _ => rfl)
      apply (hrestored.mono (fun _ => hloose) fun _ _ => And.intro).bind
      rintro _ t - ⟨ht, hsame⟩
      apply ((cleanupRoutes_safe ht).mono (fun _ => hloose) fun _ _ => And.intro).bind
      rintro _ u - ⟨hu, hrecord, hresolvers⟩
      have hunrecorded : Unrecorded u := ⟨hrecord, by rw [hresolvers, hsame, hclean.2]⟩
      split
      all_goals exact ⟨hloose hu, fun _ => ⟨hu.intact, hu.resting.untorn⟩, fun _ _ _ => hunrecorded⟩
    · rename_i interfaceName fakeDns hstart
      have hrunning := h.withRunning true
      refine Program.safe_bind.mpr (Program.safe_act.mpr ⟨hloose h, hloose hrunning, ?_⟩)
      split
      · exact giveUp_safe (hrunning.loosen hway) (fun _ => hrunning) hrestore _
      · rename_i tunName hname
        apply ((setupNetwork_safe hrunning hway tunName fakeDns).mono (fun _ => Standing.intact)
          fun _ _ => And.intro).bind
        rintro outcome t - ⟨ht, hkept⟩
        have hkept' (hwrites : Writes env config) :
            Intact destination user lostRoutes lostFiles t ∧ t.Untorn :=
          ⟨(hkept hwrites).intact, ht.resting.untorn⟩
        split
        · exact ⟨ht.intact, hkept', fun _ hdied => Outcome.noConfusion hdied⟩
        · exact giveUp_safe ht hkept hrestore _
        · split
          · exact giveUp_safe ht hkept hrestore _
          · have hslot (looseRoutes : Set δ) (looseFiles : Set Text)
                (hu : Intact destination user looseRoutes looseFiles t) :
                Intact destination user looseRoutes looseFiles
                  { t with worker := { t.worker with tunEngine := true } } :=
              ⟨hu.routes, hu.resolvers, hu.saved.same, hu.saved.whole⟩
            refine Program.safe_bind.mpr
              (Program.safe_act.mpr ⟨ht.intact, hslot _ _ ht.intact, hslot _ _ ht.intact, ?_⟩)
            refine ⟨fun hwrites => ⟨hslot _ _ (hkept' hwrites).1, ht.resting.untorn⟩, ?_⟩
            intro _ _ hengine
            cases hengine

theorem start_safe (h : Intact destination user lostRoutes lostFiles m) (huntorn : m.Untorn)
    (hclean : m.worker.tunEngine = false → Unrecorded m) (hrestore : env.restore.Succeeds)
    (hway : Leeway destination user env config lostRoutes looseRoutes lostFiles looseFiles) :
    (Stepwise.start destination env config).Safe
      (Intact destination user looseRoutes looseFiles)
      (Ended destination user lostRoutes lostFiles (Writes env config)) m := by
  have hloose {worker : WorkerState} (hworker : Saved user.settings worker) :
      Intact destination user looseRoutes looseFiles { m with worker := worker } :=
    ⟨h.routes.more hway.lostRoutes hway.freeRoutes,
      h.resolvers.more hway.lostFiles hway.freeFiles, hworker⟩
  have hbegin : Intact destination user looseRoutes looseFiles m := hloose h.saved
  refine Program.safe_bind.mpr (Program.safe_reads.mpr ⟨hbegin, ?_⟩)
  split_ifs with hengine
  · exact ⟨hbegin, fun _ => ⟨h, huntorn⟩, fun _ _ hnone => hclean hnone⟩
  · have hidle : m.worker.tunEngine = false := by simpa using hengine
    have hsnapshot : ((Stepwise.snapshotTunNetworkState env.snapshot).within
        Stepwise.worker).Safe (fun t => t.routes = m.routes ∧ t.resolvers = m.resolvers ∧
          Saved user.settings t.worker ∧ t.worker.tunEngine = false)
        (fun r t => (r.isOk ∨ ∀ err, env.snapshot.write ≠ .broken err) → t.Untorn) m :=
      Program.safe_within.mpr ((snapshot_safe env.snapshot h.saved huntorn).mono
        (fun _ hr => ⟨rfl, rfl, hr.1, hr.2.trans hidle⟩) fun _ _ _ hwhole => hwhole)
    have hkept (t : Machine δ) : t.routes = m.routes ∧ t.resolvers = m.resolvers ∧
        Saved user.settings t.worker ∧ t.worker.tunEngine = false →
        Intact destination user looseRoutes looseFiles t := by
      obtain ⟨worker, routes, resolvers⟩ := t
      rintro ⟨rfl, rfl, hsaved, -⟩
      exact hloose hsaved
    apply (hsnapshot.mono hkept fun _ _ => And.intro).bind
    rintro r ⟨worker, routes, resolvers⟩ - ⟨⟨rfl, rfl, hsaved, hslot⟩, hwhole⟩
    split
    · refine ⟨hloose hsaved, fun hwrites => ⟨?_, hwhole (.inr hwrites.snapshot)⟩, ?_⟩
      · exact ⟨h.routes, h.resolvers, hsaved⟩
      · exact fun _ _ _ => hclean hidle
    · have hstanding : Standing destination user lostRoutes lostFiles false
          { m with worker := worker } :=
        ⟨h.routes, h.resolvers, hsaved, hwhole (.inl rfl), hslot⟩
      exact startEngine_safe hstanding (hclean hidle) hrestore hway

end Machine

section Requests

variable {destination} {user : UserState δ} {lostRoutes : Set δ} {lostFiles : Set Text}
  {m : Machine δ}

/-- At any point of a request only what it claims may be off the record, and it ends in order. -/
theorem request_safe {r : Request} (h : Intact destination user lostRoutes lostFiles m)
    (huntorn : m.Untorn)
    (hidle : r.recovers = false → m.worker.tunEngine = false → Unrecorded m)
    (hbenign : r.Benign destination user) : (r.program destination).Safe
      (Intact destination user (lostRoutes ∪ {d | d ∈ r.routes destination ∧ user.table d = none})
        (lostFiles ∪ {name | name ∈ r.files ∧ user.files name = none}))
      (Ended destination user lostRoutes lostFiles r.Writes) m := by
  have hfreeRoutes : ∀ d ∈ lostRoutes ∪ {d | d ∈ r.routes destination ∧ user.table d = none},
      user.table d = none :=
    fun d hd => hd.elim (fun hd => h.routes.free d (.inr hd)) fun hd => hd.2
  have hfreeFiles : ∀ name ∈ lostFiles ∪ {name | name ∈ r.files ∧ user.files name = none},
      user.files name = none :=
    fun name hname => hname.elim (fun hname => h.resolvers.free name (.inr hname)) fun hd => hd.2
  have hkept : Standing destination user lostRoutes lostFiles m.worker.tunEngine m :=
    ⟨h.routes, h.resolvers, h.saved, huntorn, rfl⟩
  have hloose : Standing destination user
      (lostRoutes ∪ {d | d ∈ r.routes destination ∧ user.table d = none})
      (lostFiles ∪ {name | name ∈ r.files ∧ user.files name = none}) m.worker.tunEngine m :=
    ⟨h.routes.more Set.subset_union_left hfreeRoutes,
      h.resolvers.more Set.subset_union_left hfreeFiles, h.saved, huntorn, rfl⟩
  cases r with
  | start env config =>
    obtain ⟨hclaims, hrestore⟩ := hbenign
    exact start_safe h huntorn (hidle rfl) hrestore {
      routes := hclaims.routes
      names := hclaims.names
      lostRoutes := Set.subset_union_left
      freeRoutes := hfreeRoutes
      claimedRoutes := fun d hd => .inr ⟨hd, hclaims.routes d hd⟩
      lostFiles := Set.subset_union_left
      freeFiles := hfreeFiles
      claimedFiles := fun name hname hnone => .inr ⟨hname, hnone⟩ }
  | stop env => exact giveUp_safe hloose (fun _ => hkept) hbenign (.ok ())
  | recover env =>
    refine Program.safe_bind.mpr (Program.safe_reads.mpr ⟨hloose.intact, ?_⟩)
    split_ifs with hleft
    · apply (((restoreNetwork_safe hloose hbenign).and (restoreNetwork_safe hkept hbenign)).mono
        (fun _ ht => ht.1.intact) fun _ _ => And.intro).bind
      rintro _ t ht ⟨⟨-, hstanding⟩, hunrecorded, -⟩
      exact ⟨ht, fun _ => ⟨hstanding.intact, hstanding.resting.untorn⟩, fun _ _ _ => hunrecorded⟩
    · refine ⟨hloose.intact, fun _ => ⟨h, huntorn⟩, fun _ _ _ => ?_⟩
      simp only [Request.leftovers, Bool.or_eq_true, not_or, Bool.not_eq_true,
        Option.isSome_eq_false_iff, Option.isNone_iff_eq_none] at hleft
      exact ⟨hleft.1.1, hleft.1.2⟩

end Requests

namespace Session

variable {destination} {s t : Session δ}

/-- The invariant of the runs. -/
structure Invariant (destination : List Text → Option δ) (s : Session δ) : Prop where
  kept : Intact destination s.user s.lostRoutes s.lostFiles s.machine
  untorn : s.machine.Untorn
  idle : s.alive → s.machine.worker.tunEngine = false → Unrecorded s.machine

omit [DecidableEq δ] in
/-- The process dies at work: what it has claimed and not put on record is lost. -/
theorem Invariant.dies {r : Request} {m : Machine δ} (h : Intact destination s.user
      (s.lostRoutes ∪ {d | d ∈ r.routes destination ∧ s.user.table d = none})
      (s.lostFiles ∪ {name | name ∈ r.files ∧ s.user.files name = none}) m)
    (huntorn : m.Untorn) : Invariant destination (s.dies destination r m) := by
  have hlost := h.lose
  exact ⟨⟨hlost.routes.settle, hlost.resolvers.settle, hlost.saved⟩, huntorn,
    fun hnever => absurd hnever Bool.false_ne_true⟩

theorem Invariant.safe {r : Request} (h : Invariant destination s) (hbegin : s.alive ≠ r.recovers)
    (hbenign : r.Benign destination s.user) : (r.program destination).Safe
      (Intact destination s.user
        (s.lostRoutes ∪ {d | d ∈ r.routes destination ∧ s.user.table d = none})
        (s.lostFiles ∪ {name | name ∈ r.files ∧ s.user.files name = none}))
      (Ended destination s.user s.lostRoutes s.lostFiles r.Writes) s.machine := by
  apply request_safe h.kept h.untorn _ hbenign
  intro hrecovers
  apply h.idle
  rw [hrecovers] at hbegin
  simpa using hbegin

theorem Invariant.step {a : SessionAction δ} (h : Invariant destination s)
    (hbenign : s.Benign destination a) (hstep : s.step destination a = some t) :
    Invariant destination t := by
  cases a with
  | changeRoute d target =>
    obtain rfl := Option.some.inj hstep
    exact ⟨⟨h.kept.routes.update hbenign target, h.kept.resolvers, h.kept.saved⟩, h.untorn, h.idle⟩
  | changeFile name bytes =>
    obtain rfl := Option.some.inj hstep
    exact ⟨⟨h.kept.routes, h.kept.resolvers.update hbenign bytes, h.kept.saved⟩, h.untorn, h.idle⟩
  | changeSettings service settings =>
    obtain rfl := Option.some.inj hstep
    refine ⟨⟨h.kept.routes, h.kept.resolvers, ?_, ?_⟩, h.untorn, h.idle⟩
    · exact congrArg (fun f => Function.update f service settings) h.kept.saved.same
    · intro services hfile
      have hnone : s.machine.worker.snapshot = none := hbenign
      rw [hnone] at hfile
      cases hfile
  | request r =>
    obtain ⟨hbegin, hstep⟩ := when_eq_some.mp hstep
    have hsafe := h.safe hbegin hbenign.1
    have hinv := hsafe.inv_run
    obtain ⟨hkept, hidle⟩ := hsafe.run
    obtain ⟨hkept, huntorn⟩ := hkept hbenign.2
    generalize (r.program destination).run s.machine = q at hinv hkept huntorn hidle hstep
    obtain ⟨outcome, m⟩ := q
    cases outcome with
    | returns result =>
      rw [← hstep]
      exact ⟨hkept, huntorn, fun _ => hidle result rfl⟩
    | died =>
      rw [← hstep]
      exact Invariant.dies hinv huntorn
  | interrupt r k =>
    obtain ⟨hbegin, rfl⟩ := when_eq_some.mp hstep
    exact Invariant.dies ((h.safe hbegin hbenign.1).cut k) hbenign.2
  | die =>
    obtain rfl := Option.some.inj hstep
    exact ⟨h.kept.lose, h.untorn, fun hnever => absurd hnever Bool.false_ne_true⟩

omit [DecidableEq δ] in
theorem invariant_initial (h : Initial s) : Invariant destination s := by
  obtain ⟨hroutes, hfiles⟩ := h.lost
  refine ⟨⟨?_, ?_, h.settings, ?_⟩, ?_, fun _ _ => ⟨h.routeRecord, h.resolverRecord⟩⟩
  · rw [routesKept_of_none h.routeRecord]
    exact borrowed_nil (by rw [hroutes]; exact fun d hd => hd.elim) h.table
  · rw [resolversKept_of_nil (recorded_nil h.resolverRecord)]
    exact borrowed_nil (by rw [hfiles]; exact fun name hname => hname.elim) h.files
  · intro services hfile
    rw [h.snapshot] at hfile
    cases hfile
  · unfold Machine.Untorn
    rw [h.snapshot]
    exact (Option.some_ne_none _).symm

/-- Sessions that begin and end, fail at any step, or are cut short by the death of the process
and recovered by the next one, leave the machine as the user has it, but for what a start had not
put on record when its process died. -/
theorem undisturbed_of_benign (s : Session δ)
    (hs : (system destination).ReachUnder (Benign destination) s) : Undisturbed destination s := by
  have h : Invariant destination s :=
    System.ReachUnder.invariant hs (fun _ => invariant_initial)
      fun _ _ _ _ ih hbenign hstep => ih.step hbenign hstep
  refine ⟨h.kept.saved.same, h.kept.routes, h.kept.resolvers, h.idle, fun halive hengine => ?_⟩
  obtain ⟨hroutes, hresolvers⟩ := h.idle halive hengine
  constructor
  · intro d hlost
    apply h.kept.routes.same d _ hlost
    rw [hroutes]
    exact List.not_mem_nil
  · intro name hlost
    apply h.kept.resolvers.same name _ hlost
    rw [recorded_nil hresolvers]
    exact List.not_mem_nil

/-- A destination is the last argument. -/
private def lastArgument (args : List Text) : Option Text := args.getLast?

private def campusRestore : RestoreEnv where
  read := .ok ()
  parseError := .parseFailed []
  services := .ok ["Wi-Fi".toList]
  setDns _ := .ok ()
  setSearch _ := .ok ()
  remove := .ok ()
  resetServices := .ok []
  resetDns _ := true
  resetSearch _ := true

private def campusConfig : HelperConfig where
  setupRoutes := true
  managedRouteCidrs := ["10.0.0.0/8".toList]
  dnsAddr := "10.0.0.53".toList
  resourceBytes := []
  serviceHost := []
  tunName := none
  managedDomains := ["campus.example".toList]
  mtu := 1400
  exitOnFatalError := true
  fakeIp := false

private def campusEnv : SessionEnv where
  snapshot :=
    { services := .ok ["Wi-Fi".toList]
      query := fun _ => .ok ()
      createDir := .ok ()
      write := .written }
  decode _ := .ok []
  engineStart _ := .ok (some "utun7".toList, none)
  discoverTunName := .ok "utun7".toList
  resolver := { createDir := .ok (), write := fun _ => .written, recordWrite := .written }
  routes :=
    { tunName := []
      fakeDns := false
      resolvers := .ok ()
      dnsGateway := .ok "192.168.1.1".toList
      endpoints := .ok []
      lookup := fun _ => []
      gateway := .ok "192.168.1.1".toList
      tunFailure := fun _ => none
      nodeFailure := fun _ => none
      write := .ok () }
  waitSetup _ := .ok ()
  writeFailed := .ok ()
  writeRunning := .ok ()
  restore := campusRestore

/-- The routes of the user: the default route. -/
private def campusTable (d : Text) : Option (List Text) :=
  if d = "default".toList then some ["192.168.1.1".toList] else none

private def campusUser : UserState Text where
  table := campusTable
  files _ := none
  settings _ := { dnsServers := ["9.9.9.9".toList], searchDomains := [] }

private def campusBegin : Session Text where
  alive := true
  machine :=
    { worker :=
        { settings := campusUser.settings
          snapshot := none
          tunEngine := false
          running := false }
      routes := { table := campusTable, record := none, deleted := [] }
      resolvers := { files := fun _ => none, record := none, written := [] } }
  user := campusUser
  lostRoutes := ∅
  lostFiles := ∅

private theorem campusRestore_succeeds : campusRestore.Succeeds where
  read := rfl
  services := ⟨_, rfl⟩
  setDns _ := rfl
  setSearch _ := rfl
  remove := rfl

private theorem campus_claimsFree : ClaimsFree lastArgument campusUser campusEnv campusConfig where
  routes d hd := by
    obtain ⟨cidr, hcidr, hd⟩ := hd
    rcases hcidr with hmanaged | rfl | rfl | ⟨nodeRoutes, hnodes, hnode⟩
    · obtain rfl := List.mem_singleton.mp hmanaged
      obtain rfl := Option.some.inj hd
      decide
    · obtain rfl := Option.some.inj hd
      decide
    · obtain rfl := Option.some.inj hd
      decide
    · obtain rfl := Except.ok.inj hnodes
      cases hnode
  names _ _ := .inl rfl

private theorem campus_writes : Writes campusEnv campusConfig where
  snapshot err h := by cases h
  files _ _ := rfl
  resolverRecord := rfl
  routeRecord := rfl

/-- The first process dies behind its first route, the next one recovers, and a session runs. -/
theorem undisturbed_campus : ∃ s : Session Text, s.machine.worker.tunEngine = true ∧
    s.machine.routes.record = some ["10.0.0.0/8".toList, "10.0.0.53/32".toList] ∧
    s.machine.resolvers.record = some (.whole ["campus.example".toList]) ∧
    "10.0.0.0/8".toList ∈ s.lostRoutes ∧ Undisturbed lastArgument s := by
  have h₀ : (system lastArgument).ReachUnder (Benign lastArgument) campusBegin :=
    .init ⟨rfl, rfl, rfl, rfl, rfl, rfl, rfl, rfl⟩
  have hclaims (s : Session Text) (huser : s.user = campusUser) :
      (Request.start campusEnv campusConfig).Benign lastArgument s.user := by
    rw [huser]
    exact ⟨campus_claimsFree, campusRestore_succeeds⟩
  have huntorn : (((Request.start campusEnv campusConfig).program lastArgument).cut 61
      campusBegin.machine).Untorn := fun h => by cases h
  have hcut : campusBegin.Benign lastArgument
      (.interrupt (.start campusEnv campusConfig) 61) := ⟨hclaims _ rfl, huntorn⟩
  have hrecover (s : Session Text) :
      s.Benign lastArgument (.request (.recover campusRestore)) := ⟨campusRestore_succeeds, trivial⟩
  have hstart (s : Session Text) (huser : s.user = campusUser) :
      s.Benign lastArgument (.request (.start campusEnv campusConfig)) :=
    ⟨hclaims s huser, campus_writes⟩
  have h₁ := h₀.step hcut rfl
  have h₂ := h₁.step (hrecover _) rfl
  have h₃ := h₂.step (hstart _ rfl) rfl
  refine ⟨_, rfl, rfl, rfl, ?_, undisturbed_of_benign _ h₃⟩
  refine Or.inr ⟨⟨"10.0.0.0/8".toList, .inl List.mem_cons_self, rfl⟩, rfl, ?_, List.not_mem_nil⟩
  decide

end Session

end NulConnect.Macos
