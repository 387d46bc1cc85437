import NulConnect.Windows.Nrpt
import NulConnect.Windows.Recovery

/-! The rule for name resolution over whole runs of the service: `apply_nrpt` and `clear_nrpt` one
call of the registry at a time, between the steps of the runtime, and processes that die, each
followed by one that begins with `cleanup_leftovers`. -/
namespace NulConnect.Windows
open Net Transition

/-- The tables in which the rule may be. -/
inductive NrptBase where
  | localTable
  | policy
deriving DecidableEq

namespace NrptRules

def rule (rules : NrptRules) : NrptBase → Option (List RegValue)
  | .localTable => rules.localRule
  | .policy => rules.policyRule

/-- The table that `apply_nrpt` writes to. -/
def target (rules : NrptRules) : NrptBase := if rules.policyActive then .policy else .localTable

/-- A key under the policies comes with the one of the policies. -/
def setRule (rules : NrptRules) (values : List RegValue) : NrptBase → NrptRules
  | .localTable => { rules with localRule := some values }
  | .policy => { rules with policyRule := some values, policyActive := true }

/-- `RegDeleteTreeW`. -/
def deleteRule (rules : NrptRules) : NrptBase → NrptRules
  | .localTable => { rules with localRule := none }
  | .policy => { rules with policyRule := none }

/-- Group Policy sets the policies up, or takes them away with all that is under them. -/
def setPolicies (rules : NrptRules) (active : Bool) : NrptRules :=
  { rules with
    policyActive := active
    policyRule := if active then rules.policyRule else none }

@[simp] theorem rule_setRule (rules : NrptRules) (values : List RegValue) (base b : NrptBase) :
    (rules.setRule values base).rule b = if b = base then some values else rules.rule b := by
  cases base <;> cases b <;> rfl

@[simp] theorem rule_deleteRule (rules : NrptRules) (base b : NrptBase) :
    (rules.deleteRule base).rule b = if b = base then none else rules.rule b := by
  cases base <;> cases b <;> rfl

theorem rule_setPolicies {rules : NrptRules} {active : Bool}
    (h : active = true ∨ rules.policyRule = none) (b : NrptBase) :
    (rules.setPolicies active).rule b = rules.rule b := by
  cases b with
  | localTable => rfl
  | policy =>
    change (if active then rules.policyRule else none) = rules.policyRule
    cases h with
    | inl hactive => rw [if_pos hactive]
    | inr hnone => rw [hnone, ite_self]

end NrptRules

/-- `RegSetValueExW`. -/
def setRegValue (values : List RegValue) (value : RegValue) : List RegValue :=
  values.filter (·.name ≠ value.name) ++ [value]

/-- Both tables, in the order in which `clear_nrpt` goes through them. -/
def nrptBases : List NrptBase := [.localTable, .policy]

/-- What `undo_network_state` has to clear. -/
def undoBases (network : PersistedNetworkState) : List NrptBase :=
  if network.nrpt then nrptBases else []

/-- `cleanup_persisted_network_state` clears the rule with or without a record. -/
def recordBases (persisted : Option PersistedNetworkState) : List NrptBase :=
  (persisted.map undoBases).getD [] ++ nrptBases

/-- The calls of the registry that are under way. -/
inductive NrptCall where
  | idle
  /-- `cleanup_leftovers` of a process that does not serve yet, at the routes on record -/
  | undo (rest : List RouteSpec) (bases : List NrptBase)
  /-- `clear_nrpt`, behind the deletion of the routes -/
  | clear (bases : List NrptBase)
  /-- `apply_nrpt`, in its `clear_nrpt` -/
  | apply (names : List Text) (dnsServer : Ipv4Addr) (bases : List NrptBase)
  | create (names : List Text) (dnsServer : Ipv4Addr) (base : NrptBase)
  | set (base : NrptBase) (count : ℕ) (rest : List RegValue)
  | applied (result : Except Text ℕ)

def NrptCall.isIdle : NrptCall → Bool
  | .idle => true
  | _ => false

def NrptCall.isCleared : NrptCall → Bool
  | .clear [] => true
  | _ => false

def NrptCall.gives (ok : Bool) : NrptCall → Bool
  | .applied result => result.isOk = ok
  | _ => false

/-- The routes and the runtime with the rule in the registry; `request` are the domains and the
server of the plan that was installed last. A process is up once it serves. -/
structure NrptState (ι κ : Type*) where
  up : Bool
  routes : RouteState ι κ
  rules : NrptRules
  request : List Text × Ipv4Addr
  call : NrptCall

inductive NrptAction (ι κ : Type*) where
  | route (a : RouteAction ι κ)
  | beginApply
  | deleteRule (ok : Bool)
  | readPolicy
  | createKey (failure : Option Text)
  | setValue (failure : Option Text)
  | closeKey
  | policyChanges (active : Bool)
  | die
  /-- The next process reads the record. -/
  | boot
  | bootDelete
  /-- It has forgotten the record and serves. -/
  | serve

variable {ι κ : Type*}

/-- The routes under way are deleted. -/
def undone (s : RouteState ι κ) : Bool :=
  match s.work with
  | some (_, .undo []) => true
  | _ => false

/-- Where the steps of the routes wait for the registry. -/
def registryDone (s : NrptState ι κ) : RouteAction ι κ → Bool
  | .runtime (.cleanPersisted _) | .runtime (.monitorUndo _) | .runtime (.stopUndo _)
  | .runtime (.leftoverClean _) | .returns => s.call.isCleared
  | .applyNrpt ok =>
    match s.routes.work with
    | some (_, .install _ _ true _) => s.call.gives ok
    | _ => s.call.isIdle
  | _ => true

/-- What a step of the runtime leaves to the registry. -/
def callAfterRuntime [DecidableEq ι] (s : NrptState ι κ) : Action ι κ → NrptCall
  | .cleanPersisted _ | .monitorUndo _ | .stopUndo _ | .leftoverClean _ => .idle
  | .installPlan _ network ok => if ok then s.call else .clear (undoBases network)
  | .recheckGeneration t =>
    if s.routes.runtime.generation = s.routes.runtime.token t then s.call
    else .clear (undoBases (s.routes.runtime.plan t))
  | .monitorClear _ | .stopTake _ => .clear (undoBases s.routes.runtime.network)
  | _ => s.call

def callAfter [DecidableEq ι] (s : NrptState ι κ) : RouteAction ι κ → NrptCall
  | .runtime a => callAfterRuntime s a
  | .readRecord _ => .clear (recordBases s.routes.runtime.persisted)
  | .applyNrpt _ | .returns => .idle
  | _ => s.call

def requestAfter (s : NrptState ι κ) : RouteAction ι κ → List Text × Ipv4Addr
  | .beginInstall _ plan _ => (plan.managedDomains, plan.dnsServer.getD 0)
  | _ => s.request

/-- A new process: of the old one there are the table and the record. -/
def freshRoutes (persisted : Option PersistedNetworkState) (table : Finset RouteSpec) :
    RouteState ι κ where
  runtime := { initial with persisted := persisted }
  work := none
  table := table
  mine := ∅
  deleted := ∅
  readded := ∅

variable [DecidableEq ι] [DecidableEq κ]

def nrptStep (s : NrptState ι κ) : NrptAction ι κ → Option (NrptState ι κ)
  | .route a =>
    if s.up ∧ registryDone s a then (routeStep s.routes a).map fun routes => { s with
      routes := routes
      request := requestAfter s a
      call := callAfter s a }
    else none
  | .beginApply =>
    match s.routes.work with
    | some (_, .install [] [] true _) => when s.call.isIdle
        { s with call := .apply (nrptNamespaces s.request.1) s.request.2 nrptBases }
    | _ => none
  | .deleteRule ok =>
    match s.call with
    | .clear (base :: bases) => when (s.up → undone s.routes) { s with
        rules := if ok then s.rules.deleteRule base else s.rules
        call := .clear bases }
    | .apply names dnsServer (base :: bases) => some { s with
        rules := if ok then s.rules.deleteRule base else s.rules
        call := .apply names dnsServer bases }
    | _ => none
  | .readPolicy =>
    match s.call with
    | .apply names dnsServer [] => some { s with
        call := if names = [] then .applied (.ok 0) else .create names dnsServer s.rules.target }
    | _ => none
  | .createKey failure =>
    match s.call with
    | .create names dnsServer base =>
      match failure with
      | some err => some { s with call := .applied (.error err) }
      -- a key that is there is opened
      | none => some { s with
          rules := s.rules.setRule ((s.rules.rule base).getD []) base
          call := .set base names.length (nrptValues names dnsServer) }
    | _ => none
  | .setValue failure =>
    match s.call with
    | .set base count (value :: rest) =>
      match failure, s.rules.rule base with
      | some err, _ => some { s with call := .applied (.error err) }
      | none, some values => some { s with
          rules := s.rules.setRule (setRegValue values value) base
          call := .set base count rest }
      -- the key is gone
      | none, none => none
    | _ => none
  | .closeKey =>
    match s.call with
    | .set _ count [] => some { s with call := .applied (.ok count) }
    | _ => none
  | .policyChanges active => some { s with rules := s.rules.setPolicies active }
  | .die => some { s with
      up := false
      routes := freshRoutes s.routes.runtime.persisted s.routes.table
      call := .idle }
  | .boot => when (s.up = false ∧ s.call.isIdle)
      { s with
        call := .undo (recorded s.routes).reverse (recordBases s.routes.runtime.persisted) }
  | .bootDelete =>
    match s.call with
    | .undo (route :: rest) bases => some { s with
        routes := { s.routes with table := s.routes.table.erase route }
        call := .undo rest bases }
    | .undo [] bases => some { s with call := .clear bases }
    | _ => none
  | .serve => when (s.up = false ∧ s.call.isCleared) { s with
      up := true
      routes := freshRoutes none s.routes.table
      call := .idle }

/-- The service from the start of its first process on, whatever an earlier one has left. -/
def nrptSystem (ι κ : Type*) [DecidableEq ι] [DecidableEq κ] :
    System (NrptState ι κ) (NrptAction ι κ) where
  init s := s.up = false ∧ s.call = .idle ∧
    ∃ persisted table, s.routes = freshRoutes persisted table
  step := nrptStep

/-- A key that is there can be deleted, and no policies go away with the rule under them. -/
def RegistryHolds (s : NrptState ι κ) : NrptAction ι κ → Prop
  | .deleteRule ok => ok = true
  | .policyChanges active => active = true ∨ s.rules.policyRule = none
  | _ => True

instance (s : NrptState ι κ) (a : NrptAction ι κ) : Decidable (RegistryHolds s a) := by
  rcases a with ⟨⟩
  all_goals
    unfold RegistryHolds
    infer_instance

def NoRule (s : NrptState ι κ) : Prop := ∀ b, s.rules.rule b = none

/-- The rule of the request is in one table, with all its values. -/
def Whole (s : NrptState ι κ) : Prop :=
  if nrptNamespaces s.request.1 = [] then NoRule s
  else ∃ base, ∀ b, s.rules.rule b =
    if b = base then some (nrptValues (nrptNamespaces s.request.1) s.request.2) else none

/-- The rule of a service that serves: while nobody is inside a section of `operation` or still
undoes routes, it is there only for the network in the state, which a stop or the monitor undoes;
and what a start is about to publish is whole. -/
structure RuleOwned (s : NrptState ι κ) : Prop where
  gone : s.up → s.routes.work = none → s.routes.runtime.operation = none →
    s.routes.runtime.network.nrpt = false → NoRule s
  prepared : s.up → ∀ t, (s.routes.runtime.start t).unrecorded → s.routes.work = none → NoRule s
  whole : s.up → ∀ t, (s.routes.runtime.start t).pending → (s.routes.runtime.plan t).nrpt → Whole s
  useless : s.up → ∀ t, (s.routes.runtime.start t).pending →
    (s.routes.runtime.plan t).nrpt = false → NoRule s

/-- What the registry holds at the calls of an installation. -/
def Applying (s : NrptState ι κ) : Prop :=
  match s.call with
  | .idle => NoRule s
  | .apply names dnsServer _ =>
    NoRule s ∧ names = nrptNamespaces s.request.1 ∧ dnsServer = s.request.2
  | .create names dnsServer _ =>
    NoRule s ∧ names = nrptNamespaces s.request.1 ∧ dnsServer = s.request.2 ∧ names ≠ []
  | .set base _ rest => nrptNamespaces s.request.1 ≠ [] ∧ ∃ front,
      front ++ rest = nrptValues (nrptNamespaces s.request.1) s.request.2 ∧
        ∀ b, s.rules.rule b = if b = base then some front else none
  | .applied (.ok _) => Whole s
  | .applied (.error _) => True
  | .undo .. | .clear _ => False

structure Installing (s : NrptState ι κ) (bypass tunnel : List RouteSpec) (nrpt : Bool)
    (network : PersistedNetworkState) : Prop where
  applying : Applying s
  begun : s.call ≠ .idle → bypass = [] ∧ tunnel = [] ∧ nrpt = true
  unset : network.nrpt = false

/-- Nobody works on routes: the rule is that of the network which only a worker knows or which is
in the state. -/
structure Settled (s : NrptState ι κ) : Prop where
  idle : s.call = .idle
  unrecorded : ∀ t, (s.routes.runtime.start t).unrecorded → NoRule s
  planned : ∀ t, (s.routes.runtime.start t).pending →
    NoRule s ∨ (s.routes.runtime.plan t).nrpt = true
  whole : ∀ t, (s.routes.runtime.start t).pending → (s.routes.runtime.plan t).nrpt → Whole s
  network : (∀ t, ¬ (s.routes.runtime.start t).pending) →
    NoRule s ∨ s.routes.runtime.network.nrpt = true

/-- Where the rule is accounted for: in the list of the calls that clear it, in the call that
writes it, or in a network. -/
def RuleAccounted (s : NrptState ι κ) : Prop :=
  match s.routes.work with
  | some (_, .undo _) => ∃ bases, s.call = .clear bases ∧ ∀ b, s.rules.rule b ≠ none → b ∈ bases
  | some (_, .install bypass tunnel nrpt network) => Installing s bypass tunnel nrpt network
  | some (_, .installed network ok) =>
    s.call = .idle ∧ (NoRule s ∨ network.nrpt = true) ∧ (ok → network.nrpt → Whole s)
  | none => Settled s

/-- What a process that does not serve yet will clear. -/
def Booting (s : NrptState ι κ) : Prop :=
  match s.call with
  | .undo _ bases => ∀ b, b ∈ bases
  | .clear bases => ∀ b, s.rules.rule b ≠ none → b ∈ bases
  | _ => True

structure RuleAccount (s : NrptState ι κ) : Prop where
  routes : Consistent s.routes
  fresh : s.up = false → ∃ persisted table, s.routes = freshRoutes persisted table
  booting : s.up = false → Booting s
  accounted : s.up → RuleAccounted s

section Rules

variable {s : NrptState ι κ} {network : PersistedNetworkState}

theorem mem_nrptBases (b : NrptBase) : b ∈ nrptBases := by
  cases b <;> decide

omit [DecidableEq ι] [DecidableEq κ] in
theorem mem_undoBases (h : NoRule s ∨ network.nrpt = true) (b : NrptBase)
    (hb : s.rules.rule b ≠ none) : b ∈ undoBases network := by
  cases h with
  | inl hnone => exact absurd (hnone b) hb
  | inr hnrpt =>
    rw [undoBases, if_pos hnrpt]
    exact mem_nrptBases b

theorem mem_recordBases (persisted : Option PersistedNetworkState) (b : NrptBase) :
    b ∈ recordBases persisted := List.mem_append_right _ (mem_nrptBases b)

/-- A rule that is deleted is off the list. -/
theorem mem_of_deleteRule {rules : NrptRules} {base : NrptBase} {bases : List NrptBase}
    (h : ∀ b, rules.rule b ≠ none → b ∈ base :: bases) (b : NrptBase)
    (hb : (rules.deleteRule base).rule b ≠ none) : b ∈ bases := by
  rw [NrptRules.rule_deleteRule] at hb
  by_cases hbase : b = base
  · rw [if_pos hbase] at hb
    exact absurd rfl hb
  · rw [if_neg hbase] at hb
    exact (List.mem_cons.mp (h b hb)).resolve_left hbase

/-- A value with a new name comes behind the others. -/
theorem setRegValue_new {values : List RegValue} {value : RegValue}
    (h : ∀ v ∈ values, v.name ≠ value.name) : setRegValue values value = values ++ [value] := by
  rw [setRegValue, List.filter_eq_self.mpr]
  simpa using h

theorem nrptValues_names (names : List Text) (dnsServer : Ipv4Addr) :
    ((nrptValues names dnsServer).map (·.name)).Nodup := by
  have hnames : (nrptValues names dnsServer).map (·.name) =
      ["Version".toList, "Name".toList, "GenericDNSServers".toList, "ConfigOptions".toList,
        "IPSECCARestriction".toList] := rfl
  rw [hnames]
  decide

theorem front_names {front rest : List RegValue} {value : RegValue} {names : List Text}
    {dnsServer : Ipv4Addr} (h : front ++ value :: rest = nrptValues names dnsServer) :
    ∀ v ∈ front, v.name ≠ value.name := by
  have hnodup := nrptValues_names names dnsServer
  rw [← h, List.map_append, List.nodup_append] at hnodup
  intro v hv
  exact hnodup.2.2 _ (List.mem_map_of_mem hv) _ List.mem_cons_self

end Rules

section Steps

variable {s u : NrptState ι κ} {r : State ι κ} {p : Thread ι κ} {t : ι}

omit [DecidableEq ι] [DecidableEq κ] in
/-- A worker with a network to publish is inside its section, and nobody works on routes. -/
theorem Consistent.of_pending {s : RouteState ι κ} (hs : Consistent s) {t : ι}
    (ht : (s.runtime.start t).pending) : Inside s.runtime (.worker t) ∧ s.work = none := by
  have hin : Inside s.runtime (.worker t) := by
    cases hst : s.runtime.start t
    all_goals simp_all [Inside]
  refine ⟨hin, hs.work_eq_none hin fun w hphase => ?_⟩
  cases w
  all_goals cases hst : s.runtime.start t
  all_goals simp_all [WorkPhase, GivenUp]

omit [DecidableEq ι] [DecidableEq κ] in
theorem Consistent.not_pending_of_undo {s : RouteState ι κ} (hs : Consistent s)
    {rest : List RouteSpec} (hw : s.work = some (p, .undo rest)) (t : ι) :
    ¬ (s.runtime.start t).pending := by
  intro ht
  have hnone := (hs.of_pending ht).2
  rw [hw] at hnone
  cases hnone

omit [DecidableEq ι] [DecidableEq κ] in
/-- Without a rule and a network that waits to be published there is nothing to account for. -/
theorem settled_of_noRule (hcall : s.call = .idle) (hnone : NoRule s)
    (hpending : ∀ t, ¬ (s.routes.runtime.start t).pending) : Settled s where
  idle := hcall
  unrecorded _ _ := hnone
  planned t ht := absurd ht (hpending t)
  whole t ht := absurd ht (hpending t)
  network _ := .inl hnone

theorem Settled.quiet_step (hs : Settled s) {a : Action ι κ} (hq : a.quiet)
    (h : step s.routes.runtime a = some r) :
    Settled { s with routes := { s.routes with runtime := r } } := by
  obtain ⟨-, hnet, hplan⟩ := kept_of_quiet hq h
  have hstart := start_of_quiet hq h
  have hpend : ∀ t, (r.start t).pending ↔ (s.routes.runtime.start t).pending := by
    intro t
    obtain heq | ⟨-, hedge, -⟩ := hstart t
    · rw [heq]
    · exact hedge
  constructor
  · exact hs.idle
  · intro t ht
    apply hs.unrecorded t
    obtain heq | ⟨hedge, -⟩ := hstart t
    · exact heq ▸ ht
    · exact hedge ht
  · intro t ht
    have hplanned := hs.planned t ((hpend t).mp ht)
    rw [← hplan] at hplanned
    exact hplanned
  · intro t ht hnrpt
    dsimp only at hnrpt
    rw [hplan] at hnrpt
    exact hs.whole t ((hpend t).mp ht) hnrpt
  · intro hnone
    have hnetwork := hs.network fun t ht => hnone t ((hpend t).mpr ht)
    rw [← hnet] at hnetwork
    exact hnetwork

/-- The networks that only a worker knows after a step of it on its own start. -/
theorem Settled.publish_step (hs : Settled s) (hc : Consistent s.routes)
    (h : step s.routes.runtime (.publish t) = some r) :
    Settled { s with routes := { s.routes with runtime := r } } := by
  obtain ⟨hp, rfl⟩ := when_eq_some.mp h
  have hin : Inside s.routes.runtime (.worker t) := by simp [Inside, hp]
  have hother : ∀ m, m ≠ t → ¬ (s.routes.runtime.start m).pending :=
    fun m hm => (hc.not_prepares hin fun he => hm (by cases he; rfl)).2
  have hnone : ∀ m, ¬ (Function.update s.routes.runtime.start t .published m).pending := by
    intro m hm
    by_cases hmt : m = t
    · subst hmt
      simp at hm
    · exact hother m hmt (by simpa [hmt] using hm)
  have hplanned := hs.planned t (by simp [hp])
  constructor
  · exact hs.idle
  · intro m hm
    by_cases hmt : m = t
    · subst hmt
      simp at hm
    · exact hs.unrecorded m (by simpa [hmt] using hm)
  · exact fun m hm => absurd hm (hnone m)
  · exact fun m hm => absurd hm (hnone m)
  · exact fun _ => hplanned

/-- The worker goes on with its network, or undoes it where a stop came in between. -/
theorem Settled.recheck_step (hs : Settled s) (hc : Consistent s.routes)
    (hw : s.routes.work = none) (h : step s.routes.runtime (.recheckGeneration t) = some r) :
    RuleAccounted { s with
      routes := { s.routes with
        runtime := r
        work := workAfter s.routes (.recheckGeneration t) }
      call := callAfterRuntime s (.recheckGeneration t) } := by
  obtain ⟨hp, rfl⟩ := when_eq_some.mp h
  have hin : Inside s.routes.runtime (.worker t) := by simp [Inside, hp]
  have hother : ∀ m, m ≠ t → ¬ (s.routes.runtime.start m).unrecorded ∧
      ¬ (s.routes.runtime.start m).pending :=
    fun m hm => hc.not_prepares hin fun he => hm (by cases he; rfl)
  have hpending : (s.routes.runtime.start t).pending := by simp [hp]
  unfold RuleAccounted workAfter callAfterRuntime
  dsimp only
  by_cases hg : s.routes.runtime.generation = s.routes.runtime.token t
  · simp only [if_pos hg, hw]
    constructor
    · exact hs.idle
    · intro m hm
      by_cases hmt : m = t
      · subst hmt
        simp at hm
      · exact hs.unrecorded m (by simpa [hmt] using hm)
    · intro m hm
      by_cases hmt : m = t
      · subst hmt
        exact hs.planned m hpending
      · exact absurd (by simpa [hmt] using hm) (hother m hmt).2
    · intro m hm hnrpt
      by_cases hmt : m = t
      · subst hmt
        exact hs.whole m hpending hnrpt
      · exact absurd (by simpa [hmt] using hm) (hother m hmt).2
    · intro hnone
      exact absurd (by simp) (hnone t)
  · simp only [if_neg hg]
    exact ⟨_, rfl, mem_undoBases (hs.planned t hpending)⟩

/-- The end of an installation: the record is saved, and an error is undone. -/
theorem install_step (hc : Consistent s.routes) {network : PersistedNetworkState} {ok : Bool}
    (hcall : s.call = .idle) (hnrpt : NoRule s ∨ network.nrpt = true)
    (hwhole : ok → network.nrpt → Whole s)
    (h : step s.routes.runtime (.installPlan t network ok) = some r) :
    RuleAccounted { s with
      routes := { s.routes with
        runtime := r
        work := workAfter s.routes (.installPlan t network ok) }
      call := callAfterRuntime s (.installPlan t network ok) } := by
  obtain ⟨hp, rfl⟩ := when_eq_some.mp h
  have hin : Inside s.routes.runtime (.worker t) := by simp [Inside, hp]
  have hother : ∀ m, m ≠ t → ¬ (s.routes.runtime.start m).unrecorded ∧
      ¬ (s.routes.runtime.start m).pending :=
    fun m hm => hc.not_prepares hin fun he => hm (by cases he; rfl)
  unfold RuleAccounted workAfter callAfterRuntime
  cases ok with
  | true =>
    constructor
    · exact hcall
    · intro m hm
      by_cases hmt : m = t
      · subst hmt
        simp at hm
      · exact absurd (by simpa [hmt] using hm) (hother m hmt).1
    · intro m hm
      by_cases hmt : m = t
      · subst hmt
        exact hnrpt.imp id fun hplan => by simpa using hplan
      · exact absurd (by simpa [hmt] using hm) (hother m hmt).2
    · intro m hm hplan
      by_cases hmt : m = t
      · subst hmt
        exact hwhole rfl (by simpa using hplan)
      · exact absurd (by simpa [hmt] using hm) (hother m hmt).2
    · intro hnone
      exact absurd (by simp) (hnone t)
  | false => exact ⟨_, rfl, mem_undoBases hnrpt⟩

omit [DecidableEq ι] [DecidableEq κ] in
theorem RuleAccounted.noRule_of_cleared (hs : RuleAccounted s) {rest : List RouteSpec}
    (hw : s.routes.work = some (p, .undo rest)) (hdone : s.call.isCleared) : NoRule s := by
  unfold RuleAccounted at hs
  rw [hw] at hs
  obtain ⟨bases, hcall, hbases⟩ := hs
  rw [hcall] at hdone
  cases bases with
  | nil =>
    intro b
    by_contra hb
    exact List.not_mem_nil (hbases b hb)
  | cons base bases => cases hdone

omit [DecidableEq ι] [DecidableEq κ] in
theorem RuleAccounted.settled (hs : RuleAccounted s) (hw : s.routes.work = none) : Settled s := by
  unfold RuleAccounted at hs
  rw [hw] at hs
  exact hs

omit [DecidableEq ι] [DecidableEq κ] in
/-- Steps that leave the work to its owner. -/
theorem RuleAccounted.same_work (hs : RuleAccounted s) {routes : RouteState ι κ}
    (hwork : routes.work = s.routes.work)
    (hsettled : Settled s → Settled { s with routes := routes }) :
    RuleAccounted { s with routes := routes } := by
  unfold RuleAccounted at hs ⊢
  dsimp only
  rw [hwork]
  cases hw : s.routes.work with
  | none =>
    simp only [hw] at hs ⊢
    exact hsettled hs
  | some work =>
    obtain ⟨p, w⟩ := work
    cases w with
    | undo rest =>
      simp only [hw] at hs ⊢
      exact hs
    | install bypass tunnel nrpt network =>
      simp only [hw] at hs ⊢
      exact ⟨hs.applying, hs.begun, hs.unset⟩
    | installed network ok =>
      simp only [hw] at hs ⊢
      exact hs

/-- The steps of the runtime keep the rule accounted for. -/
theorem RuleAccounted.runtime_step (hs : RuleAccounted s) (hc : Consistent s.routes)
    {a : Action ι κ} (hperm : Permitted s.routes a) (hdone : registryDone s (.runtime a))
    (h : step s.routes.runtime a = some r) :
    RuleAccounted { s with
      routes := { s.routes with
        runtime := r
        work := workAfter s.routes a }
      call := callAfterRuntime s a } := by
  cases a with
  | cleanPersisted m =>
    have hw : s.routes.work = some (.worker m, .undo []) := hperm
    have hnone : NoRule s := hs.noRule_of_cleared hw hdone
    obtain ⟨-, rfl⟩ := when_eq_some.mp h
    refine settled_of_noRule rfl hnone fun t ht => ?_
    by_cases htm : t = m
    · subst htm
      simp at ht
    · exact hc.not_pending_of_undo hw t (by simpa [htm] using ht)
  | monitorUndo m | stopUndo m | leftoverClean m =>
    have hnone : NoRule s := hs.noRule_of_cleared hperm hdone
    have hpending := hc.not_pending_of_undo hperm
    obtain ⟨-, rfl⟩ := when_eq_some.mp h
    exact settled_of_noRule rfl hnone hpending
  | installPlan m network ok =>
    have hw : s.routes.work = some (.worker m, .installed network ok) := hperm
    unfold RuleAccounted at hs
    rw [hw] at hs
    obtain ⟨hcall, hnrpt, hwhole⟩ := hs
    exact install_step hc hcall hnrpt hwhole h
  | recheckGeneration m =>
    have hp := (when_eq_some.mp h).1
    have hin : Inside s.routes.runtime (.worker m) := by simp [Inside, hp]
    have hw : s.routes.work = none := hc.work_eq_none hin fun w hw => by
      cases w <;> simp [WorkPhase, GivenUp, hp] at hw
    exact (hs.settled hw).recheck_step hc hw h
  | publish m =>
    have hp := (when_eq_some.mp h).1
    have hin : Inside s.routes.runtime (.worker m) := by simp [Inside, hp]
    have hw : s.routes.work = none := hc.work_eq_none hin fun w hw => by
      cases w <;> simp [WorkPhase, GivenUp, hp] at hw
    have hsettled := (hs.settled hw).publish_step hc h
    unfold RuleAccounted workAfter callAfterRuntime
    simp only [hw]
    simpa only [hw] using hsettled
  | monitorClear m =>
    obtain ⟨hp, rfl⟩ := when_eq_some.mp h
    have hin : Inside s.routes.runtime (.monitor m) := by simp [Inside, hp]
    have hw : s.routes.work = none := hc.work_eq_none hin fun w hw => by
      cases w <;> simp [WorkPhase, hp] at hw
    have hnetwork := (hs.settled hw).network fun t => (hc.not_prepares hin (by simp)).2
    exact ⟨_, rfl, mem_undoBases hnetwork⟩
  | stopTake m =>
    obtain ⟨hp, rfl⟩ := when_eq_some.mp h
    have hin : Inside s.routes.runtime (.stop m) := by simp [Inside, hp]
    have hw : s.routes.work = none := hc.work_eq_none hin fun w hw => by
      cases w <;> simp [WorkPhase, hp] at hw
    have hnetwork := (hs.settled hw).network fun t => (hc.not_prepares hin (by simp)).2
    exact ⟨_, rfl, mem_undoBases hnetwork⟩
  | _ => exact hs.same_work rfl fun hsettled => hsettled.quiet_step rfl h

omit [DecidableEq ι] [DecidableEq κ] in
/-- An iteration over the routes comes before `apply_nrpt`. -/
theorem Installing.addRoute_step {bypass tunnel : List RouteSpec} {nrpt : Bool}
    {network : PersistedNetworkState} (hs : Installing s bypass tunnel nrpt network)
    {failure : Option Text} {routes : RouteState ι κ}
    (h : addStep s.routes p failure nrpt network bypass tunnel = some routes) :
    RuleAccounted { s with routes := routes } := by
  have hidle : s.call = .idle := by
    by_contra hcall
    obtain ⟨rfl, rfl, -⟩ := hs.begun hcall
    cases h
  have hnone : NoRule s := by
    have happlying := hs.applying
    unfold Applying at happlying
    rw [hidle] at happlying
    exact happlying
  have hinstalling : ∀ (routes : RouteState ι κ) bypass tunnel network,
      network.nrpt = false → Installing { s with routes := routes } bypass tunnel nrpt network := by
    intro routes bypass tunnel network hunset
    exact ⟨hs.applying, fun hcall => absurd hidle hcall, hunset⟩
  unfold addStep at h
  split at h
  · split at h
    · cases h
      exact hinstalling _ _ _ _ hs.unset
    · cases h
      exact hinstalling _ _ _ _ hs.unset
  · split at h
    · cases h
      exact ⟨hidle, .inl hnone, fun hok => absurd hok Bool.false_ne_true⟩
    · cases h
      exact hinstalling _ _ _ _ hs.unset
    · cases h
      exact hinstalling _ _ _ _ hs.unset
  · cases h

omit [DecidableEq ι] [DecidableEq κ] in
/-- `apply_nrpt` has returned, or was not called. -/
theorem Installing.applyNrpt_step {nrpt ok : Bool} {network : PersistedNetworkState}
    (hs : Installing s [] [] nrpt network)
    (hw : s.routes.work = some (p, .install [] [] nrpt network))
    (hdone : registryDone s (.applyNrpt ok)) :
    RuleAccounted { s with
      routes := { s.routes with
        work := some (p, if nrpt then .installed { network with nrpt := true } ok
          else .installed network true) }
      call := .idle } := by
  have happlying := hs.applying
  unfold registryDone at hdone
  simp only [hw] at hdone
  unfold Applying at happlying
  cases nrpt with
  | true =>
    refine ⟨rfl, .inr rfl, fun hok _ => ?_⟩
    cases hcall : s.call with
    | applied result =>
      rw [hcall] at hdone happlying
      cases result with
      | ok count => exact happlying
      | error err =>
        have hfail : Except.isOk (Except.error err : Except Text ℕ) = ok := of_decide_eq_true hdone
        rw [hok] at hfail
        cases hfail
    | idle | undo | clear | apply | create | set =>
      rw [hcall] at hdone
      cases hdone
  | false =>
    cases hcall : s.call with
    | idle =>
      rw [hcall] at happlying
      refine ⟨rfl, .inl happlying, fun _ hnrpt => ?_⟩
      rw [hs.unset] at hnrpt
      cases hnrpt
    | applied | undo | clear | apply | create | set =>
      rw [hcall] at hdone
      cases hdone

/-- So do the steps of the routes. -/
theorem RuleAccounted.route_step (hs : RuleAccounted s) (hc : Consistent s.routes)
    {a : RouteAction ι κ} (hdone : registryDone s a) {routes : RouteState ι κ}
    (h : routeStep s.routes a = some routes) :
    RuleAccounted { s with
      routes := routes
      request := requestAfter s a
      call := callAfter s a } := by
  cases a with
  | runtime a =>
    simp only [routeStep] at h
    split_ifs at h with hperm
    obtain ⟨r, hr, rfl⟩ := Option.map_eq_some_iff.mp h
    exact hs.runtime_step hc hperm hdone hr
  | readRecord p =>
    obtain ⟨-, rfl⟩ := when_eq_some.mp h
    exact ⟨_, rfl, fun b _ => mem_recordBases _ b⟩
  | beginInstall t plan tunnelLuid =>
    obtain ⟨⟨hw, hp⟩, rfl⟩ := when_eq_some.mp h
    have hsettled := hs.settled hw
    have hnone : NoRule s := hsettled.unrecorded t (by simp [hp])
    have happlying :
        Applying { s with request := (plan.managedDomains, plan.dnsServer.getD 0) } := by
      unfold Applying
      rw [hsettled.idle]
      exact hnone
    exact ⟨happlying, fun hcall => absurd hsettled.idle hcall, rfl⟩
  | addRoute failure =>
    simp only [routeStep] at h
    split at h
    · rename_i hw
      unfold RuleAccounted at hs
      rw [hw] at hs
      exact hs.addRoute_step h
    · cases h
  | applyNrpt ok =>
    simp only [routeStep] at h
    split at h
    · rename_i hw
      cases h
      unfold RuleAccounted at hs
      rw [hw] at hs
      exact hs.applyNrpt_step hw hdone
    · cases h
  | deleteRoute =>
    simp only [routeStep] at h
    split at h
    · rename_i hw
      cases h
      unfold RuleAccounted at hs
      rw [hw] at hs
      exact hs
    · cases h
  | returns =>
    simp only [routeStep] at h
    split at h
    · rename_i hw
      obtain ⟨-, rfl⟩ := when_eq_some.mp h
      exact settled_of_noRule rfl (hs.noRule_of_cleared hw hdone) (hc.not_pending_of_undo hw)
    · cases h
  | otherAdds route =>
    obtain ⟨-, rfl⟩ := when_eq_some.mp h
    refine hs.same_work rfl fun hsettled => ?_
    exact ⟨hsettled.idle, hsettled.unrecorded, hsettled.planned, hsettled.whole, hsettled.network⟩
  | otherDeletes route =>
    cases h
    refine hs.same_work rfl fun hsettled => ?_
    exact ⟨hsettled.idle, hsettled.unrecorded, hsettled.planned, hsettled.whole, hsettled.network⟩

end Steps

section Calls

variable {s u : NrptState ι κ} {rules : NrptRules} {call : NrptCall}

omit [DecidableEq ι] [DecidableEq κ] in
/-- A call that is neither idle nor a `clear_nrpt` behind an undo is one of `apply_nrpt`. -/
theorem RuleAccounted.exists_installing (hs : RuleAccounted s) (hidle : s.call ≠ .idle)
    (hclear : ∀ bases, s.call ≠ .clear bases) : ∃ p bypass tunnel nrpt network,
    s.routes.work = some (p, .install bypass tunnel nrpt network) ∧
      Installing s bypass tunnel nrpt network := by
  unfold RuleAccounted at hs
  cases hw : s.routes.work with
  | none =>
    simp only [hw] at hs
    exact absurd hs.idle hidle
  | some work =>
    obtain ⟨p, w⟩ := work
    cases w with
    | undo rest =>
      simp only [hw] at hs
      obtain ⟨bases, hcall, -⟩ := hs
      exact absurd hcall (hclear bases)
    | install bypass tunnel nrpt network =>
      simp only [hw] at hs
      exact ⟨p, bypass, tunnel, nrpt, network, rfl, hs⟩
    | installed network ok =>
      simp only [hw] at hs
      exact absurd hs.1 hidle

omit [DecidableEq ι] [DecidableEq κ] in
theorem RuleAccounted.applying (hs : RuleAccounted s) (hidle : s.call ≠ .idle)
    (hclear : ∀ bases, s.call ≠ .clear bases) : Applying s := by
  obtain ⟨_, _, _, _, _, -, hinstalling⟩ := hs.exists_installing hidle hclear
  exact hinstalling.applying

omit [DecidableEq ι] [DecidableEq κ] in
theorem RuleAccounted.call_step (hs : RuleAccounted s) (hidle : s.call ≠ .idle)
    (hclear : ∀ bases, s.call ≠ .clear bases)
    (happly : Applying s → Applying { s with rules := rules, call := call }) :
    RuleAccounted { s with rules := rules, call := call } := by
  obtain ⟨p, bypass, tunnel, nrpt, network, hw, hs⟩ := hs.exists_installing hidle hclear
  unfold RuleAccounted
  simp only [hw]
  exact ⟨happly hs.applying, fun _ => hs.begun hidle, hs.unset⟩

section Same

variable (hrules : ∀ b, rules.rule b = s.rules.rule b)
include hrules

omit [DecidableEq ι] [DecidableEq κ] in
theorem noRule_same : NoRule { s with rules := rules } ↔ NoRule s := by
  unfold NoRule
  simp only [hrules]

omit [DecidableEq ι] [DecidableEq κ] in
theorem whole_same : Whole { s with rules := rules } ↔ Whole s := by
  unfold Whole
  simp only [hrules, noRule_same hrules]

omit [DecidableEq ι] [DecidableEq κ] in
theorem applying_same : Applying { s with rules := rules } ↔ Applying s := by
  unfold Applying
  cases s.call with
  | applied result =>
    cases result with
    | ok count => exact whole_same hrules
    | error err => exact Iff.rfl
  | idle => exact noRule_same hrules
  | undo | clear => exact Iff.rfl
  | apply | create => exact and_congr (noRule_same hrules) Iff.rfl
  | set => simp only [hrules]

omit [DecidableEq ι] [DecidableEq κ] in
/-- Only what is in the tables matters. -/
theorem RuleAccounted.same_rules (hs : RuleAccounted s) :
    RuleAccounted { s with rules := rules } := by
  unfold RuleAccounted at hs ⊢
  cases hw : s.routes.work with
  | none =>
    simp only [hw] at hs ⊢
    constructor
    · exact hs.idle
    · simpa only [noRule_same hrules] using hs.unrecorded
    · simpa only [noRule_same hrules] using hs.planned
    · simpa only [whole_same hrules] using hs.whole
    · simpa only [noRule_same hrules] using hs.network
  | some work =>
    obtain ⟨p, w⟩ := work
    cases w with
    | undo rest =>
      simp only [hw, hrules] at hs ⊢
      exact hs
    | install bypass tunnel nrpt network =>
      simp only [hw] at hs ⊢
      exact ⟨(applying_same hrules).mpr hs.applying, hs.begun, hs.unset⟩
    | installed network ok =>
      simp only [hw, noRule_same hrules, whole_same hrules] at hs ⊢
      exact hs

end Same

omit [DecidableEq ι] [DecidableEq κ] in
theorem NoRule.deleteRule (h : NoRule s) (base : NrptBase) :
    NoRule { s with rules := s.rules.deleteRule base } := by
  intro b
  dsimp only
  rw [NrptRules.rule_deleteRule, h b, ite_self]

/-- A new process of an installation begins with no rule. -/
theorem RuleAccounted.begin_apply (hs : RuleAccounted s)
    (h : nrptStep s (.beginApply : NrptAction ι κ) = some u) :
    RuleAccounted u ∧ u.up = s.up ∧ u.routes = s.routes := by
  simp only [nrptStep] at h
  split at h
  · rename_i hw
    obtain ⟨hcall, rfl⟩ := when_eq_some.mp h
    refine ⟨?_, rfl, rfl⟩
    unfold RuleAccounted at hs ⊢
    simp only [hw] at hs ⊢
    have hidle : s.call = .idle := by
      cases hcase : s.call with
      | idle => rfl
      | undo | clear | apply | create | set | applied =>
        rw [hcase] at hcall
        cases hcall
    have happlying := hs.applying
    unfold Applying at happlying
    rw [hidle] at happlying
    exact ⟨⟨happlying, rfl, rfl⟩, fun _ => ⟨rfl, rfl, rfl⟩, hs.unset⟩
  · cases h

/-- A rule that is deleted is none that the state accounts for. -/
theorem RuleAccounted.delete_rule (hs : RuleAccounted s) {ok : Bool} (hok : ok = true)
    (h : nrptStep s (.deleteRule ok : NrptAction ι κ) = some u) :
    RuleAccounted u ∧ u.up = s.up ∧ u.routes = s.routes := by
  obtain rfl : ok = true := hok
  simp only [nrptStep] at h
  split at h
  · rename_i base bases hcall
    obtain ⟨-, rfl⟩ := when_eq_some.mp h
    refine ⟨?_, rfl, rfl⟩
    unfold RuleAccounted at hs ⊢
    dsimp only
    cases hw : s.routes.work with
    | none =>
      simp only [hw] at hs
      have hidle := hs.idle
      rw [hcall] at hidle
      cases hidle
    | some work =>
      obtain ⟨p, w⟩ := work
      cases w with
      | undo rest =>
        simp only [hw] at hs
        obtain ⟨left, hclear, hbases⟩ := hs
        obtain rfl := NrptCall.clear.inj (hcall.symm.trans hclear)
        exact ⟨bases, rfl, mem_of_deleteRule hbases⟩
      | install bypass tunnel nrpt network =>
        simp only [hw] at hs
        have happlying := hs.applying
        unfold Applying at happlying
        rw [hcall] at happlying
        exact happlying.elim
      | installed network ok =>
        simp only [hw] at hs
        have hidle := hs.1
        rw [hcall] at hidle
        cases hidle
  · rename_i names dnsServer base bases hcall
    cases h
    refine ⟨hs.call_step (by simp [hcall]) (by simp [hcall]) fun happlying => ?_, rfl, rfl⟩
    unfold Applying at happlying ⊢
    rw [hcall] at happlying
    exact ⟨happlying.1.deleteRule base, happlying.2⟩
  · cases h

theorem RuleAccounted.read_policy (hs : RuleAccounted s)
    (h : nrptStep s (.readPolicy : NrptAction ι κ) = some u) :
    RuleAccounted u ∧ u.up = s.up ∧ u.routes = s.routes := by
  simp only [nrptStep] at h
  split at h
  · rename_i names dnsServer hcall
    cases h
    refine ⟨hs.call_step (by simp [hcall]) (by simp [hcall]) fun happlying => ?_, rfl, rfl⟩
    unfold Applying at happlying ⊢
    rw [hcall] at happlying
    obtain ⟨hnone, hnames, hserver⟩ := happlying
    dsimp only
    by_cases hempty : names = []
    · rw [if_pos hempty]
      unfold Whole
      rw [if_pos (hnames ▸ hempty)]
      exact hnone
    · rw [if_neg hempty]
      exact ⟨hnone, hnames, hserver, hempty⟩
  · cases h

theorem RuleAccounted.create_key (hs : RuleAccounted s) {failure : Option Text}
    (h : nrptStep s (.createKey failure : NrptAction ι κ) = some u) :
    RuleAccounted u ∧ u.up = s.up ∧ u.routes = s.routes := by
  simp only [nrptStep] at h
  split at h
  · rename_i names dnsServer base hcall
    cases failure with
    | some err =>
      cases h
      exact ⟨hs.call_step (by simp [hcall]) (by simp [hcall]) fun _ => trivial, rfl, rfl⟩
    | none =>
      cases h
      refine ⟨hs.call_step (by simp [hcall]) (by simp [hcall]) fun happlying => ?_, rfl, rfl⟩
      unfold Applying at happlying ⊢
      rw [hcall] at happlying
      obtain ⟨hnone, rfl, rfl, hempty⟩ := happlying
      refine ⟨hempty, [], rfl, fun b => ?_⟩
      dsimp only
      rw [NrptRules.rule_setRule, hnone base, hnone b]
      rfl
  · cases h

/-- A value comes behind those that the rule already has. -/
theorem RuleAccounted.set_value (hs : RuleAccounted s) {failure : Option Text}
    (h : nrptStep s (.setValue failure : NrptAction ι κ) = some u) :
    RuleAccounted u ∧ u.up = s.up ∧ u.routes = s.routes := by
  simp only [nrptStep] at h
  split at h
  · rename_i base count value rest hcall
    cases failure with
    | some err =>
      cases h
      exact ⟨hs.call_step (by simp [hcall]) (by simp [hcall]) fun _ => trivial, rfl, rfl⟩
    | none =>
      cases hrule : s.rules.rule base with
      | none =>
        rw [hrule] at h
        cases h
      | some values =>
        rw [hrule] at h
        cases h
        refine ⟨hs.call_step (by simp [hcall]) (by simp [hcall]) fun happlying => ?_, rfl, rfl⟩
        unfold Applying at happlying ⊢
        rw [hcall] at happlying
        obtain ⟨hempty, front, hfront, hrules⟩ := happlying
        have hvalues : values = front := by
          have hbase := hrules base
          rw [hrule, if_pos rfl] at hbase
          exact Option.some.inj hbase
        subst hvalues
        refine ⟨hempty, values ++ [value], ?_, fun b => ?_⟩
        · rw [List.append_assoc, List.singleton_append]
          exact hfront
        · dsimp only
          rw [NrptRules.rule_setRule, setRegValue_new (front_names hfront), hrules b]
          split_ifs <;> rfl
  · cases h

theorem RuleAccounted.close_key (hs : RuleAccounted s)
    (h : nrptStep s (.closeKey : NrptAction ι κ) = some u) :
    RuleAccounted u ∧ u.up = s.up ∧ u.routes = s.routes := by
  simp only [nrptStep] at h
  split at h
  · rename_i base count hcall
    cases h
    refine ⟨hs.call_step (by simp [hcall]) (by simp [hcall]) fun happlying => ?_, rfl, rfl⟩
    unfold Applying at happlying ⊢
    rw [hcall] at happlying
    obtain ⟨hempty, front, hfront, hrules⟩ := happlying
    rw [List.append_nil] at hfront
    subst hfront
    unfold Whole
    dsimp only
    rw [if_neg hempty]
    exact ⟨base, hrules⟩
  · cases h

/-- A process that serves does not delete the rules of an earlier one. -/
theorem RuleAccounted.boot_delete (hs : RuleAccounted s)
    (h : nrptStep s (.bootDelete : NrptAction ι κ) = some u) :
    RuleAccounted u ∧ u.up = s.up ∧ u.routes = s.routes := by
  simp only [nrptStep] at h
  split at h
  · rename_i route rest bases hcall
    have happlying := hs.applying (by simp [hcall]) (by simp [hcall])
    unfold Applying at happlying
    rw [hcall] at happlying
    exact happlying.elim
  · rename_i bases hcall
    have happlying := hs.applying (by simp [hcall]) (by simp [hcall])
    unfold Applying at happlying
    rw [hcall] at happlying
    exact happlying.elim
  · cases h

/-- What the calls of the registry leave while the process serves. -/
theorem RuleAccounted.registry_step (hs : RuleAccounted s) {a : NrptAction ι κ}
    (hroute : ∀ b, a ≠ .route b) (hdie : a ≠ .die) (hok : RegistryHolds s a) (hup : s.up)
    (h : nrptStep s a = some u) : RuleAccounted u ∧ u.up = s.up ∧ u.routes = s.routes := by
  cases a with
  | route b => exact absurd rfl (hroute b)
  | die => exact absurd rfl hdie
  | beginApply => exact hs.begin_apply h
  | deleteRule ok => exact hs.delete_rule hok h
  | readPolicy => exact hs.read_policy h
  | createKey failure => exact hs.create_key h
  | setValue failure => exact hs.set_value h
  | closeKey => exact hs.close_key h
  | policyChanges active =>
    cases h
    exact ⟨hs.same_rules fun b => NrptRules.rule_setPolicies hok b, rfl, rfl⟩
  | boot | serve =>
    have hdown := (when_eq_some.mp h).1.1
    rw [hup] at hdown
    cases hdown
  | bootDelete => exact hs.boot_delete h

end Calls

section Runs

variable {s u : NrptState ι κ} {persisted : Option PersistedNetworkState} {table : Finset RouteSpec}

theorem consistent_fresh : Consistent (freshRoutes persisted table : RouteState ι κ) :=
  consistent_of_reachable (.init ⟨persisted, table, rfl⟩)

/-- A service that begins to serve has no rule. -/
theorem RuleAccount.serve (hs : RuleAccount s) (hup : s.up = false) (hcall : s.call.isCleared)
    (routes : RouteState ι κ) (hroutes : routes = freshRoutes none s.routes.table) :
    RuleAccount { s with up := true, routes := routes, call := .idle } := by
  have hnone : NoRule s := by
    have hbooting := hs.booting hup
    unfold Booting at hbooting
    cases hcase : s.call with
    | clear bases =>
      rw [hcase] at hbooting hcall
      cases bases with
      | nil =>
        intro b
        by_contra hb
        exact List.not_mem_nil (hbooting b hb)
      | cons base bases => cases hcall
    | idle | undo | apply | create | set | applied =>
      rw [hcase] at hcall
      cases hcall
  subst hroutes
  constructor
  · exact consistent_fresh
  · exact fun hdown => absurd hdown Bool.false_ne_true.symm
  · exact fun hdown => absurd hdown Bool.false_ne_true.symm
  · exact fun _ => settled_of_noRule rfl hnone fun t => Bool.false_ne_true

/-- What a process does before it serves. -/
theorem RuleAccount.boot_step (hs : RuleAccount s) (hdown : s.up = false) {a : NrptAction ι κ}
    (hok : RegistryHolds s a) (h : nrptStep s a = some u) : RuleAccount u := by
  have hbooting := hs.booting hdown
  unfold Booting at hbooting
  obtain ⟨persisted, table, hfresh⟩ := hs.fresh hdown
  have hwork : s.routes.work = none := by rw [hfresh]; rfl
  -- a step that leaves the process and its routes
  have hstays : ∀ rules call, Booting { s with rules := rules, call := call } →
      RuleAccount { s with rules := rules, call := call } := by
    intro rules call hboots
    exact ⟨hs.routes, fun _ => ⟨persisted, table, hfresh⟩, fun _ => hboots,
      fun hup => absurd (hdown.symm.trans hup) Bool.false_ne_true⟩
  cases a with
  | route a =>
    simp only [nrptStep, hdown] at h
    cases h
  | beginApply =>
    simp only [nrptStep, hwork] at h
    cases h
  | deleteRule ok =>
    obtain rfl : ok = true := hok
    simp only [nrptStep] at h
    split at h
    · rename_i base bases hcall
      obtain ⟨-, rfl⟩ := when_eq_some.mp h
      rw [hcall] at hbooting
      exact hstays _ _ (mem_of_deleteRule hbooting)
    · cases h
      exact hstays _ _ trivial
    · cases h
  | readPolicy =>
    simp only [nrptStep] at h
    split at h
    · cases h
      refine hstays _ _ ?_
      unfold Booting
      dsimp only
      split_ifs <;> trivial
    · cases h
  | createKey failure =>
    simp only [nrptStep] at h
    split at h
    · cases failure with
      | some err =>
        cases h
        exact hstays _ _ trivial
      | none =>
        cases h
        exact hstays _ _ trivial
    · cases h
  | setValue failure =>
    simp only [nrptStep] at h
    split at h
    · split at h
      · cases h
        exact hstays _ _ trivial
      · cases h
        exact hstays _ _ trivial
      · cases h
    · cases h
  | closeKey =>
    simp only [nrptStep] at h
    split at h
    · cases h
      exact hstays _ _ trivial
    · cases h
  | policyChanges active =>
    cases h
    refine hstays _ _ ?_
    unfold Booting
    dsimp only
    simpa only [NrptRules.rule_setPolicies hok] using hbooting
  | die =>
    cases h
    exact ⟨consistent_fresh, fun _ => ⟨_, _, rfl⟩, fun _ => trivial,
      fun hup => absurd hup Bool.false_ne_true⟩
  | boot =>
    obtain ⟨-, rfl⟩ := when_eq_some.mp h
    exact hstays _ _ (mem_recordBases _)
  | bootDelete =>
    simp only [nrptStep] at h
    split at h
    · rename_i route rest bases hcall
      cases h
      rw [hcall] at hbooting
      refine ⟨?_, fun _ => ⟨persisted, table.erase route, ?_⟩, fun _ => hbooting,
        fun hup => absurd (hdown.symm.trans hup) Bool.false_ne_true⟩
      · dsimp only
        rw [hfresh]
        exact consistent_fresh
      · dsimp only
        rw [hfresh]
        rfl
    · rename_i bases hcall
      cases h
      rw [hcall] at hbooting
      exact hstays _ _ fun b _ => hbooting b
    · cases h
  | serve =>
    obtain ⟨⟨-, hcall⟩, rfl⟩ := when_eq_some.mp h
    exact hs.serve hdown hcall _ rfl

theorem RuleAccount.step (hs : RuleAccount s) {a : NrptAction ι κ} (hok : RegistryHolds s a)
    (h : nrptStep s a = some u) : RuleAccount u := by
  cases hup : s.up with
  | false => exact hs.boot_step hup hok h
  | true =>
    have hacc := hs.accounted hup
    cases a with
    | route a =>
      simp only [nrptStep] at h
      split_ifs at h with hdone
      obtain ⟨routes, hroutes, rfl⟩ := Option.map_eq_some_iff.mp h
      refine ⟨hs.routes.step hroutes, ?_, ?_, fun _ => hacc.route_step hs.routes hdone.2 hroutes⟩
      · exact fun hdown => absurd (hdown.symm.trans hup) Bool.false_ne_true
      · exact fun hdown => absurd (hdown.symm.trans hup) Bool.false_ne_true
    | die =>
      cases h
      exact ⟨consistent_fresh, fun _ => ⟨_, _, rfl⟩, fun _ => trivial,
        fun hup => absurd hup Bool.false_ne_true⟩
    | beginApply | deleteRule | readPolicy | createKey | setValue | closeKey | policyChanges
    | boot | bootDelete | serve =>
      obtain ⟨haccounted, hsame, hroutes⟩ := hacc.registry_step (by simp) (by simp) hok hup h
      have hserves : u.up = true := hsame.trans hup
      refine ⟨hroutes ▸ hs.routes, ?_, ?_, fun _ => haccounted⟩
      · exact fun hdown => absurd (hdown.symm.trans hserves) Bool.false_ne_true
      · exact fun hdown => absurd (hdown.symm.trans hserves) Bool.false_ne_true

theorem ruleAccount_of_holds (h : (nrptSystem ι κ).ReachUnder RegistryHolds s) :
    RuleAccount s := by
  refine System.ReachUnder.invariant h ?_ fun _ _ _ _ ih hok hstep => ih.step hok hstep
  rintro s ⟨hdown, hcall, persisted, table, hroutes⟩
  constructor
  · rw [hroutes]
    exact consistent_fresh
  · exact fun _ => ⟨persisted, table, hroutes⟩
  · intro _
    unfold Booting
    rw [hcall]
    trivial
  · exact fun hup => absurd (hdown.symm.trans hup) Bool.false_ne_true

/-- However starts, stops and monitors interleave, calls of the registry fail and processes die:
no rule is left behind by a service that serves. -/
theorem ruleOwned_of_holds (s : NrptState ι κ)
    (h : (nrptSystem ι κ).ReachUnder RegistryHolds s) : RuleOwned s := by
  have hs := ruleAccount_of_holds h
  constructor
  · intro hup hw hfree hnrpt
    have hsettled := (hs.accounted hup).settled hw
    have hnone : ∀ t, ¬ (s.routes.runtime.start t).pending := by
      intro t ht
      have howner := (hs.routes.exclusive.guarded (.worker t)).mp (hs.routes.of_pending ht).1
      rw [hfree] at howner
      cases howner
    exact (hsettled.network hnone).resolve_right (by simp [hnrpt])
  · intro hup t ht hw
    exact ((hs.accounted hup).settled hw).unrecorded t ht
  · intro hup t ht hnrpt
    exact ((hs.accounted hup).settled (hs.routes.of_pending ht).2).whole t ht hnrpt
  · intro hup t ht hnrpt
    have hplanned := ((hs.accounted hup).settled (hs.routes.of_pending ht).2).planned t ht
    exact hplanned.resolve_right (by simp [hnrpt])

end Runs

section Witness

private def corpPlan : NetworkPlan where
  tunnelRoutes := []
  bypassRoutes := []
  dnsServer := some 0
  managedDomains := ["corp".toList]

/-- A rule of a process that died, and no record. -/
private def abandoned : NrptState Unit Unit where
  up := false
  routes := freshRoutes none ∅
  rules := { localRule := some [], policyRule := none, policyActive := false }
  request := ([], 0)
  call := .idle

private def corpBoot : List (NrptAction Unit Unit) :=
  [.boot, .bootDelete, .deleteRule true, .deleteRule true, .serve]

private def corpStart : List (NrptAction Unit Unit) :=
  [.route (.runtime (.beginStart ())), .route (.runtime (.readGeneration ())),
    .route (.runtime (.spawnWorker () true)), .route (.runtime (.workerLock ())),
    .route (.runtime (.checkGeneration ())), .route (.readRecord (.worker ())),
    .deleteRule true, .deleteRule true, .route (.runtime (.cleanPersisted ())),
    .route (.runtime (.buildPlan () true)), .route (.runtime (.engineStart () true)),
    .route (.runtime (.adapterLuid () true)), .route (.beginInstall () corpPlan 7)]

private def corpApply : List (NrptAction Unit Unit) :=
  [.beginApply, .deleteRule true, .deleteRule true, .readPolicy, .createKey none, .setValue none,
    .setValue none, .setValue none, .setValue none, .setValue none, .closeKey,
    .route (.applyNrpt true), .route (.runtime (.installPlan () { nrpt := true } true))]

/-- The leftover of a dead process is cleared, and a start writes its rule. -/
theorem ruleOwned_corp : ∃ s : NrptState Unit Unit,
    s.routes.runtime.start () = .installed ∧ s.rules.localRule ≠ none ∧ RuleOwned s := by
  have h0 : (nrptSystem Unit Unit).ReachUnder RegistryHolds abandoned :=
    .init ⟨rfl, rfl, none, ∅, rfl⟩
  have h1 := h0.run corpBoot (by decide) rfl
  have h2 := h1.run corpStart (by decide) rfl
  have h3 := h2.run corpApply (by decide) rfl
  refine ⟨_, ?_, ?_, ruleOwned_of_holds _ h3⟩
  · rfl
  · decide

end Witness

section Undisturbed

variable {s : NrptState ι κ} {p : Thread ι κ} {network : PersistedNetworkState}

theorem run_nrptStep {a : NrptAction ι κ} {as : List (NrptAction ι κ)} {v : NrptState ι κ}
    (hv : nrptStep s a = some v) :
    (nrptSystem ι κ).run s (a :: as) = (nrptSystem ι κ).run v as := by
  have hstep : (nrptSystem ι κ).step s a = some v := hv
  simp only [System.run, hstep, Option.bind_some]

theorem put_eq (rules : NrptRules) (values : List RegValue) :
    rules.put values = rules.setRule values rules.target := by
  unfold NrptRules.put NrptRules.target
  cases hactive : rules.policyActive with
  | true => simp [NrptRules.setRule, ← hactive]
  | false => simp [NrptRules.setRule, hactive]

theorem setRule_setRule (rules : NrptRules) (values next : List RegValue) (base : NrptBase) :
    (rules.setRule values base).setRule next base = rules.setRule next base := by
  cases base <;> rfl

/-- Undisturbed, the calls come to `setValues`. -/
theorem setValues_run (failure : RegValue → Option Text) (base : NrptBase) (count : ℕ)
    (rules : NrptRules) (front rest : List RegValue)
    (hnames : ((front ++ rest).map (·.name)).Nodup)
    (hrules : s.rules = rules.setRule front base) (hcall : s.call = .set base count rest) :
    ∃ as, (nrptSystem ι κ).run s as = some { s with
      rules := rules.setRule (setValues failure front rest).2 base
      call := .applied ((setValues failure front rest).1.map fun _ => count) } := by
  induction rest generalizing s front with
  | nil =>
    refine ⟨[.closeKey], ?_⟩
    rw [run_nrptStep (v := { s with call := .applied (.ok count) }) (by simp [nrptStep, hcall])]
    rw [setValues, ← hrules]
    rfl
  | cons value rest ih =>
    unfold setValues
    cases hfailure : failure value with
    | some err =>
      refine ⟨[.setValue (some err)], ?_⟩
      rw [run_nrptStep (v := { s with call := .applied (.error err) })
        (by simp [nrptStep, hcall])]
      dsimp only
      rw [← hrules]
      rfl
    | none =>
      have hnew : ∀ v ∈ front, v.name ≠ value.name := by
        rw [List.map_append, List.nodup_append] at hnames
        intro v hv
        exact hnames.2.2 _ (List.mem_map_of_mem hv) _ List.mem_cons_self
      let next : NrptState ι κ := { s with
        rules := rules.setRule (front ++ [value]) base
        call := .set base count rest }
      have hnext : nrptStep s (.setValue none) = some next := by
        have hrule : s.rules.rule base = some front := by
          rw [hrules, NrptRules.rule_setRule, if_pos rfl]
        simp only [nrptStep, hcall, hrule, setRegValue_new hnew]
        rw [hrules, setRule_setRule]
      obtain ⟨as, has⟩ := ih (s := next) (front ++ [value])
        (by rwa [List.append_assoc, List.singleton_append]) rfl rfl
      refine ⟨.setValue none :: as, ?_⟩
      rw [run_nrptStep hnext]
      exact has

/-- Undisturbed, the calls come to `apply_nrpt`. -/
theorem applyNrpt_run (env : NrptEnv)
    (hw : s.routes.work = some (p, .install [] [] true network)) (hcall : s.call = .idle) :
    ∃ as, (nrptSystem ι κ).run s as = some { s with
      rules := (applyNrpt env s.request.1 s.request.2 s.rules).2
      call := .applied (applyNrpt env s.request.1 s.request.2 s.rules).1 } := by
  let names := nrptNamespaces s.request.1
  let cleared : NrptState ι κ :=
    { s with rules := clearNrpt s.rules, call := .apply names s.request.2 [] }
  have hclear : ∀ as, (nrptSystem ι κ).run s
      (.beginApply :: .deleteRule true :: .deleteRule true :: as) =
        (nrptSystem ι κ).run cleared as := by
    intro as
    rw [run_nrptStep (v := { s with call := .apply names s.request.2 nrptBases })
      (by simp [nrptStep, hw, hcall, NrptCall.isIdle, names])]
    rfl
  unfold applyNrpt
  dsimp only
  by_cases hempty : names = []
  · rw [if_pos hempty]
    refine ⟨.beginApply :: .deleteRule true :: .deleteRule true :: [.readPolicy], ?_⟩
    rw [hclear, run_nrptStep (v := { cleared with call := .applied (.ok 0) })
      (by simp [nrptStep, cleared, hempty])]
    rfl
  · rw [if_neg hempty]
    let created : NrptState ι κ :=
      { cleared with call := .create names s.request.2 (clearNrpt s.rules).target }
    have hread : ∀ as, (nrptSystem ι κ).run cleared (.readPolicy :: as) =
        (nrptSystem ι κ).run created as := by
      intro as
      exact run_nrptStep (by simp [nrptStep, cleared, created, hempty])
    cases hcreate : env.createKey with
    | some err =>
      refine ⟨.beginApply :: .deleteRule true :: .deleteRule true :: .readPolicy ::
        [.createKey (some err)], ?_⟩
      rw [hclear, hread]
      rfl
    | none =>
      have hrule : ∀ b, (clearNrpt s.rules).rule b = none := by
        intro b
        cases b <;> rfl
      let opened : NrptState ι κ := { cleared with
        rules := (clearNrpt s.rules).setRule [] (clearNrpt s.rules).target
        call := .set (clearNrpt s.rules).target names.length (nrptValues names s.request.2) }
      have hopen : nrptStep created (.createKey none) = some opened := by
        simp [nrptStep, created, opened, cleared, hrule]
      obtain ⟨as, has⟩ := setValues_run (s := opened) env.setValue (clearNrpt s.rules).target
        names.length (clearNrpt s.rules) [] (nrptValues names s.request.2)
        (nrptValues_names names s.request.2) rfl rfl
      refine ⟨.beginApply :: .deleteRule true :: .deleteRule true :: .readPolicy ::
        .createKey none :: as, ?_⟩
      rw [hclear, hread, run_nrptStep hopen, has]
      dsimp only
      cases hset : setValues env.setValue [] (nrptValues names s.request.2) with
      | mk result written =>
        cases result with
        | ok u =>
          dsimp only
          rw [put_eq]
          rfl
        | error err =>
          dsimp only
          rw [put_eq]
          rfl

end Undisturbed

end NulConnect.Windows
