import NulConnect.Windows.NetworkPlan
import NulConnect.Windows.Exclusion

/-! The routing table and the record on disk, one route at a time: `WindowsRuntime` with the steps
of `install_network_plan`, `undo_network_state` and `cleanup_persisted_network_state` in between,
and other programs that change the table. -/
namespace NulConnect.Windows
open Net Transition

/-- How far the owner of `operation` is with its routes. -/
inductive Work where
  | undo (rest : List RouteSpec)
  | install (bypass tunnel : List RouteSpec) (nrpt : Bool) (network : PersistedNetworkState)
  | installed (network : PersistedNetworkState) (ok : Bool)
deriving DecidableEq

/-- The table is a set of routes. `persisted` in `runtime` is the record on disk; it changes in
one step. -/
structure RouteState (ι κ : Type*) where
  runtime : State ι κ
  work : Option (Thread ι κ × Work)
  table : Finset RouteSpec
  /-- the routes that the process has added and not yet deleted -/
  mine : Finset RouteSpec
  /-- the routes that the process has deleted and not added since -/
  deleted : Finset RouteSpec
  /-- those of them that someone else has added since -/
  readded : Finset RouteSpec

inductive RouteAction (ι κ : Type*) where
  | runtime (a : Action ι κ)
  | readRecord (p : Thread ι κ)
  | beginInstall (t : ι) (plan : NetworkPlan) (tunnelLuid : UInt64)
  | addRoute (failure : Option Text)
  | applyNrpt (ok : Bool)
  | deleteRoute
  | returns
  | otherAdds (route : RouteSpec)
  | otherDeletes (route : RouteSpec)

variable {ι κ : Type*}

def recorded (s : RouteState ι κ) : List RouteSpec :=
  (s.runtime.persisted.map PersistedNetworkState.routes).getD []

/-- The routes that an installation has added before its record is saved. -/
def unsaved (s : RouteState ι κ) : List RouteSpec :=
  match s.work with
  | some (_, .install _ _ _ network) => network.routes
  | some (_, .installed network _) => network.routes
  | _ => []

namespace RouteState

def added (s : RouteState ι κ) (route : RouteSpec) : RouteState ι κ :=
  { s with
    table := insert route s.table
    mine := insert route s.mine
    deleted := s.deleted.erase route
    readded := s.readded.erase route }

def erased (s : RouteState ι κ) (route : RouteSpec) : RouteState ι κ :=
  { s with
    table := s.table.erase route
    mine := s.mine.erase route
    deleted := insert route s.deleted
    readded := s.readded.erase route }

end RouteState

variable [DecidableEq ι] [DecidableEq κ]

/-- Where the steps of the runtime wait for the work on the routes. The worker of a failed or
cancelled start keeps the guard of `operation` until its undo is over. -/
def Permitted (s : RouteState ι κ) : Action ι κ → Prop
  | .workerLock _ | .monitorLock _ | .stopLock _ | .leftoverLock _ => s.work = none
  | .cleanPersisted t => s.work = some (.worker t, .undo [])
  | .installPlan t network ok => s.work = some (.worker t, .installed network ok)
  | .monitorUndo t => s.work = some (.monitor t, .undo [])
  | .stopUndo u | .leftoverClean u => s.work = some (.stop u, .undo [])
  | .failCheck t => s.work.map Prod.fst ≠ some (.worker t)
  | _ => True

instance (s : RouteState ι κ) (a : Action ι κ) : Decidable (Permitted s a) := by
  rcases a with ⟨⟩
  all_goals
    unfold Permitted
    infer_instance

/-- The work that a step of the runtime leaves: `monitorClear` and `stopTake` take the network
out of the state to undo it. -/
def workAfter (s : RouteState ι κ) : Action ι κ → Option (Thread ι κ × Work)
  | .cleanPersisted _ | .monitorUndo _ | .stopUndo _ | .leftoverClean _ => none
  | .installPlan t network ok =>
    if ok then none else some (.worker t, .undo network.routes.reverse)
  | .recheckGeneration t =>
    if s.runtime.generation = s.runtime.token t then s.work
    else some (.worker t, .undo (s.runtime.plan t).routes.reverse)
  | .monitorClear t => some (.monitor t, .undo s.runtime.network.routes.reverse)
  | .stopTake u => some (.stop u, .undo s.runtime.network.routes.reverse)
  | _ => s.work

/-- The sections that begin with `cleanup_persisted_network_state`. -/
def Cleans (s : State ι κ) : Thread ι κ → Prop
  | .worker t => s.start t = .cleaning
  | .monitor _ => False
  | .stop u => s.stop u = .leftovers

instance (s : State ι κ) (p : Thread ι κ) : Decidable (Cleans s p) := by
  rcases p with ⟨⟩
  all_goals
    unfold Cleans
    infer_instance

def GivenUp (s : State ι κ) : Thread ι κ → Prop
  | .worker t => s.start t = .failing ∨ s.start t = .done
  | .monitor _ | .stop _ => False

instance (s : State ι κ) (p : Thread ι κ) : Decidable (GivenUp s p) := by
  rcases p with ⟨⟩
  all_goals
    unfold GivenUp
    infer_instance

/-- One iteration of the loops of `install_network_plan`: over the bypass routes it goes on where
an addition fails, over the tunnel routes it ends there. -/
def addStep (s : RouteState ι κ) (p : Thread ι κ) (failure : Option Text) (nrpt : Bool)
    (network : PersistedNetworkState) :
    List RouteSpec → List RouteSpec → Option (RouteState ι κ)
  | route :: bypass, tunnel =>
    match (addRoute failure route s.table).1 with
    | .ok true => some { s.added route with
        work := some (p, .install bypass tunnel nrpt
          { network with routes := network.routes ++ [route] }) }
    | _ => some { s with work := some (p, .install bypass tunnel nrpt network) }
  | [], route :: tunnel =>
    match (addRoute failure route s.table).1 with
    | .error _ => some { s with work := some (p, .installed network false) }
    | .ok true => some { s.added route with
        work := some (p, .install [] tunnel nrpt
          { network with routes := network.routes ++ [route] }) }
    | .ok false => some { s with work := some (p, .install [] tunnel nrpt network) }
  | [], [] => none

def routeStep (s : RouteState ι κ) : RouteAction ι κ → Option (RouteState ι κ)
  | .runtime a =>
    if Permitted s a then
      (step s.runtime a).map fun runtime => { s with runtime := runtime, work := workAfter s a }
    else none
  | .readRecord p => when (s.work = none ∧ Cleans s.runtime p)
      { s with work := some (p, .undo (recorded s).reverse) }
  | .beginInstall t plan tunnelLuid => when (s.work = none ∧ s.runtime.start t = .installing)
      { s with work := some (.worker t, .install plan.bypassRoutes
          (plan.tunnelRoutes.map (tunnelRoute tunnelLuid)) plan.hasNrpt {}) }
  | .addRoute failure =>
    match s.work with
    | some (p, .install bypass tunnel nrpt network) =>
      addStep s p failure nrpt network bypass tunnel
    | _ => none
  | .applyNrpt ok =>
    match s.work with
    | some (p, .install [] [] nrpt network) =>
      some { s with work := some (p, if nrpt then .installed { network with nrpt := true } ok
        else .installed network true) }
    | _ => none
  | .deleteRoute =>
    match s.work with
    | some (p, .undo (route :: rest)) => some { s.erased route with work := some (p, .undo rest) }
    | _ => none
  | .returns =>
    match s.work with
    | some (p, .undo []) => when (GivenUp s.runtime p) { s with work := none }
    | _ => none
  | .otherAdds route => when (route ∉ s.table)
      { s with
        table := insert route s.table
        readded := if route ∈ s.deleted then insert route s.readded else s.readded }
  | .otherDeletes route => some { s with table := s.table.erase route }

def routeSystem (ι κ : Type*) [DecidableEq ι] [DecidableEq κ] :
    System (RouteState ι κ) (RouteAction ι κ) where
  init s := ∃ persisted table, s =
    { runtime := { initial with persisted := persisted }
      work := none
      table := table
      mine := ∅
      deleted := ∅
      readded := ∅ }
  step := routeStep

/-- A crash in this state is recovered: where a new process runs `cleanup_leftovers`, every route
that the dead one had added and not yet deleted is deleted, and none that the dead one had deleted
and someone else has added since. -/
def Recovers (s : RouteState ι κ) : Prop :=
  let table := cleanupPersistedNetworkState s.runtime.persisted s.table
  (∀ route ∈ s.mine, route ∉ table) ∧ ∀ route ∈ s.readded, route ∈ s.table → route ∈ table

section Runs

variable {s : RouteState ι κ} {p : Thread ι κ} {nrpt : Bool}

theorem undo_run (rest : List RouteSpec) (hw : s.work = some (p, .undo rest)) :
    ∃ u, (routeSystem ι κ).run s (rest.map fun _ => .deleteRoute) = some u ∧
      u.work = some (p, .undo []) ∧ u.table = rest.foldl Finset.erase s.table ∧
      u.runtime = s.runtime := by
  induction rest generalizing s with
  | nil => exact ⟨s, rfl, hw, rfl, rfl⟩
  | cons route rest ih =>
    obtain ⟨u, hu, hwork, htable, hruntime⟩ :=
      ih (s := { s.erased route with work := some (p, .undo rest) }) rfl
    refine ⟨u, ?_, hwork, htable, hruntime⟩
    have hstep : (routeSystem ι κ).step s .deleteRoute =
        some { s.erased route with work := some (p, .undo rest) } := by
      simp only [routeSystem, routeStep, hw]
    simp only [List.map_cons, System.run, hstep, Option.bind_some]
    exact hu

theorem run_addRoute {bypass tunnel : List RouteSpec} {network : PersistedNetworkState}
    {failure : Option Text} {v : RouteState ι κ} {as : List (RouteAction ι κ)}
    (hw : s.work = some (p, .install bypass tunnel nrpt network))
    (hv : addStep s p failure nrpt network bypass tunnel = some v) :
    (routeSystem ι κ).run s (.addRoute failure :: as) = (routeSystem ι κ).run v as := by
  have hstep : (routeSystem ι κ).step s (.addRoute failure) = some v := by
    simp only [routeSystem, routeStep, hw, hv]
  simp only [System.run, hstep, Option.bind_some]

theorem addBypassRoutes_run (env : InstallEnv) (bypass tunnel : List RouteSpec)
    (network : PersistedNetworkState)
    (hw : s.work = some (p, .install bypass tunnel nrpt network)) :
    ∃ as u, (routeSystem ι κ).run s as = some u ∧ u.runtime = s.runtime ∧
      u.work = some (p, .install [] tunnel nrpt
        (addBypassRoutes env bypass network s.table).1) ∧
      u.table = (addBypassRoutes env bypass network s.table).2 := by
  induction bypass generalizing s network with
  | nil => exact ⟨[], s, rfl, rfl, hw, rfl⟩
  | cons route bypass ih =>
    unfold addBypassRoutes
    cases hf : env.failure route with
    | some err =>
      obtain ⟨as, u, hu, hrest⟩ :=
        ih (s := { s with work := some (p, .install bypass tunnel nrpt network) }) network rfl
      refine ⟨.addRoute (some err) :: as, u, ?_, hrest⟩
      rw [run_addRoute hw rfl]
      exact hu
    | none =>
      by_cases hr : route ∈ s.table
      · obtain ⟨as, u, hu, hrest⟩ :=
          ih (s := { s with work := some (p, .install bypass tunnel nrpt network) }) network rfl
        have hstep : addStep s p none nrpt network (route :: bypass) tunnel =
            some { s with work := some (p, .install bypass tunnel nrpt network) } := by
          simp [addStep, addRoute, hr]
        refine ⟨.addRoute none :: as, u, ?_, ?_⟩
        · rw [run_addRoute hw hstep]
          exact hu
        · simpa [addRoute, hr] using hrest
      · obtain ⟨as, u, hu, hrest⟩ := ih (s := { s.added route with
            work := some (p, .install bypass tunnel nrpt
              { network with routes := network.routes ++ [route] }) }) _ rfl
        have hstep : addStep s p none nrpt network (route :: bypass) tunnel =
            some { s.added route with
              work := some (p, .install bypass tunnel nrpt
                { network with routes := network.routes ++ [route] }) } := by
          simp [addStep, addRoute, hr]
        refine ⟨.addRoute none :: as, u, ?_, ?_⟩
        · rw [run_addRoute hw hstep]
          exact hu
        · simpa [addRoute, hr, RouteState.added] using hrest

theorem addTunnelRoutes_run (env : InstallEnv) (tunnel : List RouteSpec)
    (network : PersistedNetworkState) (hw : s.work = some (p, .install [] tunnel nrpt network)) :
    ∃ as u, (routeSystem ι κ).run s as = some u ∧ u.runtime = s.runtime ∧
      u.table = (addTunnelRoutes env tunnel network s.table).2.2 ∧
      u.work = some (p, match addTunnelRoutes env tunnel network s.table with
        | (.error _, network, _) => .installed network false
        | (.ok _, network, _) => .install [] [] nrpt network) := by
  induction tunnel generalizing s network with
  | nil => exact ⟨[], s, rfl, rfl, rfl, hw⟩
  | cons route tunnel ih =>
    unfold addTunnelRoutes
    cases hf : env.failure route with
    | some err =>
      refine ⟨[.addRoute (some err)], _, run_addRoute hw rfl, rfl, ?_, ?_⟩
      · simp [addRoute]
      · simp [addRoute]
    | none =>
      by_cases hr : route ∈ s.table
      · obtain ⟨as, u, hu, hrest⟩ :=
          ih (s := { s with work := some (p, .install [] tunnel nrpt network) }) network rfl
        have hstep : addStep s p none nrpt network [] (route :: tunnel) =
            some { s with work := some (p, .install [] tunnel nrpt network) } := by
          simp [addStep, addRoute, hr]
        refine ⟨.addRoute none :: as, u, ?_, ?_⟩
        · rw [run_addRoute hw hstep]
          exact hu
        · simpa [addRoute, hr] using hrest
      · obtain ⟨as, u, hu, hrest⟩ := ih (s := { s.added route with
            work := some (p, .install [] tunnel nrpt
              { network with routes := network.routes ++ [route] }) }) _ rfl
        have hstep : addStep s p none nrpt network [] (route :: tunnel) =
            some { s.added route with
              work := some (p, .install [] tunnel nrpt
                { network with routes := network.routes ++ [route] }) } := by
          simp [addStep, addRoute, hr]
        refine ⟨.addRoute none :: as, u, ?_, ?_⟩
        · rw [run_addRoute hw hstep]
          exact hu
        · simpa [addRoute, hr, RouteState.added] using hrest

/-- Undisturbed, the steps of an installation come to `install_network_plan`. -/
theorem installNetworkPlan_run (env : InstallEnv) (plan : NetworkPlan) (tunnelLuid : UInt64)
    {t : ι} (hw : s.work = none) (ht : s.runtime.start t = .installing) :
    ∃ as u, (routeSystem ι κ).run s as = some u ∧ u.runtime = s.runtime ∧
      u.table = (installNetworkPlan env plan tunnelLuid {} s.table).2.2 ∧
      u.work = some (.worker t, .installed (installNetworkPlan env plan tunnelLuid {} s.table).2.1
        (installNetworkPlan env plan tunnelLuid {} s.table).1.isOk) := by
  let tunnel := plan.tunnelRoutes.map (tunnelRoute tunnelLuid)
  let begun : RouteState ι κ :=
    { s with work := some (.worker t, .install plan.bypassRoutes tunnel plan.hasNrpt {}) }
  have hbegin : (routeSystem ι κ).step s (.beginInstall t plan tunnelLuid) = some begun :=
    when_eq_some.mpr ⟨⟨hw, ht⟩, rfl⟩
  obtain ⟨as, v, hv, hvr, hvw, hvt⟩ :=
    addBypassRoutes_run (s := begun) env plan.bypassRoutes tunnel {} rfl
  obtain ⟨bs, u, hu, hur, hut, huw⟩ := addTunnelRoutes_run env tunnel _ hvw
  have hrun : (routeSystem ι κ).run s (.beginInstall t plan tunnelLuid :: (as ++ bs)) = some u := by
    simp only [System.run, hbegin, Option.bind_some, System.run_append, hv, hu]
  have hruntime : u.runtime = s.runtime := hur.trans hvr
  rw [hvt] at hut huw
  unfold installNetworkPlan
  dsimp only [begun, tunnel] at hut huw ⊢
  cases hadd : addTunnelRoutes env (plan.tunnelRoutes.map (tunnelRoute tunnelLuid))
      (addBypassRoutes env plan.bypassRoutes {} s.table).1
      (addBypassRoutes env plan.bypassRoutes {} s.table).2 with
  | mk result rest =>
    obtain ⟨network, table⟩ := rest
    rw [hadd] at hut huw
    cases result with
    | error err => exact ⟨_, u, hrun, hruntime, hut, huw⟩
    | ok v =>
      let done : RouteState ι κ := { u with
        work := some (.worker t, if plan.hasNrpt then
          .installed { network with nrpt := true } env.applyNrpt.isOk
          else .installed network true) }
      have hnrpt : (routeSystem ι κ).step u (.applyNrpt env.applyNrpt.isOk) = some done := by
        simp only [routeSystem, routeStep, huw, done]
      refine ⟨.beginInstall t plan tunnelLuid :: (as ++ bs) ++ [.applyNrpt env.applyNrpt.isOk],
        done, ?_, hruntime, ?_, ?_⟩
      · rw [System.run_append, hrun, Option.bind_some, System.run, hnrpt]
        rfl
      · dsimp only [done]
        rw [hut]
        split_ifs
        · rfl
        · rfl
      · dsimp only [done]
        split_ifs
        · rfl
        · rfl

theorem runtime_of_routeStep {u : RouteState ι κ} {a : RouteAction ι κ}
    (h : routeStep s a = some u) :
    u.runtime = s.runtime ∨ ∃ b, a = .runtime b ∧ step s.runtime b = some u.runtime := by
  cases a with
  | runtime b =>
    simp only [routeStep] at h
    split_ifs at h
    obtain ⟨r, hr, rfl⟩ := Option.map_eq_some_iff.mp h
    exact .inr ⟨b, rfl, hr⟩
  | readRecord | beginInstall | otherAdds =>
    obtain ⟨-, rfl⟩ := when_eq_some.mp h
    exact .inl rfl
  | addRoute failure =>
    simp only [routeStep] at h
    split at h
    · unfold addStep at h
      split at h
      · split at h
        all_goals
          cases h
          exact .inl rfl
      · split at h
        all_goals
          cases h
          exact .inl rfl
      · cases h
    · cases h
  | applyNrpt | deleteRoute =>
    simp only [routeStep] at h
    split at h
    · cases h
      exact .inl rfl
    · cases h
  | returns =>
    simp only [routeStep] at h
    split at h
    · obtain ⟨-, rfl⟩ := when_eq_some.mp h
      exact .inl rfl
    · cases h
  | otherDeletes =>
    cases h
    exact .inl rfl

/-- The runs refine those of the runtime, whatever record is there at first. -/
theorem runtime_reachable (h : (routeSystem ι κ).Reachable s) :
    ({ init := fun r => ∃ persisted, r = { initial with persisted := persisted }
       step := step } : System (State ι κ) (Action ι κ)).Reachable s.runtime := by
  induction h with
  | init hi =>
    obtain ⟨persisted, table, rfl⟩ := hi
    exact .init ⟨persisted, rfl⟩
  | step _ _ hu ih =>
    obtain he | ⟨b, -, hb⟩ := runtime_of_routeStep hu
    · rw [he]
      exact ih
    · exact .step ih trivial hb

end Runs

end NulConnect.Windows
