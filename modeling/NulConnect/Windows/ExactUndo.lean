import NulConnect.Windows.Nrpt
import NulConnect.Windows.Recovery

/-! `install_network_plan` where every single addition may fail, and `undo_network_state` on what
it has recorded. -/
namespace NulConnect.Windows
open Net

/-- What the system says to the additions, counted from the first, and to `apply_nrpt`. -/
structure AttemptEnv where
  failure : ℕ → Option Text
  nrpt : NrptEnv

/-- The network of the machine. -/
structure Machine where
  table : Finset RouteSpec
  rules : NrptRules

/-- What an installation leaves; `reached`: it has called `apply_nrpt`. -/
structure InstallRun where
  result : Except Text ℕ
  network : PersistedNetworkState
  machine : Machine
  reached : Bool

/-- The loop over the routes around the tunnel, from the `n`-th addition on. -/
def attemptBypassRoutes (failure : ℕ → Option Text) : ℕ → List RouteSpec →
    PersistedNetworkState → Finset RouteSpec → PersistedNetworkState × Finset RouteSpec
  | _, [], network, table => (network, table)
  | n, route :: rest, network, table =>
    match addRoute (failure n) route table with
    | (.ok true, table) =>
      attemptBypassRoutes failure (n + 1) rest
        { network with routes := network.routes ++ [route] } table
    | (_, table) => attemptBypassRoutes failure (n + 1) rest network table

/-- The loop over the routes into the tunnel, from the `n`-th addition on. -/
def attemptTunnelRoutes (failure : ℕ → Option Text) : ℕ → List RouteSpec →
    PersistedNetworkState → Finset RouteSpec →
      Except Text Unit × PersistedNetworkState × Finset RouteSpec
  | _, [], network, table => (.ok (), network, table)
  | n, route :: rest, network, table =>
    match addRoute (failure n) route table with
    | (.error err, table) => (.error err, network, table)
    | (.ok true, table) =>
      attemptTunnelRoutes failure (n + 1) rest
        { network with routes := network.routes ++ [route] } table
    | (.ok false, table) => attemptTunnelRoutes failure (n + 1) rest network table

def Machine.installNetworkPlan (env : AttemptEnv) (plan : NetworkPlan) (tunnelLuid : UInt64)
    (network : PersistedNetworkState) (m : Machine) : InstallRun :=
  let (network, table) := attemptBypassRoutes env.failure 0 plan.bypassRoutes network m.table
  match attemptTunnelRoutes env.failure plan.bypassRoutes.length
      (plan.tunnelRoutes.map (tunnelRoute tunnelLuid)) network table with
  | (.error err, network, table) => ⟨.error err, network, { m with table := table }, false⟩
  | (.ok _, network, table) =>
    match plan.dnsServer with
    | none => ⟨.ok 0, network, { m with table := table }, false⟩
    | some dnsServer =>
      if plan.managedDomains = [] then ⟨.ok 0, network, { m with table := table }, false⟩
      else
        let (result, rules) := applyNrpt env.nrpt plan.managedDomains dnsServer m.rules
        ⟨result, { network with nrpt := true }, ⟨table, rules⟩, true⟩

def Machine.undoNetworkState (network : PersistedNetworkState) (m : Machine) : Machine where
  table := Windows.undoNetworkState network m.table
  rules := if network.nrpt then clearNrpt m.rules else m.rules

/-- The record lists what the table holds beyond `table`, each route once. -/
structure Records (table : Finset RouteSpec) (network : PersistedNetworkState)
    (table' : Finset RouteSpec) : Prop where
  distinct : network.routes.Nodup
  holds : ∀ route, route ∈ table' ↔ route ∈ table ∨ route ∈ network.routes
  new : ∀ route ∈ network.routes, route ∉ table

variable {table table' : Finset RouteSpec} {network : PersistedNetworkState} {route : RouteSpec}
  {failure : ℕ → Option Text}

theorem Records.nrpt (h : Records table network table') (nrpt : Bool) :
    Records table { network with nrpt := nrpt } table' :=
  ⟨h.distinct, h.holds, h.new⟩

/-- A new route goes into the table and onto the record. -/
theorem Records.insert (h : Records table network table') (hroute : route ∉ table') :
    Records table { network with routes := network.routes ++ [route] } (insert route table') := by
  have hold : route ∉ table ∧ route ∉ network.routes := by
    rw [h.holds, not_or] at hroute
    exact hroute
  constructor
  · have hdisjoint : List.Disjoint network.routes [route] := by
      intro r hr hsingle
      rw [List.mem_singleton] at hsingle
      exact hold.2 (hsingle ▸ hr)
    exact h.distinct.append (List.nodup_singleton route) hdisjoint
  · intro r
    rw [Finset.mem_insert, h.holds, List.mem_append, List.mem_singleton]
    tauto
  · intro r hr
    cases List.mem_append.mp hr with
    | inl hold' => exact h.new r hold'
    | inr hsingle =>
      rw [List.mem_singleton] at hsingle
      rw [hsingle]
      exact hold.1

/-- An addition that fails or finds its route in the table leaves the table alone. -/
theorem addRoute_cases (failure : Option Text) (route : RouteSpec) (table : Finset RouteSpec) :
    (∃ err, addRoute failure route table = (.error err, table)) ∨
      addRoute failure route table = (.ok false, table) ∨
        route ∉ table ∧ addRoute failure route table = (.ok true, insert route table) := by
  cases failure with
  | some err => exact Or.inl ⟨err, rfl⟩
  | none =>
    by_cases hroute : route ∈ table
    · exact Or.inr (Or.inl (if_pos hroute))
    · exact Or.inr (Or.inr ⟨hroute, if_neg hroute⟩)

theorem Records.attemptBypassRoutes (h : Records table network table') (n : ℕ)
    (routes : List RouteSpec) :
    Records table (attemptBypassRoutes failure n routes network table').1
      (attemptBypassRoutes failure n routes network table').2 := by
  induction routes generalizing n network table' with
  | nil => exact h
  | cons route rest ih =>
    obtain ⟨err, hadd⟩ | hadd | ⟨hnew, hadd⟩ := addRoute_cases (failure n) route table'
    · simp only [Windows.attemptBypassRoutes, hadd]
      exact ih h (n + 1)
    · simp only [Windows.attemptBypassRoutes, hadd]
      exact ih h (n + 1)
    · simp only [Windows.attemptBypassRoutes, hadd]
      exact ih (h.insert hnew) (n + 1)

theorem Records.attemptTunnelRoutes (h : Records table network table') (n : ℕ)
    (routes : List RouteSpec) :
    Records table (attemptTunnelRoutes failure n routes network table').2.1
      (attemptTunnelRoutes failure n routes network table').2.2 := by
  induction routes generalizing n network table' with
  | nil => exact h
  | cons route rest ih =>
    obtain ⟨err, hadd⟩ | hadd | ⟨hnew, hadd⟩ := addRoute_cases (failure n) route table'
    · simp only [Windows.attemptTunnelRoutes, hadd]
      exact h
    · simp only [Windows.attemptTunnelRoutes, hadd]
      exact ih h (n + 1)
    · simp only [Windows.attemptTunnelRoutes, hadd]
      exact ih (h.insert hnew) (n + 1)

theorem Records.undone (h : Records table network table') :
    Windows.undoNetworkState network table' = table := by
  ext route
  rw [mem_undoNetworkState, h.holds]
  constructor
  · exact fun hroute => hroute.1.resolve_right hroute.2
  · exact fun hroute => ⟨Or.inl hroute, fun hrecorded => h.new route hrecorded hroute⟩

theorem Records.recorded (h : Records table network table') :
    route ∈ network.routes ↔ route ∈ table' ∧ route ∉ table := by
  rw [h.holds]
  constructor
  · exact fun hroute => ⟨Or.inr hroute, h.new route hroute⟩
  · exact fun hroute => hroute.1.resolve_left hroute.2

section PerRoute

variable {env : InstallEnv}

theorem attemptBypassRoutes_eq {n : ℕ} {routes : List RouteSpec}
    (h : ∀ i, ∀ hi : i < routes.length, failure (n + i) = env.failure routes[i]) :
    attemptBypassRoutes failure n routes network table =
      addBypassRoutes env routes network table := by
  induction routes generalizing n network table with
  | nil => rfl
  | cons route rest ih =>
    have hfirst : failure n = env.failure route := h 0 (Nat.zero_lt_succ _)
    have hrest : ∀ i, ∀ hi : i < rest.length, failure (n + 1 + i) = env.failure rest[i] := by
      intro i hi
      have hshift := h (i + 1) (Nat.succ_lt_succ hi)
      rwa [show n + (i + 1) = n + 1 + i by omega] at hshift
    obtain ⟨err, hadd⟩ | hadd | ⟨-, hadd⟩ := addRoute_cases (failure n) route table
    all_goals
      rw [hfirst] at hadd
      simp only [attemptBypassRoutes, addBypassRoutes, hfirst, hadd, ih hrest]

theorem attemptTunnelRoutes_eq {n : ℕ} {routes : List RouteSpec}
    (h : ∀ i, ∀ hi : i < routes.length, failure (n + i) = env.failure routes[i]) :
    attemptTunnelRoutes failure n routes network table =
      addTunnelRoutes env routes network table := by
  induction routes generalizing n network table with
  | nil => rfl
  | cons route rest ih =>
    have hfirst : failure n = env.failure route := h 0 (Nat.zero_lt_succ _)
    have hrest : ∀ i, ∀ hi : i < rest.length, failure (n + 1 + i) = env.failure rest[i] := by
      intro i hi
      have hshift := h (i + 1) (Nat.succ_lt_succ hi)
      rwa [show n + (i + 1) = n + 1 + i by omega] at hshift
    obtain ⟨err, hadd⟩ | hadd | ⟨-, hadd⟩ := addRoute_cases (failure n) route table
    all_goals
      rw [hfirst] at hadd
      simp only [attemptTunnelRoutes, addTunnelRoutes, hfirst, hadd, ih hrest]

/-- Where whether an addition fails depends on the route alone, this is the installation with what
`apply_nrpt` gives taken from outside. -/
theorem installNetworkPlan_perRoute (env : InstallEnv) (nrpt : NrptEnv) (plan : NetworkPlan)
    (tunnelLuid : UInt64) (network : PersistedNetworkState) (m : Machine)
    (happly : ∀ dnsServer, plan.dnsServer = some dnsServer →
      env.applyNrpt = (applyNrpt nrpt plan.managedDomains dnsServer m.rules).1) :
    let routes := plan.bypassRoutes ++ plan.tunnelRoutes.map (tunnelRoute tunnelLuid)
    let run :=
      m.installNetworkPlan ⟨fun n => routes[n]?.bind env.failure, nrpt⟩ plan tunnelLuid network
    installNetworkPlan env plan tunnelLuid network m.table =
      (run.result, run.network, run.machine.table) := by
  intro routes run
  have hbypass : attemptBypassRoutes (fun n => routes[n]?.bind env.failure) 0 plan.bypassRoutes
      network m.table = addBypassRoutes env plan.bypassRoutes network m.table :=
    attemptBypassRoutes_eq fun i hi => by
      show routes[0 + i]?.bind env.failure = _
      rw [Nat.zero_add, List.getElem?_append_left hi, List.getElem?_eq_getElem hi, Option.bind_some]
  have htunnel : ∀ network table, attemptTunnelRoutes (fun n => routes[n]?.bind env.failure)
      plan.bypassRoutes.length (plan.tunnelRoutes.map (tunnelRoute tunnelLuid)) network table =
      addTunnelRoutes env (plan.tunnelRoutes.map (tunnelRoute tunnelLuid)) network table :=
    fun network table => attemptTunnelRoutes_eq fun i hi => by
      show routes[plan.bypassRoutes.length + i]?.bind env.failure = _
      rw [List.getElem?_append_right (by omega), Nat.add_sub_cancel_left,
        List.getElem?_eq_getElem hi, Option.bind_some]
  simp only [run, Machine.installNetworkPlan, installNetworkPlan, hbypass, htunnel]
  cases addBypassRoutes env plan.bypassRoutes network m.table with
  | mk network table =>
    dsimp only
    cases addTunnelRoutes env (plan.tunnelRoutes.map (tunnelRoute tunnelLuid)) network table with
    | mk result rest =>
      cases result with
      | error err => rfl
      | ok done =>
        cases hdns : plan.dnsServer with
        | none => simp [NetworkPlan.hasNrpt, hdns]
        | some dnsServer =>
          by_cases hdomains : plan.managedDomains = []
          · simp [NetworkPlan.hasNrpt, hdomains]
          · simp [NetworkPlan.hasNrpt, hdns, hdomains, happly dnsServer hdns]

end PerRoute

end NulConnect.Windows
