import NulConnect.Windows.NetworkPlan

/-! When the routes around the tunnel keep the addresses of the gateway nodes and of the portal
out of it. -/
namespace NulConnect.Windows
open Net Routing

def RouteSpec.Covers (route : RouteSpec) (ip : Ipv4Addr) : Prop :=
  ip &&& netmask 32 route.prefixLen.toNat = route.destination &&& netmask 32 route.prefixLen.toNat

/-- No route into the tunnel is selected for the address; the tunnel has the lower metric. -/
def Direct (tunnelLuid : UInt64) (table : Finset RouteSpec) (ip : Ipv4Addr) : Prop :=
  ∀ route, Selected RouteSpec.Covers (fun r => r.prefixLen.toNat)
    (fun r r' => r.interfaceLuid = tunnelLuid ∨ ¬ r'.interfaceLuid = tunnelLuid)
    (table : Set RouteSpec) ip route → ¬ route.interfaceLuid = tunnelLuid

/-- The addresses of the gateway nodes of the resource and of `server_host`. -/
def ownAddresses (env : PlanEnv) (config : WireConfig) : List Ipv4Addr :=
  match env.endpoints (planServiceHost config) with
  | .error _ => []
  | .ok endpoints => bypassAddresses env config endpoints

/-- The prefixes of the default list, of the configuration and of the resolver. -/
def Managed (env : PlanEnv) (config : WireConfig) (route : Ipv4Addr × UInt8) : Prop :=
  (∃ cidr ∈ defaultManagedCidrs ++ config.managedRouteCidrs, parseCidr cidr = .ok route) ∨
    route ∈ dnsRoute env (Ipv4Addr.parse (trim config.dnsAddr))

/-- The installation went through: every addition it attempted was reported as successful, and
there was a physical route for every address that is not a loopback address. -/
structure Installed (env : PlanEnv) (config : WireConfig) (install : InstallEnv)
    (tunnelLuid : UInt64) (plan : NetworkPlan) : Prop where
  plan_eq : buildNetworkPlan env config = .ok plan
  bypass_added : ∀ route ∈ plan.bypassRoutes, install.failure route = none
  tunnel_added : ∀ route ∈ plan.tunnelRoutes, install.failure (tunnelRoute tunnelLuid route) = none
  physical : ∀ ip ∈ ownAddresses env config, ¬ isLoopback ip →
    ∃ interfaceLuid nextHop, env.bestRoute ip = some (interfaceLuid, nextHop) ∧
      interfaceLuid ≠ tunnelLuid

/-- The address gets a route of its own: some managed prefix covers it. -/
def Bypassed (env : PlanEnv) (config : WireConfig) (ip : Ipv4Addr) : Prop :=
  ip ≠ 0 ∧ ∃ route, Managed env config route ∧ ip &&& netmask 32 route.2.toNat = route.1

/-- Every route into the tunnel that covers the address, there before or managed, is shorter
than the route of the address, or than a physical route that was there before. -/
def OutdoneFor (env : PlanEnv) (config : WireConfig) (tunnelLuid : UInt64)
    (table : Finset RouteSpec) (ip : Ipv4Addr) : Prop :=
  ∀ route, (route ∈ table ∧ route.interfaceLuid = tunnelLuid ∨
      ∃ managed, Managed env config managed ∧ tunnelRoute tunnelLuid managed = route) →
    route.Covers ip →
    Bypassed env config ip ∧ route.prefixLen.toNat < 32 ∨
      ∃ r ∈ table, ¬ r.interfaceLuid = tunnelLuid ∧ r.Covers ip ∧
        route.prefixLen.toNat < r.prefixLen.toNat

section Additions

variable (env : InstallEnv) {routes : List RouteSpec}

theorem addRoute_of_succeeds (route : RouteSpec) (table : Finset RouteSpec) :
    addRoute none route table = (.ok (decide (route ∉ table)), insert route table) := by
  unfold addRoute
  by_cases hr : route ∈ table
  · simp [hr]
  · simp [hr]

theorem addBypassRoutes_table (h : ∀ route ∈ routes, env.failure route = none)
    (network : PersistedNetworkState) (table : Finset RouteSpec) :
    (addBypassRoutes env routes network table).2 = table ∪ routes.toFinset := by
  induction routes generalizing network table with
  | nil => simp [addBypassRoutes]
  | cons route routes ih =>
    obtain ⟨hr, hrs⟩ := List.forall_mem_cons.mp h
    have hset : insert route table ∪ routes.toFinset = table ∪ (route :: routes).toFinset := by
      rw [List.toFinset_cons, Finset.insert_union, Finset.union_insert]
    unfold addBypassRoutes
    rw [hr, addRoute_of_succeeds route table, ← hset]
    cases decide (route ∉ table) with
    | true => exact ih hrs _ _
    | false => exact ih hrs _ _

theorem addTunnelRoutes_table (h : ∀ route ∈ routes, env.failure route = none)
    (network : PersistedNetworkState) (table : Finset RouteSpec) :
    ∃ network', addTunnelRoutes env routes network table =
      (.ok (), network', table ∪ routes.toFinset) := by
  induction routes generalizing network table with
  | nil => exact ⟨network, by simp [addTunnelRoutes]⟩
  | cons route routes ih =>
    obtain ⟨hr, hrs⟩ := List.forall_mem_cons.mp h
    have hset : insert route table ∪ routes.toFinset = table ∪ (route :: routes).toFinset := by
      rw [List.toFinset_cons, Finset.insert_union, Finset.union_insert]
    unfold addTunnelRoutes
    rw [hr, addRoute_of_succeeds route table, ← hset]
    cases decide (route ∉ table) with
    | true => exact ih hrs _ _
    | false => exact ih hrs _ _

/-- Where no addition fails, the table gets the routes of the plan. -/
theorem mem_installNetworkPlan {plan : NetworkPlan} {tunnelLuid : UInt64}
    (hb : ∀ route ∈ plan.bypassRoutes, env.failure route = none)
    (ht : ∀ route ∈ plan.tunnelRoutes, env.failure (tunnelRoute tunnelLuid route) = none)
    (network : PersistedNetworkState) (table : Finset RouteSpec) (route : RouteSpec) :
    route ∈ (installNetworkPlan env plan tunnelLuid network table).2.2 ↔
      route ∈ table ∨ route ∈ plan.bypassRoutes ∨
        ∃ managed ∈ plan.tunnelRoutes, tunnelRoute tunnelLuid managed = route := by
  have hroutes : ∀ route ∈ plan.tunnelRoutes.map (tunnelRoute tunnelLuid),
      env.failure route = none := by
    intro route hr
    obtain ⟨managed, hm, rfl⟩ := List.mem_map.mp hr
    exact ht managed hm
  have htable := addBypassRoutes_table env hb network table
  obtain ⟨network', htunnel⟩ := addTunnelRoutes_table env hroutes
    (addBypassRoutes env plan.bypassRoutes network table).1 (table ∪ plan.bypassRoutes.toFinset)
  have hall : (installNetworkPlan env plan tunnelLuid network table).2.2 =
      table ∪ plan.bypassRoutes.toFinset ∪
        (plan.tunnelRoutes.map (tunnelRoute tunnelLuid)).toFinset := by
    unfold installNetworkPlan
    simp only [htable, htunnel]
    split_ifs
    · rfl
    · rfl
  rw [hall]
  simp

end Additions

section Plan

variable {env : PlanEnv} {config : WireConfig} {ip : Ipv4Addr} {route : RouteSpec}

theorem mem_planTunnelRoutes {managed : Ipv4Addr × UInt8} :
    managed ∈ planTunnelRoutes env config ↔ Managed env config managed := by
  have hok : ∀ cidr, (parseCidr cidr).toOption = some managed ↔ parseCidr cidr = .ok managed := by
    intro cidr
    cases parseCidr cidr <;> simp [Except.toOption]
  unfold planTunnelRoutes Managed
  rw [mem_insertionSort_destutter, List.mem_append, List.mem_filterMap]
  simp only [hok]

theorem toNat_ofNat_of_le {n : ℕ} (h : n ≤ 32) : (UInt8.ofNat n).toNat = n := by
  rw [UInt8.toNat_ofNat']
  omega

/-- `parse_cidr` clears the bits behind the prefix. -/
theorem masked_of_parseCidr {cidr : Text} {managed : Ipv4Addr × UInt8}
    (h : parseCidr cidr = .ok managed) :
    managed.1 &&& netmask 32 managed.2.toNat = managed.1 := by
  revert h
  unfold parseCidr
  intro h
  dsimp only at h
  split at h
  · cases h
  · cases h
  · split_ifs at h with hp
    have hle : _ ≤ 32 := Nat.le_of_not_lt fun hlt => hp (.inr hlt)
    cases h
    rw [toNat_ofNat_of_le hle, and_netmask_and_netmask]

theorem masked_of_managed {managed : Ipv4Addr × UInt8} (h : Managed env config managed) :
    managed.1 &&& netmask 32 managed.2.toNat = managed.1 := by
  obtain ⟨cidr, -, hcidr⟩ | hdns := h
  · exact masked_of_parseCidr hcidr
  · unfold dnsRoute at hdns
    split at hdns
    · cases hdns
    · split_ifs at hdns
      · cases hdns
      · rw [List.mem_singleton.mp hdns]
        exact and_netmask_self

theorem tunnelRoute_covers_iff {managed : Ipv4Addr × UInt8} (h : Managed env config managed)
    (tunnelLuid : UInt64) : (tunnelRoute tunnelLuid managed).Covers ip ↔
      ip &&& netmask 32 managed.2.toNat = managed.1 := by
  unfold RouteSpec.Covers tunnelRoute
  dsimp only
  rw [masked_of_managed h]

theorem coveredBy_iff : coveredBy (planTunnelRoutes env config) ip = true ↔
    ∃ managed, Managed env config managed ∧ ip &&& netmask 32 managed.2.toNat = managed.1 := by
  unfold coveredBy
  simp only [List.any_eq_true, decide_eq_true_eq, mem_planTunnelRoutes]

theorem bypassRoute_eq_some_iff :
    bypassRoute env (planTunnelRoutes env config) ip = some route ↔
      ¬ isLoopback ip ∧ Bypassed env config ip ∧ route.destination = ip ∧ route.prefixLen = 32 ∧
        env.bestRoute ip = some (route.interfaceLuid, route.nextHop) := by
  unfold bypassRoute Bypassed
  simp only [← coveredBy_iff, isUnspecified, decide_eq_true_eq]
  split_ifs with hexcl hcov
  · tauto
  · obtain ⟨luid, destination, len, hop⟩ := route
    simp only [Option.map_eq_some_iff, Prod.exists, RouteSpec.mk.injEq]
    constructor
    · rintro ⟨luid', hop', hbest, rfl, rfl, rfl, rfl⟩
      exact ⟨by tauto, ⟨by tauto, by tauto⟩, rfl, rfl, hbest⟩
    · rintro ⟨-, -, rfl, rfl, hbest⟩
      exact ⟨luid, hop, hbest, rfl, rfl, rfl, rfl⟩
  · tauto

/-- What `build_network_plan` gives. -/
theorem plan_of_buildNetworkPlan {plan : NetworkPlan}
    (h : buildNetworkPlan env config = .ok plan) :
    plan.tunnelRoutes = planTunnelRoutes env config ∧
      ∀ route, route ∈ plan.bypassRoutes ↔ ∃ ip ∈ ownAddresses env config,
        bypassRoute env (planTunnelRoutes env config) ip = some route := by
  unfold buildNetworkPlan at h
  unfold ownAddresses
  dsimp only at h
  cases hend : env.endpoints (planServiceHost config) with
  | error err =>
    rw [hend] at h
    cases h
  | ok endpoints =>
    rw [hend] at h
    cases h
    refine ⟨rfl, fun route => ?_⟩
    rw [mem_insertionSort_destutter, List.mem_filterMap]

end Plan

section Direct

variable {env : PlanEnv} {config : WireConfig} {install : InstallEnv} {tunnelLuid : UInt64}
  {plan : NetworkPlan} {ip : Ipv4Addr}

theorem Installed.mem_iff (h : Installed env config install tunnelLuid plan)
    (network : PersistedNetworkState) (table : Finset RouteSpec) (route : RouteSpec) :
    route ∈ (installNetworkPlan install plan tunnelLuid network table).2.2 ↔
      route ∈ table ∨ (∃ ip ∈ ownAddresses env config,
          bypassRoute env (planTunnelRoutes env config) ip = some route) ∨
        ∃ managed, Managed env config managed ∧ tunnelRoute tunnelLuid managed = route := by
  obtain ⟨ht, hb⟩ := plan_of_buildNetworkPlan h.plan_eq
  rw [mem_installNetworkPlan install h.bypass_added h.tunnel_added, hb, ht]
  simp only [mem_planTunnelRoutes]

/-- The routes around the tunnel do not lead into it. -/
theorem Installed.bypass_physical (h : Installed env config install tunnelLuid plan)
    {route : RouteSpec} (hip : ip ∈ ownAddresses env config)
    (hroute : bypassRoute env (planTunnelRoutes env config) ip = some route) :
    ¬ route.interfaceLuid = tunnelLuid := by
  obtain ⟨hloop, -, -, -, hbest⟩ := bypassRoute_eq_some_iff.mp hroute
  obtain ⟨luid, hop, hbest', hne⟩ := h.physical ip hip hloop
  rw [hbest] at hbest'
  cases hbest'
  exact hne

theorem covers_iff_of_host {route : RouteSpec} (h : route.prefixLen = 32) :
    route.Covers ip ↔ ip = route.destination := by
  unfold RouteSpec.Covers
  rw [h, show (32 : UInt8).toNat = 32 from rfl, and_netmask_self, and_netmask_self]

/-- After the installation no route into the tunnel is selected for an own address exactly if
the covering routes into the tunnel are outdone. -/
theorem Installed.direct_iff (h : Installed env config install tunnelLuid plan)
    (network : PersistedNetworkState) (table : Finset RouteSpec)
    (hip : ip ∈ ownAddresses env config) (hloop : ¬ isLoopback ip) :
    Direct tunnelLuid (installNetworkPlan install plan tunnelLuid network table).2.2 ip ↔
      OutdoneFor env config tunnelLuid table ip := by
  have hbound : ∃ b, ∀ r ∈ ((installNetworkPlan install plan tunnelLuid network table).2.2 :
      Set RouteSpec), r.prefixLen.toNat ≤ b :=
    ⟨255, fun r _ => Nat.le_of_lt_succ r.prefixLen.toNat_lt⟩
  refine (not_selected_bad_iff hbound).trans ?_
  simp only [Finset.mem_coe, h.mem_iff]
  constructor
  · intro hout route hroute hcover
    have hbad : route.interfaceLuid = tunnelLuid := by
      obtain ⟨-, hr⟩ | ⟨managed, -, rfl⟩ := hroute
      · exact hr
      · rfl
    have hmem : route ∈ table ∨ (∃ ip ∈ ownAddresses env config,
          bypassRoute env (planTunnelRoutes env config) ip = some route) ∨
        ∃ managed, Managed env config managed ∧ tunnelRoute tunnelLuid managed = route :=
      hroute.imp And.left .inr
    obtain ⟨r, hr, hgood, hrcover, hlt⟩ := hout route hmem hbad hcover
    obtain hr | ⟨ip', -, hr⟩ | ⟨managed, -, rfl⟩ := hr
    · exact .inr ⟨r, hr, hgood, hrcover, hlt⟩
    · obtain ⟨-, hby, hdest, hlen, -⟩ := bypassRoute_eq_some_iff.mp hr
      rw [covers_iff_of_host hlen, hdest] at hrcover
      subst hrcover
      rw [hlen] at hlt
      exact .inl ⟨hby, hlt⟩
    · exact absurd rfl hgood
  · intro hout route hroute hbad hcover
    have hmem : route ∈ table ∧ route.interfaceLuid = tunnelLuid ∨
        ∃ managed, Managed env config managed ∧ tunnelRoute tunnelLuid managed = route := by
      obtain hr | ⟨ip', hip', hr⟩ | hr := hroute
      · exact .inl ⟨hr, hbad⟩
      · exact absurd hbad (h.bypass_physical hip' hr)
      · exact .inr hr
    obtain ⟨hby, hlt⟩ | ⟨r, hr, hgood, hrcover, hlt⟩ := hout route hmem hcover
    · -- the route of the address itself
      obtain ⟨luid, hop, hbest, hne⟩ := h.physical ip hip hloop
      have hsome : bypassRoute env (planTunnelRoutes env config) ip = some ⟨luid, ip, 32, hop⟩ :=
        bypassRoute_eq_some_iff.mpr ⟨hloop, hby, rfl, rfl, hbest⟩
      exact ⟨_, .inr (.inl ⟨ip, hip, hsome⟩), hne, (covers_iff_of_host rfl).mpr rfl, hlt⟩
    · exact ⟨r, .inl hr, hgood, hrcover, hlt⟩

end Direct

end NulConnect.Windows
