import NulConnect.Windows.Bypass
import NulConnect.Macos.NodeRoutes

/-! Whether the tunnel carries its own transport, on Windows and on macOS. -/
namespace NulConnect
open Net Routing

/-- The addresses of the gateway nodes, and on Windows of the portal, stay out of the tunnel
exactly where every route into it that covers them is outdone, and on macOS where their host
routes were free for them. -/
theorem direct_iff_outdone_and_direct_iff_pinFree (env : Windows.PlanEnv)
    (config : Windows.WireConfig) (install : Windows.InstallEnv) (tunnelLuid : UInt64)
    (plan : Windows.NetworkPlan) (network : Windows.PersistedNetworkState)
    (table : Finset Windows.RouteSpec) (destination : List Text → Option (Network 32))
    (routeConfig : Macos.RouteConfig) (routeEnv : Macos.RouteEnv) (nodeRoutes : List Text)
    (s : Macos.RouteState (Network 32)) :
    (Windows.Installed env config install tunnelLuid plan →
      ∀ ip ∈ Windows.ownAddresses env config, ¬ Windows.isLoopback ip →
        (Windows.Direct tunnelLuid
            (Windows.installNetworkPlan install plan tunnelLuid network table).2.2 ip ↔
          Windows.OutdoneFor env config tunnelLuid table ip)) ∧
    (Macos.Installed destination routeConfig routeEnv nodeRoutes →
      ∀ ip ∈ Macos.nodeAddresses routeEnv,
        destination ["-host".toList, ip.toText] = some (.host ip) →
        (Macos.Direct routeEnv.tunName
            (Macos.setupManagedTunRoutes destination routeConfig routeEnv s).2.table ip ↔
          Macos.PinFree destination routeConfig routeEnv s ip)) := by
  constructor
  · intro h ip hip hloop
    exact h.direct_iff network table hip hloop
  · intro h ip hip hdest
    exact h.direct_iff s hip hdest

section Examples

private def node : Ipv4Addr := .ofOctets 203 0 113 7

private def router : Ipv4Addr := .ofOctets 192 168 1 1

private def wireConfig (cidr : Text) : Windows.WireConfig where
  serverHost := "203.0.113.7".toList
  serviceHost := []
  managedRouteCidrs := [cidr]
  dnsAddr := "10.0.0.53".toList
  managedDomains := []

private def planEnv : Windows.PlanEnv where
  endpoints _ := .ok ["203.0.113.7:443".toList]
  lookup _ := []
  bestRoute _ := some (1, router)

private def installEnv : Windows.InstallEnv where
  failure _ := none
  applyNrpt := .ok 0

/-- The plan where the configuration has one managed prefix. -/
private def nodePlan (managed : Ipv4Addr × UInt8) : Windows.NetworkPlan where
  tunnelRoutes := [(Ipv4Addr.ofOctets 10 0 0 53, 32), (Ipv4Addr.ofOctets 198 18 0 0, 15), managed]
  bypassRoutes := [⟨1, node, 32, router⟩]
  dnsServer := some (Ipv4Addr.ofOctets 10 0 0 53)
  managedDomains := []

private theorem wire_installed {cidr : Text} {managed : Ipv4Addr × UInt8}
    (h : Windows.buildNetworkPlan planEnv (wireConfig cidr) = .ok (nodePlan managed)) :
    Windows.Installed planEnv (wireConfig cidr) installEnv 9 (nodePlan managed) where
  plan_eq := h
  bypass_added _ _ := rfl
  tunnel_added _ _ := rfl
  physical _ _ _ := ⟨1, router, rfl, by decide⟩

private theorem plan_net : Windows.buildNetworkPlan planEnv (wireConfig "203.0.113.0/24".toList) =
    .ok (nodePlan (Ipv4Addr.ofOctets 203 0 113 0, 24)) := by
  rfl

private theorem plan_host : Windows.buildNetworkPlan planEnv (wireConfig "203.0.113.7/32".toList) =
    .ok (nodePlan (node, 32)) := by
  rfl

private theorem mem_ownAddresses (cidr : Text) :
    node ∈ Windows.ownAddresses planEnv (wireConfig cidr) := by
  change node ∈ Windows.bypassAddresses planEnv (wireConfig []) _
  decide

/-- The route command, on the texts of single addresses and of networks. -/
private def routeDestination : List Text → Option (Network 32)
  | [kind, addr] =>
    if kind = "-host".toList then (Ipv4Addr.parse addr).map .host
    else do
      let (addr, length) ← splitOnce '/' addr
      let ip ← Ipv4Addr.parse addr
      let length ← parseU8 length
      if h : length ≤ 32 then
        some ⟨ip &&& netmask 32 length, length, h, and_netmask_and_netmask length⟩
      else none
  | _ => none

private def routeConfig (cidr : Text) : Macos.RouteConfig where
  setupRoutes := true
  managedRouteCidrs := [cidr]
  dnsAddr := []

private def routeEnv : Macos.RouteEnv where
  tunName := "utun5".toList
  fakeDns := false
  resolvers := .ok ()
  dnsGateway := .ok "192.168.1.1".toList
  endpoints := .ok ["203.0.113.7:443".toList]
  lookup _ := []
  gateway := .ok "192.168.1.1".toList
  tunFailure _ := none
  nodeFailure _ := none
  write := .ok ()

private def emptyTable : Macos.RouteState (Network 32) where
  table _ := none
  record := none
  deleted := []

private theorem routes_installed {cidr : Text}
    (h : Macos.addable routeDestination routeEnv.tunFailure cidr)
    (hc : Macos.tunRoutes (routeConfig cidr) routeEnv = [cidr]) :
    Macos.Installed routeDestination (routeConfig cidr) routeEnv ["203.0.113.7/32".toList] where
  setup_routes := rfl
  resolvers := rfl
  node_routes := by rfl
  gateway := ⟨_, rfl⟩
  tun_added := by
    rw [hc]
    intro c hm
    rw [List.mem_singleton.mp (List.mem_of_mem_filter hm)]
    exact h
  node_added := by decide

/-- A managed prefix around the node leaves the node out of the tunnel. -/
theorem direct_of_longer_prefix :
    Windows.Direct 9 (Windows.installNetworkPlan installEnv
      (nodePlan (Ipv4Addr.ofOctets 203 0 113 0, 24)) 9 {} ∅).2.2 node ∧
    Macos.Direct "utun5".toList (Macos.setupManagedTunRoutes routeDestination
      (routeConfig "203.0.113.0/24".toList) routeEnv emptyTable).2.table node := by
  have hmanaged : ∀ managed, Windows.Managed planEnv (wireConfig "203.0.113.0/24".toList) managed →
      managed ∈ (nodePlan (Ipv4Addr.ofOctets 203 0 113 0, 24)).tunnelRoutes := by
    intro managed hm
    rw [(Windows.plan_of_buildNetworkPlan plan_net).1]
    exact Windows.mem_planTunnelRoutes.mpr hm
  have hboth := direct_iff_outdone_and_direct_iff_pinFree planEnv
    (wireConfig "203.0.113.0/24".toList) installEnv 9 (nodePlan (Ipv4Addr.ofOctets 203 0 113 0, 24))
    {} ∅ routeDestination (routeConfig "203.0.113.0/24".toList) routeEnv ["203.0.113.7/32".toList]
    emptyTable
  constructor
  · refine (hboth.1 (wire_installed plan_net) node (mem_ownAddresses _) (by decide)).mpr ?_
    rintro route (⟨hr, -⟩ | ⟨managed, hm, rfl⟩) hcover
    · exact absurd hr (Finset.notMem_empty _)
    · have hcov := (Windows.tunnelRoute_covers_iff hm 9).mp hcover
      refine .inl ⟨⟨by decide, managed, hm, hcov⟩, ?_⟩
      have hlen : (nodePlan (Ipv4Addr.ofOctets 203 0 113 0, 24)).tunnelRoutes.all fun m =>
          node &&& netmask 32 m.2.toNat = m.1 → m.2.toNat < 32 := by decide
      have hlt := List.all_eq_true.mp hlen managed (hmanaged managed hm)
      exact of_decide_eq_true hlt hcov
  · refine (hboth.2 (routes_installed (by rfl) (by rfl)) node
      (by decide) (by decide)).mpr ?_
    constructor
    · decide
    · intro _
      decide

/-- A managed prefix of the node alone draws the node into the tunnel: on Windows by its metric,
on macOS because the direct route of the node finds it there. -/
theorem not_direct_of_equal_prefix :
    (Windows.Installed planEnv (wireConfig "203.0.113.7/32".toList) installEnv 9
        (nodePlan (node, 32)) ∧
      node ∈ Windows.ownAddresses planEnv (wireConfig "203.0.113.7/32".toList) ∧
      ¬ Windows.isLoopback node ∧
      ¬ Windows.Direct 9
        (Windows.installNetworkPlan installEnv (nodePlan (node, 32)) 9 {} ∅).2.2 node) ∧
    Macos.Installed routeDestination (routeConfig "203.0.113.7/32".toList) routeEnv
        ["203.0.113.7/32".toList] ∧
      node ∈ Macos.nodeAddresses routeEnv ∧
      ¬ Macos.Direct "utun5".toList (Macos.setupManagedTunRoutes routeDestination
        (routeConfig "203.0.113.7/32".toList) routeEnv emptyTable).2.table node := by
  have hwire := wire_installed plan_host
  have hroutes : Macos.Installed routeDestination (routeConfig "203.0.113.7/32".toList) routeEnv
      ["203.0.113.7/32".toList] := routes_installed (by rfl) (by rfl)
  have hnode : node ∈ Macos.nodeAddresses routeEnv := by decide
  refine ⟨⟨hwire, mem_ownAddresses _, by decide, ?_⟩, hroutes, hnode, ?_⟩
  · rw [hwire.direct_iff {} ∅ (mem_ownAddresses _) (by decide)]
    intro hout
    have hmanaged : Windows.Managed planEnv (wireConfig "203.0.113.7/32".toList) (node, 32) := by
      rw [← Windows.mem_planTunnelRoutes, ← (Windows.plan_of_buildNetworkPlan plan_host).1]
      decide
    obtain ⟨-, hlt⟩ | ⟨r, hr, -⟩ := hout (Windows.tunnelRoute 9 (node, 32))
      (.inr ⟨_, hmanaged, rfl⟩) ((Windows.covers_iff_of_host rfl).mpr rfl)
    · exact absurd hlt (by decide)
    · exact absurd hr (Finset.notMem_empty _)
  · have hdirect := hroutes.direct_iff emptyTable hnode (by rfl)
    intro hd
    obtain ⟨-, hfree⟩ := hdirect.mp hd
    exact hfree (by decide) "203.0.113.7/32".toList (by decide) (by decide)

end Examples

end NulConnect
