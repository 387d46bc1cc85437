import NulConnect.Windows.Runtime
import NulConnect.Net.IpAddr
import NulConnect.Net.SortDedup
import NulConnect.Routing.Lookup

/-! `build_network_plan` and `install_network_plan`: the routes into the tunnel and those around
it, over a routing table that is a set of routes. -/
namespace NulConnect.Windows
open Net Routing

def defaultManagedCidrs : List Text := ["198.18.0.0/15".toList]

structure NetworkPlan where
  tunnelRoutes : List (Ipv4Addr × UInt8)
  bypassRoutes : List RouteSpec
  dnsServer : Option Ipv4Addr
  managedDomains : List Text
deriving DecidableEq

/-- The fields of a start request that the plan depends on. -/
structure WireConfig where
  serverHost : Text
  serviceHost : Text
  managedRouteCidrs : List Text
  dnsAddr : Text
  managedDomains : List Text

/-- What the plan finds outside: the node endpoints of the resource for a service host, name
lookups, and the interface and next hop that Windows uses for an address. -/
structure PlanEnv where
  endpoints : Text → Except Text (List Text)
  lookup : Text → List Ipv4Addr
  bestRoute : Ipv4Addr → Option (UInt64 × Ipv4Addr)

def parseCidr (cidr : Text) : Except Text (Ipv4Addr × UInt8) :=
  let cidr := trim cidr
  let (address, pfx) := (splitOnce '/' cidr).getD (cidr, "32".toList)
  match Ipv4Addr.parse (trim address), parseU8 (trim pfx) with
  | none, _ => .error ("invalid route address: ".toList ++ cidr)
  | some _, none => .error ("invalid route prefix: ".toList ++ cidr)
  | some address, some pfx =>
    if pfx = 0 ∨ 32 < pfx then .error ("unsupported route prefix: ".toList ++ cidr)
    else .ok (address &&& netmask 32 pfx, UInt8.ofNat pfx)

def endpointHost (endpoint : Text) : Option Text :=
  let endpoint := trim endpoint
  let host := match rsplitOnce ':' endpoint with
    | some (host, port) => if port.all Char.isDigit then host else endpoint
    | none => endpoint
  let host := trimMatches (fun c => c == '[' || c == ']') (trim host)
  if host = [] then none else some host

def resolveIpv4s (lookup : Text → List Ipv4Addr) (host : Text) : List Ipv4Addr :=
  match Ipv4Addr.parse host with
  | some ip => [ip]
  | none => lookup host

def isLoopback (ip : Ipv4Addr) : Bool := ip.extractLsb' 24 8 = 127

def isUnspecified (ip : Ipv4Addr) : Bool := ip = 0

/-- The next hop for a public address. -/
def defaultGateway (env : PlanEnv) : Option Ipv4Addr :=
  ((env.bestRoute (Ipv4Addr.ofOctets 8 8 8 8)).map Prod.snd).filter fun gateway =>
    ¬ isUnspecified gateway

/-- The order of pairs. -/
def tunnelRouteLe (a b : Ipv4Addr × UInt8) : Prop := a.1 < b.1 ∨ a.1 = b.1 ∧ a.2 ≤ b.2

instance : DecidableRel tunnelRouteLe := fun a b => by
  unfold tunnelRouteLe
  infer_instance

/-- The order by destination and interface. -/
def bypassRouteLe (a b : RouteSpec) : Prop :=
  a.destination < b.destination ∨
    a.destination = b.destination ∧ a.interfaceLuid ≤ b.interfaceLuid

instance : DecidableRel bypassRouteLe := fun a b => by
  unfold bypassRouteLe
  infer_instance

/-- The resolver gets a route of its own, unless it is the gateway. -/
def dnsRoute (env : PlanEnv) (dnsServer : Option Ipv4Addr) : List (Ipv4Addr × UInt8) :=
  match dnsServer with
  | none => []
  | some dns => if defaultGateway env = some dns then [] else [(dns, 32)]

def planTunnelRoutes (env : PlanEnv) (config : WireConfig) : List (Ipv4Addr × UInt8) :=
  let routes := (defaultManagedCidrs ++ config.managedRouteCidrs).filterMap fun cidr =>
    (parseCidr cidr).toOption
  let routes := routes ++ dnsRoute env (Ipv4Addr.parse (trim config.dnsAddr))
  (routes.insertionSort tunnelRouteLe).destutter (· ≠ ·)

/-- A managed prefix covers the address. -/
def coveredBy (tunnelRoutes : List (Ipv4Addr × UInt8)) (ip : Ipv4Addr) : Bool :=
  tunnelRoutes.any fun route => ip &&& netmask 32 route.2.toNat = route.1

/-- The addresses of the gateway nodes and of the portal. -/
def bypassAddresses (env : PlanEnv) (config : WireConfig) (endpoints : List Text) :
    List Ipv4Addr :=
  (endpoints.filterMap endpointHost ++ [config.serverHost]).flatMap (resolveIpv4s env.lookup)

/-- The route around the tunnel for an address that needs one. -/
def bypassRoute (env : PlanEnv) (tunnelRoutes : List (Ipv4Addr × UInt8)) (ip : Ipv4Addr) :
    Option RouteSpec :=
  if isLoopback ip ∨ isUnspecified ip then none
  else if ¬ coveredBy tunnelRoutes ip then none
  else (env.bestRoute ip).map fun (interfaceLuid, nextHop) =>
    { interfaceLuid := interfaceLuid, destination := ip, prefixLen := 32, nextHop := nextHop }

def planServiceHost (config : WireConfig) : Text :=
  if config.serviceHost = [] then config.serverHost else config.serviceHost

def buildNetworkPlan (env : PlanEnv) (config : WireConfig) : Except Text NetworkPlan :=
  match env.endpoints (planServiceHost config) with
  | .error err => .error ("failed to parse resource for Windows routes: ".toList ++ err)
  | .ok endpoints =>
    let tunnelRoutes := planTunnelRoutes env config
    let bypassRoutes := (bypassAddresses env config endpoints).filterMap
      (bypassRoute env tunnelRoutes)
    .ok {
      tunnelRoutes := tunnelRoutes
      bypassRoutes := (bypassRoutes.insertionSort bypassRouteLe).destutter (· ≠ ·)
      dnsServer := Ipv4Addr.parse (trim config.dnsAddr)
      managedDomains := config.managedDomains }

/-- Whether the plan comes with name resolution rules. -/
def NetworkPlan.hasNrpt (plan : NetworkPlan) : Bool :=
  plan.dnsServer.isSome ∧ plan.managedDomains ≠ []

/-- What the system says to the installation: which additions fail, and what `apply_nrpt` gives. -/
structure InstallEnv where
  failure : RouteSpec → Option Text
  applyNrpt : Except Text ℕ

/-- `add_route`: whether the route is new. -/
def addRoute (failure : Option Text) (route : RouteSpec) (table : Finset RouteSpec) :
    Except Text Bool × Finset RouteSpec :=
  match failure with
  | some err => (.error err, table)
  | none => if route ∈ table then (.ok false, table) else (.ok true, insert route table)

/-- The loop over the routes around the tunnel goes on where an addition fails. -/
def addBypassRoutes (env : InstallEnv) : List RouteSpec → PersistedNetworkState →
    Finset RouteSpec → PersistedNetworkState × Finset RouteSpec
  | [], network, table => (network, table)
  | route :: rest, network, table =>
    match addRoute (env.failure route) route table with
    | (.ok true, table) =>
      addBypassRoutes env rest { network with routes := network.routes ++ [route] } table
    | (_, table) => addBypassRoutes env rest network table

/-- The loop over the routes into the tunnel ends where an addition fails. -/
def addTunnelRoutes (env : InstallEnv) : List RouteSpec → PersistedNetworkState →
    Finset RouteSpec → Except Text Unit × PersistedNetworkState × Finset RouteSpec
  | [], network, table => (.ok (), network, table)
  | route :: rest, network, table =>
    match addRoute (env.failure route) route table with
    | (.error err, table) => (.error err, network, table)
    | (.ok true, table) =>
      addTunnelRoutes env rest { network with routes := network.routes ++ [route] } table
    | (.ok false, table) => addTunnelRoutes env rest network table

def tunnelRoute (tunnelLuid : UInt64) (route : Ipv4Addr × UInt8) : RouteSpec where
  interfaceLuid := tunnelLuid
  destination := route.1
  prefixLen := route.2
  nextHop := 0

def installNetworkPlan (env : InstallEnv) (plan : NetworkPlan) (tunnelLuid : UInt64)
    (network : PersistedNetworkState) (table : Finset RouteSpec) :
    Except Text ℕ × PersistedNetworkState × Finset RouteSpec :=
  let (network, table) := addBypassRoutes env plan.bypassRoutes network table
  match addTunnelRoutes env (plan.tunnelRoutes.map (tunnelRoute tunnelLuid)) network table with
  | (.error err, network, table) => (.error err, network, table)
  | (.ok _, network, table) =>
    if plan.hasNrpt then (env.applyNrpt, { network with nrpt := true }, table)
    else (.ok 0, network, table)

def undoNetworkState (network : PersistedNetworkState) (table : Finset RouteSpec) :
    Finset RouteSpec :=
  network.routes.reverse.foldl Finset.erase table

/-- `cleanup_persisted_network_state`, on the routing table. -/
def cleanupPersistedNetworkState (persisted : Option PersistedNetworkState)
    (table : Finset RouteSpec) : Finset RouteSpec :=
  match persisted with
  | none => table
  | some network => undoNetworkState network table

end NulConnect.Windows
