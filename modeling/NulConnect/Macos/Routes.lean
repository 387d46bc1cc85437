import NulConnect.Error
import NulConnect.Net.Ipv4
import NulConnect.Transition.Table

/-! The managed routes of the macOS helper: `setup_managed_tun_routes`, its rollback and
`cleanup_tun_routes`, over the routing table and the record of the installed routes. -/
namespace NulConnect.Macos
open Net Transition.Table

def fakeIpCidr : Text := "198.19.0.0/16".toList

/-- The fields of `HelperConfig` that the routes depend on. -/
structure RouteConfig where
  setupRoutes : Bool
  managedRouteCidrs : List Text
  dnsAddr : Text

/-- What `setup_managed_tun_routes` finds outside the routing table: the results of the
commands, files and lookups it depends on, and which additions fail for another reason than
an existing route. Each of its two loops tries a route text once. -/
structure RouteEnv where
  tunName : Text
  fakeDns : Bool
  resolvers : Except AtrError Unit
  /-- `default_ipv4_gateway` as `should_route_dns_via_tun` reads it -/
  dnsGateway : Except AtrError Text
  /-- the node endpoints of the decoded resource -/
  endpoints : Except AtrError (List Text)
  lookup : Text → List Ipv4Addr
  gateway : Except AtrError Text
  tunFailure : Text → Option Text
  nodeFailure : Text → Option Text
  write : Except AtrError Unit

/-- The routing table, the record on disk, and the destinations whose routes were deleted. -/
structure RouteState (δ : Type*) where
  table : δ → Option (List Text)
  record : Option (List Text)
  deleted : List δ

/-- Why `/sbin/route add` fails. -/
inductive RouteFailure where
  | fileExists
  | other (message : Text)
deriving DecidableEq, Repr

def normalizeRouteCidr (cidr : Text) : Except AtrError (List Text) :=
  let trimmed := trim cidr
  match splitOnce '/' trimmed with
  | none => .error (.invalidArgument ("invalid CIDR route: ".toList ++ trimmed))
  | some (addr, pfx) =>
    if pfx = "32".toList then .ok ["-host".toList, addr]
    else .ok ["-net".toList, trimmed]

section Commands

variable {δ : Type*} [DecidableEq δ] (destination : List Text → Option δ)

/-- `/sbin/route add`, where `destination` is what the command makes of its arguments. -/
def routeAdd (failure : Option Text) (args target : List Text) (s : RouteState δ) :
    Except RouteFailure Unit × RouteState δ :=
  match failure, destination args with
  | some message, _ => (.error (.other message), s)
  | none, none => (.error (.other "bad address".toList), s)
  | none, some d =>
    if s.table d = none then
      (.ok (), { s with table := Function.update s.table d (some target) })
    else (.error .fileExists, s)

/-- `/sbin/route delete`. -/
def routeDelete (args : List Text) (s : RouteState δ) : RouteState δ :=
  match destination args with
  | none => s
  | some d =>
    if s.table d = none then s
    else { s with table := erase s.table d, deleted := d :: s.deleted }

def addRouteCidr (failure : Option Text) (cidr : Text) (target : List Text) (s : RouteState δ) :
    Except AtrError Unit × RouteState δ :=
  match normalizeRouteCidr cidr with
  | .error e => (.error e, s)
  | .ok args =>
    match routeAdd destination failure args target s with
    | (.ok _, s') => (.ok (), s')
    | (.error .fileExists, s') => (.ok (), s')
    | (.error (.other message), s') => (.error (.networkFailed message), s')

def deleteRouteCidr (s : RouteState δ) (cidr : Text) : RouteState δ :=
  match normalizeRouteCidr cidr with
  | .error _ => s
  | .ok args => routeDelete destination args s

def deleteRoutes (s : RouteState δ) (cidrs : List Text) : RouteState δ :=
  cidrs.foldl (deleteRouteCidr destination) s

def cleanupTunRoutes (s : RouteState δ) : RouteState δ :=
  { deleteRoutes destination s (s.record.getD []) with record := none }

/-- The loop over the managed routes; it rolls back where an addition fails. -/
def addTunRoutes (failure : Text → Option Text) (target : List Text) :
    List Text → List Text → RouteState δ → Except AtrError (List Text) × RouteState δ
  | [], installed, s => (.ok installed, s)
  | cidr :: rest, installed, s =>
    if trim cidr = [] then addTunRoutes failure target rest installed s
    else
      match addRouteCidr destination (failure cidr) cidr target s with
      | (.error e, s') => (.error e, deleteRoutes destination s' installed)
      | (.ok _, s') => addTunRoutes failure target rest (installed ++ [cidr]) s'

/-- The loop over the node routes; it goes on where an addition fails. -/
def addNodeRoutes (failure : Text → Option Text) (target : List Text) :
    List Text → List Text → RouteState δ → List Text × RouteState δ
  | [], installed, s => (installed, s)
  | cidr :: rest, installed, s =>
    match addRouteCidr destination (failure cidr) cidr target s with
    | (.error _, s') => addNodeRoutes failure target rest installed s'
    | (.ok _, s') => addNodeRoutes failure target rest (installed ++ [cidr]) s'

end Commands

def shouldRouteDnsViaTun (gateway : Except AtrError Text) (server : Text) : Bool :=
  let server := trim server
  match Ipv4Addr.parse server with
  | none => false
  | some ip =>
    match gateway with
    | .ok gateway => Ipv4Addr.parse gateway ≠ some ip
    | .error _ => true

/-- The managed routes in the order in which they are added. -/
def tunRoutes (config : RouteConfig) (env : RouteEnv) : List Text :=
  sortDedup (config.managedRouteCidrs ++ (if env.fakeDns then [fakeIpCidr] else []) ++
    if shouldRouteDnsViaTun env.dnsGateway config.dnsAddr then
      [trim config.dnsAddr ++ "/32".toList]
    else [])

def endpointHost (endpoint : Text) : Option Text :=
  (rsplitOnce ':' (trim endpoint)).bind fun p =>
    let host := trimMatches (fun c => c == '[' || c == ']') (trim p.1)
    if host = [] then none else some host

def resolveEndpointIpv4s (lookup : Text → List Ipv4Addr) (host : Text) : List Ipv4Addr :=
  match Ipv4Addr.parse host with
  | some ip => [ip]
  | none => lookup host

def nodeRouteCidrs (env : RouteEnv) : Except AtrError (List Text) :=
  env.endpoints.map fun endpoints =>
    sortDedup ((endpoints.filterMap endpointHost).flatMap fun host =>
      (resolveEndpointIpv4s env.lookup host).map fun ip => ip.toText ++ "/32".toList)

variable {δ : Type*} [DecidableEq δ] (destination : List Text → Option δ)

/-- The node loop runs only with a default gateway, which is asked for only where there are
node routes. -/
def pinNodeRoutes (env : RouteEnv) (nodeRoutes installed : List Text) (s : RouteState δ) :
    List Text × RouteState δ :=
  if nodeRoutes = [] then (installed, s)
  else
    match env.gateway with
    | .ok gateway => addNodeRoutes destination env.nodeFailure [gateway] nodeRoutes installed s
    | .error _ => (installed, s)

def setupManagedTunRoutes (config : RouteConfig) (env : RouteEnv) (s : RouteState δ) :
    Except AtrError Unit × RouteState δ :=
  if ¬ config.setupRoutes then (.ok (), s)
  else
    let s := cleanupTunRoutes destination s
    match env.resolvers, nodeRouteCidrs env with
    | .error e, _ => (.error e, s)
    | .ok _, .error e => (.error e, s)
    | .ok _, .ok nodeRoutes =>
      match addTunRoutes destination env.tunFailure ["-interface".toList, env.tunName]
          (tunRoutes config env) [] s with
      | (.error e, s) => (.error e, s)
      | (.ok installed, s) =>
        let (installed, s) := pinNodeRoutes destination env nodeRoutes installed s
        match env.write with
        | .error e => (.error e, s)
        | .ok _ => (.ok (), { s with record := some installed })

end NulConnect.Macos
