import NulConnect.Macos.Routes
import NulConnect.Net.IpAddr

/-! `HelperConfig`: the check of a start request and the configuration of the engine. -/
namespace NulConnect.Macos
open Net

/-- The fields of the request that the helper looks at itself. -/
structure HelperConfig extends RouteConfig where
  resourceBytes : Text
  serviceHost : Text
  tunName : Option Text
  managedDomains : List Text
  mtu : UInt16
  exitOnFatalError : Bool
  fakeIp : Bool

def parseIpv4Cidr (cidr : Text) : Option (Ipv4Addr × ℕ) := do
  let (addr, pfx) ← splitOnce '/' (trim cidr)
  let addr ← Ipv4Addr.parse addr
  let pfx ← (parseU8 pfx).filter (· ≤ 32)
  return (addr, pfx)

def isValidDnsServer (server : Text) : Bool :=
  let (address, zone) := match splitOnce '%' server with
    | some (address, zone) => (address, some zone)
    | none => (server, none)
  match ipKind address with
  | some .v4 => zone.isNone
  | some .v6 => zone.all fun zone => zone ≠ [] && zone.all Char.isAlphanum
  | none => false

/-- A name of the form `utun` and digits. -/
def isTunName (name : Text) : Bool :=
  "utun".toList.isPrefixOf name && (name.drop 4).all Char.isDigit

/-- The first check that fails gives the error; the routes are checked in their order. -/
def validateHelperConfig (config : HelperConfig) : Except AtrError Unit :=
  let dns := trim config.dnsAddr
  if dns ≠ [] ∧ ¬ isValidDnsServer dns then
    .error (.invalidArgument ("invalid DNS server address: ".toList ++ dns))
  else
    match config.managedRouteCidrs.find? fun cidr => (parseIpv4Cidr cidr).isNone with
    | some cidr => .error (.invalidArgument ("invalid managed route: ".toList ++ cidr))
    | none =>
      match config.tunName.filter fun name => name ≠ [] ∧ ¬ isTunName name with
      | some name => .error (.invalidArgument ("invalid TUN interface name: ".toList ++ name))
      | none =>
        if config.mtu < 576 ∨ 9000 < config.mtu then
          .error (.invalidArgument ("invalid MTU: ".toList ++ Nat.toDigits 10 config.mtu.toNat))
        else .ok ()

/-- `FakeIpConfig`, where the server listens on a free port of the loopback address. -/
structure FakeIpConfig where
  upstream : Option Ipv4Addr
deriving DecidableEq

/-- What `into_vpn_engine_config` makes of the fields the helper looks at. -/
structure VpnEngineConfig where
  resourceBytes : List UInt8
  serviceHost : Text
  tunName : Option Text
  mtu : UInt16
  packetInformation : Bool
  exitOnFatalError : Bool
  fakeIp : Option FakeIpConfig

/-- `decode` is the standard Base64 decoder, with the text of its error. -/
def intoVpnEngineConfig (decode : Text → Except Text (List UInt8)) (config : HelperConfig) :
    Except AtrError VpnEngineConfig := do
  let resourceBytes ← (decode config.resourceBytes).mapError fun err =>
    .parseFailed ("invalid resource_bytes: ".toList ++ err)
  return {
    resourceBytes := resourceBytes
    serviceHost := config.serviceHost
    tunName := config.tunName.filter (· ≠ [])
    mtu := config.mtu
    packetInformation := false
    exitOnFatalError := config.exitOnFatalError
    fakeIp :=
      if config.fakeIp && config.setupRoutes && config.managedDomains ≠ [] then
        some { upstream := Ipv4Addr.parse (trim config.dnsAddr) }
      else none }

/-- The configuration converts exactly where its resource bytes decode. -/
theorem intoVpnEngineConfig_isOk {decode : Text → Except Text (List UInt8)}
    {config : HelperConfig} :
    (∃ engine, intoVpnEngineConfig decode config = .ok engine) ↔
      ∃ bytes, decode config.resourceBytes = .ok bytes := by
  unfold intoVpnEngineConfig
  cases decode config.resourceBytes with
  | ok bytes => exact ⟨fun _ => ⟨bytes, rfl⟩, fun _ => ⟨_, rfl⟩⟩
  | error err =>
    constructor
    · rintro ⟨_, h⟩
      cases h
    · rintro ⟨_, h⟩
      cases h

end NulConnect.Macos
