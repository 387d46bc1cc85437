import NulConnect.Net.Text
import NulConnect.Transition.System
import Mathlib.Tactic

/-! The system-proxy requests of the macOS helper: `set_system_proxy` and
`restore_system_proxy`, each command of `networksetup` and each access to the snapshot file
being one step. -/
namespace NulConnect.Macos
open Transition Net

structure ProxySetting where
  enabled : Bool
  server : Option Text
  port : Option UInt16
deriving DecidableEq, Repr

structure AutoProxyUrl where
  enabled : Bool
  url : Option Text
deriving DecidableEq, Repr

/-- `SystemProxyServiceSnapshot`, without the name of the service. -/
structure ServiceSettings where
  webProxy : ProxySetting
  secureWebProxy : ProxySetting
  socksProxy : ProxySetting
  proxyAutoDiscoveryEnabled : Bool
  autoProxyUrl : AutoProxyUrl
  bypassDomains : List Text
deriving DecidableEq, Repr

/-- The services of a `SystemProxySnapshot`, by name. -/
abbrev ProxySnapshot := List (Text × ServiceSettings)

structure ProxyEndpoint where
  host : Text
  port : UInt16
deriving DecidableEq, Repr

inductive ProxyKind where
  | web
  | secureWeb
  | socks
deriving DecidableEq, Repr

/-- A command of `networksetup` that changes a service. -/
inductive ProxyCommand where
  | setProxy (kind : ProxyKind) (server : Text) (port : UInt16)
  | setProxyState (kind : ProxyKind) (on : Bool)
  | setAutoDiscovery (on : Bool)
  | setAutoProxyUrl (url : Text)
  | setAutoProxyState (on : Bool)
  | setBypassDomains (domains : List Text)
deriving DecidableEq, Repr

/-- A command of `networksetup` that reads a service. -/
inductive ProxyQuery where
  | webProxy
  | secureWebProxy
  | socksProxy
  | autoDiscovery
  | autoProxyUrl
  | bypassDomains
deriving DecidableEq, Repr

namespace ProxyQuery

/-- The queries of `make_service_snapshot`, in order. -/
def all : List ProxyQuery :=
  [.webProxy, .secureWebProxy, .socksProxy, .autoDiscovery, .autoProxyUrl, .bypassDomains]

/-- What a query reads is put into the snapshot of the service. -/
def copy (source read : ServiceSettings) : ProxyQuery → ServiceSettings
  | .webProxy => { read with webProxy := source.webProxy }
  | .secureWebProxy => { read with secureWebProxy := source.secureWebProxy }
  | .socksProxy => { read with socksProxy := source.socksProxy }
  | .autoDiscovery =>
    { read with proxyAutoDiscoveryEnabled := source.proxyAutoDiscoveryEnabled }
  | .autoProxyUrl => { read with autoProxyUrl := source.autoProxyUrl }
  | .bypassDomains => { read with bypassDomains := source.bypassDomains }

/-- The fields of a snapshot before they are read. -/
def unread : ServiceSettings where
  webProxy := ⟨false, none, none⟩
  secureWebProxy := ⟨false, none, none⟩
  socksProxy := ⟨false, none, none⟩
  proxyAutoDiscoveryEnabled := false
  autoProxyUrl := ⟨false, none⟩
  bypassDomains := []

/-- The queries between them read all of the settings. -/
theorem foldl_all (source : ServiceSettings) : all.foldl (copy source) unread = source := rfl

end ProxyQuery

def validateProxyEndpoint (endpoint : ProxyEndpoint) : Bool :=
  (endpoint.host = "127.0.0.1".toList || endpoint.host = "::1".toList ||
    endpoint.host = "localhost".toList) && endpoint.port ≠ 0

def validatePacUrl (url : Text) (endpoint : ProxyEndpoint) : Bool :=
  let host := if endpoint.host.contains ':' then '[' :: endpoint.host ++ [']'] else endpoint.host
  let start := "http://".toList ++ host ++ ':' :: (toString endpoint.port.toNat).toList ++
    "/proxy.pac?token=".toList
  let token := url.drop start.length
  start.isPrefixOf url && !token.isEmpty && token.all Char.isAlphanum

def mergedExceptions (serverHost : Text) (snapshot : ProxySnapshot) : List Text :=
  sortDedup <|
    ["localhost".toList, "127.0.0.1".toList, "::1".toList, "*.local".toList,
      "169.254/16".toList] ++
    (serverHost :: snapshot.flatMap fun q => q.2.bypassDomains).filterMap fun domain =>
      if (trim domain).isEmpty then none else some (trim domain)

/-- The commands of `set_system_proxy` for one service. -/
def configureCommands (endpoint : ProxyEndpoint) (exceptions : List Text) :
    Option Text → List ProxyCommand
  | some url => [.setProxyState .web false, .setProxyState .secureWeb false,
      .setProxyState .socks false, .setAutoDiscovery false, .setAutoProxyUrl url,
      .setAutoProxyState true]
  | none => [.setProxy .web endpoint.host endpoint.port, .setProxyState .web true,
      .setProxy .secureWeb endpoint.host endpoint.port, .setProxyState .secureWeb true,
      .setProxy .socks endpoint.host endpoint.port, .setProxyState .socks true,
      .setAutoDiscovery false, .setAutoProxyState false, .setBypassDomains exceptions]

def restoreProxySetting (kind : ProxyKind) (setting : ProxySetting) : List ProxyCommand :=
  match setting.enabled, setting.server, setting.port with
  | true, some server, some port => [.setProxy kind server port, .setProxyState kind true]
  | _, _, _ => [.setProxyState kind false]

/-- The commands of `restore_system_proxy` for one service. -/
def restoreCommands (service : ServiceSettings) : List ProxyCommand :=
  restoreProxySetting .web service.webProxy ++
  restoreProxySetting .secureWeb service.secureWebProxy ++
  restoreProxySetting .socks service.socksProxy ++
  [.setAutoDiscovery service.proxyAutoDiscoveryEnabled] ++
  (match service.autoProxyUrl.url.filter fun url => !url.isEmpty with
    | some url => [.setAutoProxyUrl url, .setAutoProxyState service.autoProxyUrl.enabled]
    | none => [.setAutoProxyState false]) ++
  [.setBypassDomains (if service.bypassDomains = [] then ["Empty".toList]
    else service.bypassDomains)]

/-- The documented effect of the commands. -/
def networksetup (c : ProxyCommand) (x : ServiceSettings) : ServiceSettings :=
  match c with
  | .setProxy .web server port => { x with webProxy := ⟨true, some server, some port⟩ }
  | .setProxy .secureWeb server port => { x with secureWebProxy := ⟨true, some server, some port⟩ }
  | .setProxy .socks server port => { x with socksProxy := ⟨true, some server, some port⟩ }
  | .setProxyState .web on => { x with webProxy.enabled := on }
  | .setProxyState .secureWeb on => { x with secureWebProxy.enabled := on }
  | .setProxyState .socks on => { x with socksProxy.enabled := on }
  | .setAutoDiscovery on => { x with proxyAutoDiscoveryEnabled := on }
  | .setAutoProxyUrl url => { x with autoProxyUrl := ⟨true, some url⟩ }
  | .setAutoProxyState on => { x with autoProxyUrl.enabled := on }
  | .setBypassDomains domains =>
    { x with bypassDomains := if domains = ["Empty".toList] then [] else domains }

structure SetSystemProxy where
  endpoint : ProxyEndpoint
  serverHost : Text
  pacUrl : Option Text
deriving DecidableEq, Repr

/-- Where a call of `set_system_proxy` stands. `services` is what it has listed, `snapshot`
its local copy. -/
inductive SetPhase where
  | listing
  | looking (services : List Text)
  | reading (services : List Text)
  | checking (services : List Text) (snapshot : ProxySnapshot)
  | recording (services todo : List Text) (snapshot : ProxySnapshot) (changed : Bool)
  | querying (services : List Text) (service : Text) (todo : List Text)
      (snapshot : ProxySnapshot) (left : List ProxyQuery) (read : ServiceSettings)
  | writing (services : List Text) (snapshot : ProxySnapshot)
  | configuring (todo : List (Text × ProxyCommand))
deriving DecidableEq, Repr

/-- Where a call of `restore_system_proxy` stands. -/
inductive RestorePhase where
  | looking
  | reading
  | listing (snapshot : ProxySnapshot)
  | restoring (todo : List (Text × ProxyCommand))
deriving DecidableEq, Repr

/-- A request on its client thread; `Cleanup` restores as well. -/
inductive ProxyRequest where
  | idle
  | set (r : SetSystemProxy) (p : SetPhase)
  | restore (p : RestorePhase)
  | done
deriving DecidableEq, Repr

def ProxyRequest.running : ProxyRequest → Bool
  | .set _ _ | .restore _ => true
  | .idle | .done => false

/-- The services there are, the settings of each, also while it is gone, and the snapshot
file. -/
structure ProxyState (ι : Type*) where
  services : List Text
  settings : Text → ServiceSettings
  snapshot : Option ProxySnapshot
  request : ι → ProxyRequest

/-- `ok` says whether the command or the access to the file succeeds. -/
inductive ProxyAction (ι : Type*) where
  | appear (service : Text)
  | vanish (service : Text)
  | edit (service : Text) (settings : ServiceSettings)
  | setBegin (i : ι) (r : SetSystemProxy)
  | setList (i : ι) (ok : Bool)
  | setLook (i : ι) (ok : Bool)
  | setRead (i : ι) (ok : Bool)
  | setCheck (i : ι) (ok : Bool)
  | setRecord (i : ι)
  | setQuery (i : ι) (ok : Bool)
  | setWrite (i : ι) (ok : Bool)
  | setCommand (i : ι) (ok : Bool)
  | restoreBegin (i : ι)
  | restoreLook (i : ι) (ok : Bool)
  | restoreRead (i : ι) (ok : Bool)
  | restoreList (i : ι) (ok : Bool)
  | restoreCommand (i : ι) (ok : Bool)
  | restoreRemove (i : ι) (ok : Bool)

namespace ProxyState

variable {ι : Type*}

def initial (services : List Text) (settings : Text → ServiceSettings) : ProxyState ι where
  services := services
  settings := settings
  snapshot := none
  request _ := .idle

variable [DecidableEq ι]

@[simp] def setRequest (s : ProxyState ι) (i : ι) (q : ProxyRequest) : ProxyState ι :=
  { s with request := Function.update s.request i q }

/-- The commands for the services of the snapshot that are still there. -/
def configuring (r : SetSystemProxy) (services : List Text) (snapshot : ProxySnapshot) :
    SetPhase :=
  .configuring ((snapshot.filter fun q => services.contains q.1).flatMap fun q =>
    (configureCommands r.endpoint (mergedExceptions r.serverHost snapshot) r.pacUrl).map
      fun c => (q.1, c))

def restoring (services : List Text) (snapshot : ProxySnapshot) : RestorePhase :=
  .restoring ((snapshot.filter fun q => services.contains q.1).flatMap fun q =>
    (restoreCommands q.2).map fun c => (q.1, c))

def step (effect : ProxyCommand → ServiceSettings → ServiceSettings) (s : ProxyState ι) :
    ProxyAction ι → Option (ProxyState ι)
  | .appear service => when (service ∉ s.services) { s with services := s.services ++ [service] }
  | .vanish service => some { s with services := s.services.filter (· ≠ service) }
  | .edit service settings =>
    some { s with settings := Function.update s.settings service settings }
  -- set_system_proxy
  | .setBegin i r => when (s.request i = .idle) <|
      if validateProxyEndpoint r.endpoint && r.pacUrl.all (validatePacUrl · r.endpoint) then
        s.setRequest i (.set r .listing)
      else s.setRequest i .done
  | .setList i ok =>
    match s.request i with
    | .set r .listing => some (s.setRequest i
        (if ok && !s.services.isEmpty then .set r (.looking s.services) else .done))
    | _ => none
  -- a test that fails finds no file
  | .setLook i ok =>
    match s.request i with
    | .set r (.looking services) => some (s.setRequest i (.set r
        (if ok && s.snapshot.isSome then .reading services else .checking services [])))
    | _ => none
  | .setRead i ok =>
    match s.request i with
    | .set r (.reading services) => some (s.setRequest i
        (match s.snapshot.filter fun _ => ok with
          | some snapshot => .set r (.checking services snapshot)
          | none => .done))
    | _ => none
  | .setCheck i ok =>
    match s.request i with
    | .set r (.checking services snapshot) => some (s.setRequest i (.set r
        (.recording services services snapshot (!(ok && s.snapshot.isSome)))))
    | _ => none
  | .setRecord i =>
    match s.request i with
    | .set r (.recording services (service :: todo) snapshot changed) => some (s.setRequest i
        (.set r (if snapshot.any (·.1 = service) then .recording services todo snapshot changed
          else .querying services service todo snapshot ProxyQuery.all ProxyQuery.unread)))
    | .set r (.recording services [] snapshot changed) => some (s.setRequest i
        (.set r (if changed then .writing services snapshot
          else configuring r services snapshot)))
    | _ => none
  -- `read_bool` takes a failure for `false`
  | .setQuery i ok =>
    match s.request i with
    | .set r (.querying services service todo snapshot (q :: left) read) =>
      let succeeds := ok && s.services.contains service
      some (s.setRequest i (
        if succeeds || q = .autoDiscovery then
          let read := if succeeds then q.copy (s.settings service) read
            else { read with proxyAutoDiscoveryEnabled := false }
          .set r (if left = [] then .recording services todo (snapshot ++ [(service, read)]) true
            else .querying services service todo snapshot left read)
        else .done))
    | _ => none
  | .setWrite i ok =>
    match s.request i with
    | .set r (.writing services snapshot) => some
        (if ok then { s.setRequest i (.set r (configuring r services snapshot)) with
            snapshot := some snapshot }
          else s.setRequest i .done)
    | _ => none
  | .setCommand i ok =>
    match s.request i with
    | .set r (.configuring ((service, c) :: todo)) => some
        (if ok && s.services.contains service then
          { s.setRequest i (.set r (.configuring todo)) with
            settings := Function.update s.settings service (effect c (s.settings service)) }
        else s.setRequest i .done)
    | .set _ (.configuring []) => some (s.setRequest i .done)
    | _ => none
  -- restore_system_proxy
  | .restoreBegin i => when (s.request i = .idle) (s.setRequest i (.restore .looking))
  | .restoreLook i ok => when (s.request i = .restore .looking)
      (s.setRequest i (if ok && s.snapshot.isSome then .restore .reading else .done))
  | .restoreRead i ok => when (s.request i = .restore .reading)
      (s.setRequest i (match s.snapshot.filter fun _ => ok with
        | some snapshot => .restore (.listing snapshot)
        | none => .done))
  | .restoreList i ok =>
    match s.request i with
    | .restore (.listing snapshot) => some (s.setRequest i
        (if ok then .restore (restoring s.services snapshot) else .done))
    | _ => none
  | .restoreCommand i ok =>
    match s.request i with
    | .restore (.restoring ((service, c) :: todo)) => some
        (if ok && s.services.contains service then
          { s.setRequest i (.restore (.restoring todo)) with
            settings := Function.update s.settings service (effect c (s.settings service)) }
        else s.setRequest i .done)
    | _ => none
  | .restoreRemove i ok => when (s.request i = .restore (.restoring []))
      { s.setRequest i .done with snapshot := if ok then none else s.snapshot }

end ProxyState

variable {ι : Type*}

theorem running_of_set {s : ProxyState ι} {i : ι} {r : SetSystemProxy} {p : SetPhase}
    (hi : s.request i = .set r p) : (s.request i).running := by
  rw [hi, ProxyRequest.running]

theorem running_of_restore {s : ProxyState ι} {i : ι} {p : RestorePhase}
    (hi : s.request i = .restore p) : (s.request i).running := by
  rw [hi, ProxyRequest.running]

variable [DecidableEq ι]

/-- What a step does: the request goes on, or it ends. -/
inductive ProxyStep (effect : ProxyCommand → ServiceSettings → ServiceSettings)
    (s : ProxyState ι) : ProxyAction ι → ProxyState ι → Prop where
  | appear {service : Text} :
      ProxyStep effect s (.appear service) { s with services := s.services ++ [service] }
  | vanish {service : Text} :
      ProxyStep effect s (.vanish service)
        { s with services := s.services.filter (· ≠ service) }
  | edit {service : Text} {x : ServiceSettings} :
      ProxyStep effect s (.edit service x)
        { s with settings := Function.update s.settings service x }
  | setBegin {i : ι} {r : SetSystemProxy} :
      ProxyStep effect s (.setBegin i r) (s.setRequest i (.set r .listing))
  | setRefused {i : ι} {r : SetSystemProxy} :
      ProxyStep effect s (.setBegin i r) (s.setRequest i .done)
  | setList {i : ι} {r : SetSystemProxy} {ok : Bool} (hi : s.request i = .set r .listing) :
      ProxyStep effect s (.setList i ok) (s.setRequest i (.set r (.looking s.services)))
  | setListFails {i : ι} {r : SetSystemProxy} {ok : Bool} (hi : s.request i = .set r .listing) :
      ProxyStep effect s (.setList i ok) (s.setRequest i .done)
  | setLook {i : ι} {r : SetSystemProxy} {services : List Text} {ok : Bool}
      (hi : s.request i = .set r (.looking services)) :
      ProxyStep effect s (.setLook i ok) (s.setRequest i (.set r (.reading services)))
  | setLookNone {i : ι} {r : SetSystemProxy} {services : List Text} {ok : Bool}
      (hi : s.request i = .set r (.looking services)) (hfile : ok → s.snapshot = none) :
      ProxyStep effect s (.setLook i ok) (s.setRequest i (.set r (.checking services [])))
  | setRead {i : ι} {r : SetSystemProxy} {services : List Text} {snapshot : ProxySnapshot}
      {ok : Bool} (hi : s.request i = .set r (.reading services))
      (hfile : s.snapshot = some snapshot) :
      ProxyStep effect s (.setRead i ok) (s.setRequest i (.set r (.checking services snapshot)))
  | setReadFails {i : ι} {r : SetSystemProxy} {services : List Text} {ok : Bool}
      (hi : s.request i = .set r (.reading services)) :
      ProxyStep effect s (.setRead i ok) (s.setRequest i .done)
  | setCheck {i : ι} {r : SetSystemProxy} {services : List Text} {snapshot : ProxySnapshot}
      {ok : Bool} (hi : s.request i = .set r (.checking services snapshot)) :
      ProxyStep effect s (.setCheck i ok) (s.setRequest i (.set r
        (.recording services services snapshot (!(ok && s.snapshot.isSome)))))
  | setRecord {i : ι} {r : SetSystemProxy} {services todo : List Text} {service : Text}
      {snapshot : ProxySnapshot} {changed : Bool}
      (hi : s.request i = .set r (.recording services (service :: todo) snapshot changed)) :
      ProxyStep effect s (.setRecord i) (s.setRequest i (.set r
        (if snapshot.any (·.1 = service) then .recording services todo snapshot changed
          else .querying services service todo snapshot ProxyQuery.all ProxyQuery.unread)))
  | setRecorded {i : ι} {r : SetSystemProxy} {services : List Text} {snapshot : ProxySnapshot}
      {changed : Bool} (hi : s.request i = .set r (.recording services [] snapshot changed)) :
      ProxyStep effect s (.setRecord i) (s.setRequest i (.set r
        (if changed then .writing services snapshot
          else ProxyState.configuring r services snapshot)))
  | setQuery {i : ι} {r : SetSystemProxy} {services todo : List Text} {service : Text}
      {snapshot : ProxySnapshot} {q : ProxyQuery} {left : List ProxyQuery}
      {read : ServiceSettings} {ok : Bool}
      (hi : s.request i = .set r (.querying services service todo snapshot (q :: left) read))
      (hok : (ok && s.services.contains service) = true) :
      ProxyStep effect s (.setQuery i ok) (s.setRequest i (.set r
        (if left = [] then
          .recording services todo (snapshot ++ [(service, q.copy (s.settings service) read)]) true
        else .querying services service todo snapshot left (q.copy (s.settings service) read))))
  | setQueryFalse {i : ι} {r : SetSystemProxy} {services todo : List Text} {service : Text}
      {snapshot : ProxySnapshot} {left : List ProxyQuery} {read : ServiceSettings} {ok : Bool}
      (hi : s.request i =
        .set r (.querying services service todo snapshot (.autoDiscovery :: left) read))
      (hok : (ok && s.services.contains service) = false) :
      ProxyStep effect s (.setQuery i ok) (s.setRequest i (.set r
        (if left = [] then .recording services todo
          (snapshot ++ [(service, { read with proxyAutoDiscoveryEnabled := false })]) true
        else .querying services service todo snapshot left
          { read with proxyAutoDiscoveryEnabled := false })))
  | setQueryFails {i : ι} {r : SetSystemProxy} {services todo : List Text} {service : Text}
      {snapshot : ProxySnapshot} {left : List ProxyQuery} {read : ServiceSettings} {ok : Bool}
      (hi : s.request i = .set r (.querying services service todo snapshot left read)) :
      ProxyStep effect s (.setQuery i ok) (s.setRequest i .done)
  | setWrite {i : ι} {r : SetSystemProxy} {services : List Text} {snapshot : ProxySnapshot}
      (hi : s.request i = .set r (.writing services snapshot)) :
      ProxyStep effect s (.setWrite i true)
        { s.setRequest i (.set r (ProxyState.configuring r services snapshot)) with
          snapshot := some snapshot }
  | setWriteFails {i : ι} {r : SetSystemProxy} {services : List Text} {snapshot : ProxySnapshot}
      (hi : s.request i = .set r (.writing services snapshot)) :
      ProxyStep effect s (.setWrite i false) (s.setRequest i .done)
  | setCommand {i : ι} {r : SetSystemProxy} {service : Text} {c : ProxyCommand}
      {todo : List (Text × ProxyCommand)} {ok : Bool}
      (hi : s.request i = .set r (.configuring ((service, c) :: todo)))
      (hok : ok && s.services.contains service) :
      ProxyStep effect s (.setCommand i ok)
        { s.setRequest i (.set r (.configuring todo)) with
          settings := Function.update s.settings service (effect c (s.settings service)) }
  | setCommandFails {i : ι} {r : SetSystemProxy} {service : Text} {c : ProxyCommand}
      {todo : List (Text × ProxyCommand)} {ok : Bool}
      (hi : s.request i = .set r (.configuring ((service, c) :: todo)))
      (hok : ¬ (ok && s.services.contains service)) :
      ProxyStep effect s (.setCommand i ok) (s.setRequest i .done)
  | setReturns {i : ι} {r : SetSystemProxy} {ok : Bool}
      (hi : s.request i = .set r (.configuring [])) :
      ProxyStep effect s (.setCommand i ok) (s.setRequest i .done)
  | restoreBegin {i : ι} :
      ProxyStep effect s (.restoreBegin i) (s.setRequest i (.restore .looking))
  | restoreLook {i : ι} {ok : Bool} (hi : s.request i = .restore .looking) :
      ProxyStep effect s (.restoreLook i ok) (s.setRequest i (.restore .reading))
  | restoreLookNone {i : ι} {ok : Bool} (hi : s.request i = .restore .looking) :
      ProxyStep effect s (.restoreLook i ok) (s.setRequest i .done)
  | restoreRead {i : ι} {snapshot : ProxySnapshot} {ok : Bool}
      (hi : s.request i = .restore .reading) (hfile : s.snapshot = some snapshot) :
      ProxyStep effect s (.restoreRead i ok) (s.setRequest i (.restore (.listing snapshot)))
  | restoreReadFails {i : ι} {ok : Bool} (hi : s.request i = .restore .reading) :
      ProxyStep effect s (.restoreRead i ok) (s.setRequest i .done)
  | restoreList {i : ι} {snapshot : ProxySnapshot}
      (hi : s.request i = .restore (.listing snapshot)) :
      ProxyStep effect s (.restoreList i true)
        (s.setRequest i (.restore (ProxyState.restoring s.services snapshot)))
  | restoreListFails {i : ι} {snapshot : ProxySnapshot}
      (hi : s.request i = .restore (.listing snapshot)) :
      ProxyStep effect s (.restoreList i false) (s.setRequest i .done)
  | restoreCommand {i : ι} {service : Text} {c : ProxyCommand}
      {todo : List (Text × ProxyCommand)} {ok : Bool}
      (hi : s.request i = .restore (.restoring ((service, c) :: todo)))
      (hok : ok && s.services.contains service) :
      ProxyStep effect s (.restoreCommand i ok)
        { s.setRequest i (.restore (.restoring todo)) with
          settings := Function.update s.settings service (effect c (s.settings service)) }
  | restoreCommandFails {i : ι} {service : Text} {c : ProxyCommand}
      {todo : List (Text × ProxyCommand)} {ok : Bool}
      (hi : s.request i = .restore (.restoring ((service, c) :: todo)))
      (hok : ¬ (ok && s.services.contains service)) :
      ProxyStep effect s (.restoreCommand i ok) (s.setRequest i .done)
  | restoreRemove {i : ι} {ok : Bool} (hi : s.request i = .restore (.restoring [])) :
      ProxyStep effect s (.restoreRemove i ok)
        { s.setRequest i .done with snapshot := if ok then none else s.snapshot }

theorem proxyStep_of_step {effect : ProxyCommand → ServiceSettings → ServiceSettings}
    {s t : ProxyState ι} {a : ProxyAction ι} (h : s.step effect a = some t) :
    ProxyStep effect s a t := by
  cases a with
  | appear service =>
    obtain ⟨-, rfl⟩ := when_eq_some.mp h
    exact .appear
  | vanish service =>
    obtain rfl := Option.some.inj h
    exact .vanish
  | edit service x =>
    obtain rfl := Option.some.inj h
    exact .edit
  | setBegin i r =>
    obtain ⟨-, rfl⟩ := when_eq_some.mp h
    split_ifs
    · exact .setBegin
    · exact .setRefused
  | setList i ok =>
    simp only [ProxyState.step] at h
    split at h
    · rename_i r hi
      obtain rfl := Option.some.inj h
      split_ifs
      · exact .setList hi
      · exact .setListFails hi
    · cases h
  | setLook i ok =>
    simp only [ProxyState.step] at h
    split at h
    · rename_i r services hi
      obtain rfl := Option.some.inj h
      split_ifs with hfile
      · exact .setLook hi
      · exact .setLookNone hi fun hok => by simpa [hok] using hfile
    · cases h
  | setRead i ok =>
    simp only [ProxyState.step] at h
    split at h
    · rename_i r services hi
      obtain rfl := Option.some.inj h
      split
      · rename_i snapshot hread
        exact .setRead hi (Option.filter_eq_some_iff.mp hread).1
      · exact .setReadFails hi
    · cases h
  | setCheck i ok =>
    simp only [ProxyState.step] at h
    split at h
    · rename_i r services snapshot hi
      obtain rfl := Option.some.inj h
      exact .setCheck hi
    · cases h
  | setRecord i =>
    simp only [ProxyState.step] at h
    split at h
    · rename_i hi
      obtain rfl := Option.some.inj h
      exact .setRecord hi
    · rename_i hi
      obtain rfl := Option.some.inj h
      exact .setRecorded hi
    · cases h
  | setQuery i ok =>
    simp only [ProxyState.step] at h
    split at h
    · rename_i r services service todo snapshot q left read hi
      obtain rfl := Option.some.inj h
      cases hok : ok && s.services.contains service with
      | true => exact .setQuery hi hok
      | false =>
        by_cases hq : q = .autoDiscovery
        · subst q
          exact .setQueryFalse hi hok
        · simp only [hq, decide_false, Bool.or_false, Bool.false_eq_true, if_false]
          exact .setQueryFails hi
    · cases h
  | setWrite i ok =>
    simp only [ProxyState.step] at h
    split at h
    · rename_i r services snapshot hi
      obtain rfl := Option.some.inj h
      cases ok with
      | true => exact .setWrite hi
      | false => exact .setWriteFails hi
    · cases h
  | setCommand i ok =>
    simp only [ProxyState.step] at h
    split at h
    · rename_i r service c todo hi
      obtain rfl := Option.some.inj h
      split_ifs with hok
      · exact .setCommand hi hok
      · exact .setCommandFails hi hok
    · rename_i r hi
      obtain rfl := Option.some.inj h
      exact .setReturns hi
    · cases h
  | restoreBegin i =>
    obtain ⟨-, rfl⟩ := when_eq_some.mp h
    exact .restoreBegin
  | restoreLook i ok =>
    obtain ⟨hi, rfl⟩ := when_eq_some.mp h
    split_ifs
    · exact .restoreLook hi
    · exact .restoreLookNone hi
  | restoreRead i ok =>
    obtain ⟨hi, rfl⟩ := when_eq_some.mp h
    split
    · rename_i snapshot hread
      exact .restoreRead hi (Option.filter_eq_some_iff.mp hread).1
    · exact .restoreReadFails hi
  | restoreList i ok =>
    simp only [ProxyState.step] at h
    split at h
    · rename_i snapshot hi
      obtain rfl := Option.some.inj h
      cases ok with
      | true => exact .restoreList hi
      | false => exact .restoreListFails hi
    · cases h
  | restoreCommand i ok =>
    simp only [ProxyState.step] at h
    split at h
    · rename_i service c todo hi
      obtain rfl := Option.some.inj h
      split_ifs with hok
      · exact .restoreCommand hi hok
      · exact .restoreCommandFails hi hok
    · cases h
  | restoreRemove i ok =>
    obtain ⟨hi, rfl⟩ := when_eq_some.mp h
    exact .restoreRemove hi

/-- The helper with the requests `ι`, with what the commands of `networksetup` do to a service
as a parameter. -/
def proxySystem (ι : Type*) [DecidableEq ι]
    (effect : ProxyCommand → ServiceSettings → ServiceSettings) :
    System (ProxyState ι) (ProxyAction ι) where
  init s := ∃ services settings, s = .initial services settings
  step := ProxyState.step effect

end NulConnect.Macos
