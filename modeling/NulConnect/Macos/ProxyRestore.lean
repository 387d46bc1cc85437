import NulConnect.Macos.ProxyGuard

/-! Whether a restore undoes `set_system_proxy`: what the commands of `restore_system_proxy` leave
of the settings of a service, and when that is what the service had when it was recorded. -/
namespace NulConnect.Macos
open Transition Net

/-- A restore from `record`, begun while the proxy is `current`, gives the proxy `original`. -/
def ProxySetting.Undone (record current original : ProxySetting) : Prop :=
  if record.enabled ∧ record.server.isSome ∧ record.port.isSome then original = record
  else original.enabled = false ∧ original.server = current.server ∧ original.port = current.port

def AutoProxyUrl.Undone (record current original : AutoProxyUrl) : Prop :=
  if record.url.any fun url => !url.isEmpty then original = record
  else original.enabled = false ∧ original.url = current.url

structure ServiceSettings.Undone (record current original : ServiceSettings) : Prop where
  webProxy : record.webProxy.Undone current.webProxy original.webProxy
  secureWebProxy : record.secureWebProxy.Undone current.secureWebProxy original.secureWebProxy
  socksProxy : record.socksProxy.Undone current.socksProxy original.socksProxy
  autoDiscovery : original.proxyAutoDiscoveryEnabled = record.proxyAutoDiscoveryEnabled
  autoProxyUrl : record.autoProxyUrl.Undone current.autoProxyUrl original.autoProxyUrl
  bypassDomains : original.bypassDomains =
    if record.bypassDomains = ["Empty".toList] then [] else record.bypassDomains

section Commands

variable {record current original : ServiceSettings} {settings : Text → ServiceSettings}
  {service : Text} {services : List Text} {snapshot : ProxySnapshot}

/-- What commands for one service leave of its settings. -/
def runCommands (commands : List ProxyCommand) (current : ServiceSettings) : ServiceSettings :=
  commands.foldl (fun x c => networksetup c x) current

@[simp] theorem runCommands_append (commands commands' : List ProxyCommand) :
    runCommands (commands ++ commands') current =
      runCommands commands' (runCommands commands current) := List.foldl_append

/-- What every command leaves alone is left alone by all of them. -/
theorem runCommands_keeps {β : Type*} (f : ServiceSettings → β) {commands : List ProxyCommand}
    (h : ∀ c ∈ commands, ∀ x, f (networksetup c x) = f x) :
    f (runCommands commands current) = f current := by
  induction commands generalizing current with
  | nil => rfl
  | cons c commands ih =>
    rw [List.forall_mem_cons] at h
    exact (ih h.2).trans (h.1 current)

def ProxySetting.restored (record current : ProxySetting) : ProxySetting :=
  if record.enabled ∧ record.server.isSome ∧ record.port.isSome then record
  else { current with enabled := false }

theorem ProxySetting.undone_iff {record current original : ProxySetting} :
    record.Undone current original ↔ record.restored current = original := by
  unfold Undone restored
  split_ifs
  · exact eq_comm
  · constructor
    · rintro ⟨he, hs, hp⟩
      rw [← he, ← hs, ← hp]
    · rintro rfl
      exact ⟨rfl, rfl, rfl⟩

def AutoProxyUrl.restored (record current : AutoProxyUrl) : AutoProxyUrl :=
  if record.url.any fun url => !url.isEmpty then record else { current with enabled := false }

theorem AutoProxyUrl.undone_iff {record current original : AutoProxyUrl} :
    record.Undone current original ↔ record.restored current = original := by
  unfold Undone restored
  split_ifs
  · exact eq_comm
  · constructor
    · rintro ⟨he, hu⟩
      rw [← he, ← hu]
    · rintro rfl
      exact ⟨rfl, rfl⟩

/-- One of the three proxies of a service. -/
def ServiceSettings.withProxy (x : ServiceSettings) (f : ProxySetting → ProxySetting) :
    ProxyKind → ServiceSettings
  | .web => { x with webProxy := f x.webProxy }
  | .secureWeb => { x with secureWebProxy := f x.secureWebProxy }
  | .socks => { x with socksProxy := f x.socksProxy }

theorem run_restoreProxySetting (kind : ProxyKind) (setting : ProxySetting) :
    runCommands (restoreProxySetting kind setting) current =
      current.withProxy setting.restored kind := by
  obtain ⟨enabled, server, port⟩ := setting
  cases kind
  all_goals
    cases enabled with
    | false => rfl
    | true =>
      cases server with
      | none => rfl
      | some server =>
        cases port with
        | none => rfl
        | some port => rfl

/-- What a restore from `record` leaves of a service. -/
def ServiceSettings.restored (record current : ServiceSettings) : ServiceSettings where
  webProxy := record.webProxy.restored current.webProxy
  secureWebProxy := record.secureWebProxy.restored current.secureWebProxy
  socksProxy := record.socksProxy.restored current.socksProxy
  proxyAutoDiscoveryEnabled := record.proxyAutoDiscoveryEnabled
  autoProxyUrl := record.autoProxyUrl.restored current.autoProxyUrl
  bypassDomains := if record.bypassDomains = ["Empty".toList] then [] else record.bypassDomains

theorem run_setAutoProxyUrl (setting : AutoProxyUrl) : runCommands
    (match setting.url.filter fun url => !url.isEmpty with
      | some url => [.setAutoProxyUrl url, .setAutoProxyState setting.enabled]
      | none => [.setAutoProxyState false]) current =
    { current with autoProxyUrl := setting.restored current.autoProxyUrl } := by
  obtain ⟨enabled, url⟩ := setting
  cases url with
  | none => rfl
  | some url =>
    cases url with
    | nil => rfl
    | cons c url => rfl

theorem run_setBypassDomains (domains : List Text) : runCommands
    [.setBypassDomains (if domains = [] then ["Empty".toList] else domains)] current =
    { current with bypassDomains := if domains = ["Empty".toList] then [] else domains } := by
  by_cases hd : domains = []
  · rw [hd, if_pos rfl]
    rfl
  · rw [if_neg hd]
    rfl

theorem run_restoreCommands :
    runCommands (restoreCommands record) current = record.restored current := by
  unfold restoreCommands
  rw [runCommands_append, runCommands_append, run_setBypassDomains]
  refine (congrArg (fun x : ServiceSettings => { x with bypassDomains :=
    if record.bypassDomains = ["Empty".toList] then [] else record.bypassDomains })
    (run_setAutoProxyUrl _)).trans ?_
  simp only [runCommands_append, run_restoreProxySetting]
  rfl

theorem ServiceSettings.undone_iff :
    record.Undone current original ↔ record.restored current = original := by
  constructor
  · intro h
    have hweb := ProxySetting.undone_iff.mp h.webProxy
    have hsecure := ProxySetting.undone_iff.mp h.secureWebProxy
    have hsocks := ProxySetting.undone_iff.mp h.socksProxy
    have hurl := AutoProxyUrl.undone_iff.mp h.autoProxyUrl
    unfold restored
    rw [hweb, hsecure, hsocks, hurl, ← h.autoDiscovery, ← h.bypassDomains]
  · rintro rfl
    exact ⟨ProxySetting.undone_iff.mpr rfl, ProxySetting.undone_iff.mpr rfl,
      ProxySetting.undone_iff.mpr rfl, rfl, AutoProxyUrl.undone_iff.mpr rfl, rfl⟩

def ServiceSettings.proxy (x : ServiceSettings) : ProxyKind → ProxySetting
  | .web => x.webProxy
  | .secureWeb => x.secureWebProxy
  | .socks => x.socksProxy

/-- What a call of `set_system_proxy` leaves of a service. -/
def configured (endpoint : ProxyEndpoint) (exceptions : List Text) (pacUrl : Option Text)
    (x : ServiceSettings) : ServiceSettings :=
  match pacUrl with
  | some url => { x with
      webProxy.enabled := false
      secureWebProxy.enabled := false
      socksProxy.enabled := false
      proxyAutoDiscoveryEnabled := false
      autoProxyUrl := ⟨true, some url⟩ }
  | none => {
      webProxy := ⟨true, some endpoint.host, some endpoint.port⟩
      secureWebProxy := ⟨true, some endpoint.host, some endpoint.port⟩
      socksProxy := ⟨true, some endpoint.host, some endpoint.port⟩
      proxyAutoDiscoveryEnabled := false
      autoProxyUrl := { x.autoProxyUrl with enabled := false }
      bypassDomains := if exceptions = ["Empty".toList] then [] else exceptions }

theorem run_configureCommands (endpoint : ProxyEndpoint) (exceptions : List Text)
    (pacUrl : Option Text) : runCommands (configureCommands endpoint exceptions pacUrl) current =
      configured endpoint exceptions pacUrl current := by
  cases pacUrl <;> rfl

/-- Wherever a call breaks off, PAC mode has left the servers, the ports and the bypass list, and
manual mode the PAC URL. -/
theorem run_take_configureCommands (endpoint : ProxyEndpoint) (exceptions : List Text)
    (pacUrl : Option Text) (n : ℕ) :
    let after := runCommands ((configureCommands endpoint exceptions pacUrl).take n) current
    if pacUrl.isSome then
      (∀ kind, (after.proxy kind).server = (current.proxy kind).server ∧
        (after.proxy kind).port = (current.proxy kind).port) ∧
        after.bypassDomains = current.bypassDomains
    else after.autoProxyUrl.url = current.autoProxyUrl.url := by
  cases pacUrl with
  | some url =>
    have hmem {c : ProxyCommand}
        (hc : c ∈ (configureCommands endpoint exceptions (some url)).take n) :
        (∃ kind on, c = .setProxyState kind on) ∨ (∃ on, c = .setAutoDiscovery on) ∨
          (∃ url, c = .setAutoProxyUrl url) ∨ ∃ on, c = .setAutoProxyState on := by
      have hc := List.mem_of_mem_take hc
      simp only [configureCommands, List.mem_cons, List.not_mem_nil, or_false] at hc
      rcases hc with rfl | rfl | rfl | rfl | rfl | rfl <;> simp
    have hproxy (kind : ProxyKind) : ∀ c ∈ (configureCommands endpoint exceptions
        (some url)).take n, ∀ x, ((networksetup c x).proxy kind).server = (x.proxy kind).server ∧
          ((networksetup c x).proxy kind).port = (x.proxy kind).port := by
      intro c hc x
      obtain ⟨kind', on, rfl⟩ | ⟨on, rfl⟩ | ⟨url, rfl⟩ | ⟨on, rfl⟩ := hmem hc
      · cases kind' <;> cases kind <;> exact ⟨rfl, rfl⟩
      all_goals cases kind <;> exact ⟨rfl, rfl⟩
    refine ⟨fun kind => ⟨?_, ?_⟩, ?_⟩
    · exact runCommands_keeps (fun x => (x.proxy kind).server) fun c hc x => (hproxy kind c hc x).1
    · exact runCommands_keeps (fun x => (x.proxy kind).port) fun c hc x => (hproxy kind c hc x).2
    · apply runCommands_keeps ServiceSettings.bypassDomains
      intro c hc x
      obtain ⟨kind', on, rfl⟩ | ⟨on, rfl⟩ | ⟨url, rfl⟩ | ⟨on, rfl⟩ := hmem hc
      · cases kind' <;> rfl
      all_goals rfl
  | none =>
    apply runCommands_keeps fun x => x.autoProxyUrl.url
    intro c hc x
    have hc := List.mem_of_mem_take hc
    simp only [configureCommands, List.mem_cons, List.not_mem_nil, or_false] at hc
    rcases hc with rfl | rfl | rfl | rfl | rfl | rfl | rfl | rfl | rfl
    all_goals rfl

/-- What can be restored after a call: proxies that were on with server and port, or that were off
and, in manual mode, already had those of the helper; a PAC URL, or one that was off and, in PAC
mode, already that of the helper. -/
theorem undone_configured_iff (endpoint : ProxyEndpoint) (exceptions : List Text)
    (pacUrl : Option Text) :
    original.Undone (configured endpoint exceptions pacUrl original) original ↔
      (∀ kind, (original.proxy kind).enabled ∧ (original.proxy kind).server.isSome ∧
          (original.proxy kind).port.isSome ∨
        (original.proxy kind).enabled = false ∧ (pacUrl = none →
          (original.proxy kind).server = some endpoint.host ∧
            (original.proxy kind).port = some endpoint.port)) ∧
      (original.autoProxyUrl.url.any (fun url => !url.isEmpty) ∨
        original.autoProxyUrl.enabled = false ∧ ∀ url, pacUrl = some url →
          original.autoProxyUrl.url = some url) ∧
      original.bypassDomains ≠ ["Empty".toList] := by
  have hproxy (kind : ProxyKind) :
      (original.proxy kind).Undone ((configured endpoint exceptions pacUrl original).proxy kind)
          (original.proxy kind) ↔
        (original.proxy kind).enabled ∧ (original.proxy kind).server.isSome ∧
            (original.proxy kind).port.isSome ∨
          (original.proxy kind).enabled = false ∧ (pacUrl = none →
            (original.proxy kind).server = some endpoint.host ∧
              (original.proxy kind).port = some endpoint.port) := by
    unfold ProxySetting.Undone
    split_ifs with hcomplete
    · exact iff_of_true rfl (.inl hcomplete)
    · rw [or_iff_right hcomplete]
      cases pacUrl <;> cases kind <;> simp [configured, ServiceSettings.proxy]
  have hurl : original.autoProxyUrl.Undone
      (configured endpoint exceptions pacUrl original).autoProxyUrl original.autoProxyUrl ↔
        original.autoProxyUrl.url.any (fun url => !url.isEmpty) ∨
          original.autoProxyUrl.enabled = false ∧ ∀ url, pacUrl = some url →
            original.autoProxyUrl.url = some url := by
    unfold AutoProxyUrl.Undone
    split_ifs with hset
    · exact iff_of_true rfl (.inl hset)
    · rw [or_iff_right hset]
      cases pacUrl <;> simp [configured]
  have hbypass : original.bypassDomains =
      (if original.bypassDomains = ["Empty".toList] then [] else original.bypassDomains) ↔
        original.bypassDomains ≠ ["Empty".toList] := by
    split_ifs with hempty
    · simp [hempty]
    · exact iff_of_true rfl hempty
  rw [← hurl, ← hbypass]
  constructor
  · intro h
    refine ⟨fun kind => (hproxy kind).mp ?_, h.autoProxyUrl, h.bypassDomains⟩
    cases kind with
    | web => exact h.webProxy
    | secureWeb => exact h.secureWebProxy
    | socks => exact h.socksProxy
  · rintro ⟨hproxies, hautoProxyUrl, hdomains⟩
    exact ⟨(hproxy .web).mpr (hproxies .web), (hproxy .secureWeb).mpr (hproxies .secureWeb),
      (hproxy .socks).mpr (hproxies .socks), rfl, hautoProxyUrl, hdomains⟩

/-- What commands leave of all services. -/
def applyCommands (todo : List (Text × ProxyCommand)) (settings : Text → ServiceSettings) :
    Text → ServiceSettings :=
  todo.foldl (fun x q => Function.update x q.1 (networksetup q.2 (x q.1))) settings

theorem applyCommands_append (todo todo' : List (Text × ProxyCommand)) :
    applyCommands (todo ++ todo') settings = applyCommands todo' (applyCommands todo settings) :=
  List.foldl_append

theorem applyCommands_map (commands : List ProxyCommand) :
    applyCommands (commands.map fun c => (service, c)) settings =
      Function.update settings service (runCommands commands (settings service)) := by
  induction commands generalizing settings with
  | nil => exact (Function.update_eq_self _ _).symm
  | cons c commands ih =>
    have hstep : applyCommands ((c :: commands).map fun c => (service, c)) settings =
        applyCommands (commands.map fun c => (service, c))
          (Function.update settings service (networksetup c (settings service))) := rfl
    rw [hstep, ih, Function.update_self, Function.update_idem]
    rfl

/-- The commands of `restore_system_proxy` for a snapshot. -/
def restoreTodo (services : List Text) (snapshot : ProxySnapshot) : List (Text × ProxyCommand) :=
  (snapshot.filter fun q => services.contains q.1).flatMap fun q =>
    (restoreCommands q.2).map fun c => (q.1, c)

theorem apply_restoreTodo (hn : (snapshot.map Prod.fst).Nodup) (service : Text)
    (settings : Text → ServiceSettings) :
    applyCommands (restoreTodo services snapshot) settings service =
      match snapshot.lookup service with
      | some record =>
        if service ∈ services then record.restored (settings service) else settings service
      | none => settings service := by
  induction snapshot generalizing settings with
  | nil => rfl
  | cons q snapshot ih =>
    obtain ⟨name, record⟩ := q
    obtain ⟨hname, hn⟩ := List.nodup_cons.mp hn
    have hfirst : applyCommands (restoreTodo services ((name, record) :: snapshot)) settings =
        applyCommands (restoreTodo services snapshot) (if name ∈ services then
          Function.update settings name (record.restored (settings name)) else settings) := by
      by_cases hs : name ∈ services
      · have htodo : restoreTodo services ((name, record) :: snapshot) =
            (restoreCommands record).map (fun c => (name, c)) ++ restoreTodo services snapshot := by
          simp [restoreTodo, hs]
        rw [htodo, applyCommands_append, applyCommands_map, run_restoreCommands, if_pos hs]
      · have htodo : restoreTodo services ((name, record) :: snapshot) =
            restoreTodo services snapshot := by
          simp [restoreTodo, hs]
        rw [htodo, if_neg hs]
    rw [hfirst, ih hn]
    by_cases hne : service = name
    · subst name
      have hl : snapshot.lookup service = none := by
        rw [List.lookup_eq_none_iff]
        intro p hp
        have hpn : service ≠ p.1 := by
          rintro rfl
          have hmem : p.1 ∈ snapshot.map Prod.fst := List.mem_map_of_mem hp
          exact hname hmem
        simpa using hpn
      rw [hl, List.lookup_cons_self]
      by_cases hs : service ∈ services
      · simp [hs]
      · simp [hs]
    · have hl : List.lookup service ((name, record) :: snapshot) = snapshot.lookup service := by
        have hb : (service == name) = false := by simpa using hne
        rw [List.lookup_cons, hb]
      have hsame : (if name ∈ services then
          Function.update settings name (record.restored (settings name)) else settings) service =
          settings service := by
        split_ifs
        · exact Function.update_of_ne hne _ _
        · rfl
      rw [hl, hsame]

end Commands

variable {ι : Type*} [DecidableEq ι]

/-- `first` is what the services had when they were first recorded since the last complete restore,
`before` what they had when the last restore began. `faithful` says that no test has missed the
snapshot file and that no failed query was read as a setting. -/
structure RestoreHistory where
  first : Text → Option ServiceSettings
  before : Text → ServiceSettings
  faithful : Prop

namespace RestoreHistory

def none : RestoreHistory where
  first _ := .none
  before _ := ProxyQuery.unread
  faithful := True

/-- The step does not miss the file and reads no failure as a setting. -/
def Reads (s : ProxyState ι) : ProxyAction ι → Prop
  | .setLook _ ok | .restoreLook _ ok => ok ∨ s.snapshot = .none
  | .setQuery i ok =>
    match s.request i with
    | .set _ (.querying _ service _ _ (.autoDiscovery :: _) _) =>
      (ok && s.services.contains service) ∨ (s.settings service).proxyAutoDiscoveryEnabled = false
    | _ => True
  | _ => True

def record (g : RestoreHistory) (s : ProxyState ι) (a : ProxyAction ι) : RestoreHistory where
  first :=
    match a with
    | .setWrite i true =>
      match s.request i with
      | .set _ (.writing _ snapshot) => fun service =>
        (g.first service).or ((snapshot.lookup service).map fun _ => s.settings service)
      | _ => g.first
    | .restoreRemove _ true => fun _ => .none
    | _ => g.first
  before :=
    match a with
    | .restoreBegin _ => s.settings
    | _ => g.before
  faithful := g.faithful ∧ Reads s a

end RestoreHistory

/-- The requests over `networksetup`, with the history of restores. -/
def restoreHistories (ι : Type*) [DecidableEq ι] :
    System (ProxyState ι × RestoreHistory) (ProxyAction ι) :=
  (proxySystem ι networksetup).observe .none RestoreHistory.record

/-- No two requests overlap, and while one is in progress no service appears or disappears and
nobody else changes one. -/
def Sequential (s : ProxyState ι) : ProxyAction ι → Prop
  | .setBegin _ _ | .restoreBegin _ | .appear _ | .vanish _ | .edit _ _ =>
    ∀ j, ¬ (s.request j).running
  | _ => True

/-- The steps with which `restore_system_proxy` returns `Ok`: it finds no file, or it has removed
the file. -/
def ReturnsOk (s : ProxyState ι) : ProxyAction ι → Prop
  | .restoreLook _ ok => ¬ (ok && s.snapshot.isSome)
  | .restoreRemove _ ok => ok
  | _ => False

/-- The snapshot that a restore which returns with this step has read. -/
def restoredFrom (s : ProxyState ι) : ProxyAction ι → ProxySnapshot
  | .restoreRemove _ _ => s.snapshot.getD []
  | _ => []

/-- Every service that is present has the settings it had when it was first recorded. -/
def Undoes (g : RestoreHistory) (t : ProxyState ι) : Prop :=
  ∀ service ∈ t.services, ∀ original, g.first service = some original →
    t.settings service = original

def Restorable (p : ProxyState ι × RestoreHistory) (a : ProxyAction ι) : Prop :=
  ∀ service ∈ p.1.services, ∀ original, p.2.first service = some original →
    match (restoredFrom p.1 a).lookup service with
    | some record => record.Undone (p.2.before service) original
    | none => p.2.before service = original

/-- The services in the snapshot of a call are different. -/
def SetPhase.Distinct : SetPhase → Prop
  | .checking _ snapshot | .recording _ _ snapshot _ | .writing _ snapshot =>
    (snapshot.map Prod.fst).Nodup
  | .querying _ service _ snapshot _ _ => (snapshot.map Prod.fst ++ [service]).Nodup
  | _ => True

/-- What a call in progress relies on. -/
def ProxyRequest.Undoing (s : ProxyState ι) (g : RestoreHistory) : ProxyRequest → Prop
  | .idle | .done => True
  | .set _ p => p.Distinct ∧ (g.faithful → p.Known s.snapshot s.settings)
  | .restore .looking | .restore .reading => g.before = s.settings
  | .restore (.listing snapshot) => g.before = s.settings ∧ s.snapshot = some snapshot
  | .restore (.restoring todo) => ∃ snapshot, s.snapshot = some snapshot ∧
      applyCommands todo s.settings = applyCommands (restoreTodo s.services snapshot) g.before

structure Undoing (s : ProxyState ι) (g : RestoreHistory) : Prop where
  alone : ∀ i j, (s.request i).running → (s.request j).running → i = j
  distinct : ((s.snapshot.getD []).map Prod.fst).Nodup
  recorded : g.faithful → ∀ service, g.first service = saved s.snapshot service
  request : ∀ i, (s.request i).Undoing s g

namespace Undoing

variable {s t : ProxyState ι} {g g' : RestoreHistory} {i : ι} {q : ProxyRequest}

omit [DecidableEq ι] in
theorem initial (services : List Text) (settings : Text → ServiceSettings) :
    Undoing (.initial services settings : ProxyState ι) .none where
  alone _ _ h := Bool.noConfusion h
  distinct := .nil
  recorded _ _ := rfl
  request _ := trivial

omit [DecidableEq ι] in
theorem not_running (hs : Undoing s g) (hi : (s.request i).running) :
    ∀ j, j ≠ i → ¬ (s.request j).running := fun j hj hr => hj (hs.alone j i hr hi)

omit [DecidableEq ι] in
theorem request_at (hs : Undoing s g) (hi : s.request i = q) : q.Undoing s g := hi ▸ hs.request i

omit [DecidableEq ι] in
theorem of_not_running (hq : ¬ q.running) : q.Undoing t g := by
  cases q with
  | idle | done => trivial
  | set | restore => exact absurd rfl hq

/-- A request moves on while no other is in progress. -/
theorem of_update (hn : ∀ j, j ≠ i → ¬ (s.request j).running)
    (ht : t.request = Function.update s.request i q)
    (hd : ((t.snapshot.getD []).map Prod.fst).Nodup)
    (hr : g'.faithful → ∀ service, g'.first service = saved t.snapshot service)
    (hq : q.Undoing t g') : Undoing t g' where
  alone j k hj hk := by
    have hi (l : ι) (hl : (t.request l).running) : l = i := by
      by_contra hne
      rw [ht, Function.update_of_ne hne] at hl
      exact hn l hne hl
    rw [hi j hj, hi k hk]
  distinct := hd
  recorded := hr
  request j := by
    rw [ht]
    by_cases hji : j = i
    · subst j
      simpa using hq
    · rw [Function.update_of_ne hji]
      exact of_not_running (hn j hji)

/-- A request moves on, and nothing else changes. -/
theorem move (hs : Undoing s g) (hn : ∀ j, j ≠ i → ¬ (s.request j).running)
    (hf : g'.faithful → g.faithful) (hfirst : g'.first = g.first) (hq : q.Undoing s g') :
    Undoing (s.setRequest i q) g' :=
  of_update hn rfl hs.distinct (fun hg => hfirst ▸ hs.recorded (hf hg)) hq

omit [DecidableEq ι] in
/-- While no request is in progress, the services are not looked at. -/
theorem idle (hs : Undoing s g) (hn : ∀ j, ¬ (s.request j).running)
    (ht : t.request = s.request) (hsnap : t.snapshot = s.snapshot)
    (hf : g'.faithful → g.faithful) (hfirst : g'.first = g.first) : Undoing t g' where
  alone := by
    rw [ht]
    exact hs.alone
  distinct := hsnap ▸ hs.distinct
  recorded hg := by
    rw [hfirst, hsnap]
    exact hs.recorded (hf hg)
  request i := by
    rw [ht]
    exact of_not_running (hn i)

/-- A call of `set_system_proxy` moves on. -/
theorem setMove (hs : Undoing s g) {r : SetSystemProxy} {p p' : SetPhase}
    (hi : s.request i = .set r p) (hf : g'.faithful → g.faithful) (hfirst : g'.first = g.first)
    (hd : p.Distinct → p'.Distinct)
    (hk : g'.faithful → p.Known s.snapshot s.settings → p'.Known s.snapshot s.settings) :
    Undoing (s.setRequest i (.set r p')) g' := by
  have hn := hs.not_running (running_of_set hi)
  obtain ⟨hdist, hknown⟩ := hs.request_at hi
  exact hs.move hn hf hfirst ⟨hd hdist, fun hg => hk hg (hknown (hf hg))⟩

/-- A request ends. -/
theorem endRequest (hs : Undoing s g) (hi : (s.request i).running)
    (hf : g'.faithful → g.faithful) (hfirst : g'.first = g.first) :
    Undoing (s.setRequest i .done) g' :=
  hs.move (hs.not_running hi) hf hfirst trivial

theorem setLookNone (hs : Undoing s g) {r : SetSystemProxy} {services : List Text} {ok : Bool}
    (hi : s.request i = .set r (.looking services)) (hfile : ok → s.snapshot = none) :
    Undoing (s.setRequest i (.set r (.checking services []))) (g.record s (.setLook i ok)) := by
  refine hs.setMove hi And.left rfl ?_ ?_
  · intro _
    exact .nil
  · intro hg _
    have hread : ok ∨ s.snapshot = none := hg.2
    have hnone : s.snapshot = none := hread.elim hfile id
    simp [SetPhase.Known, hnone]

theorem setRead (hs : Undoing s g) {r : SetSystemProxy} {services : List Text}
    {snapshot : ProxySnapshot} {ok : Bool} (hi : s.request i = .set r (.reading services))
    (hfile : s.snapshot = some snapshot) :
    Undoing (s.setRequest i (.set r (.checking services snapshot)))
      (g.record s (.setRead i ok)) := by
  refine hs.setMove hi And.left rfl ?_ ?_
  · intro _
    have hd := hs.distinct
    rwa [hfile] at hd
  · intro _ _
    simp [SetPhase.Known, hfile]

theorem setRecord (hs : Undoing s g) {r : SetSystemProxy} {services todo : List Text}
    {service : Text} {snapshot : ProxySnapshot} {changed : Bool}
    (hi : s.request i = .set r (.recording services (service :: todo) snapshot changed)) :
    Undoing (s.setRequest i (.set r
      (if snapshot.any (·.1 = service) then .recording services todo snapshot changed
        else .querying services service todo snapshot ProxyQuery.all ProxyQuery.unread)))
      (g.record s (.setRecord i)) := by
  refine hs.setMove hi And.left rfl (fun hd => ?_) fun _ hk => SetPhase.known_record hk
  have hd : (snapshot.map Prod.fst).Nodup := hd
  split_ifs with hany
  · exact hd
  · have hnew : service ∉ snapshot.map Prod.fst := by
      intro hmem
      obtain ⟨q, hq, rfl⟩ := List.mem_map.mp hmem
      exact hany (List.any_eq_true.mpr ⟨q, hq, by simp⟩)
    have hcons : (service :: snapshot.map Prod.fst).Nodup := List.nodup_cons.mpr ⟨hnew, hd⟩
    exact (List.perm_append_singleton service (snapshot.map Prod.fst)).nodup_iff.mpr hcons

theorem setQuery (hs : Undoing s g) {r : SetSystemProxy} {services todo : List Text}
    {service : Text} {snapshot : ProxySnapshot} {q : ProxyQuery} {left : List ProxyQuery}
    {read read' : ServiceSettings} {ok : Bool}
    (hi : s.request i = .set r (.querying services service todo snapshot (q :: left) read))
    (hread : (g.record s (.setQuery i ok)).faithful → read' = q.copy (s.settings service) read) :
    Undoing (s.setRequest i (.set r
      (if left = [] then .recording services todo (snapshot ++ [(service, read')]) true
        else .querying services service todo snapshot left read')))
      (g.record s (.setQuery i ok)) := by
  refine hs.setMove hi And.left rfl (fun hd => ?_) fun hg hk => ?_
  · have hd : (snapshot.map Prod.fst ++ [service]).Nodup := hd
    split_ifs
    · simpa [SetPhase.Distinct] using hd
    · exact hd
  · rw [hread hg]
    exact SetPhase.known_query hk

/-- The snapshot file is written: what is new in it has the settings of the moment. -/
theorem setWrite (hs : Undoing s g) {r : SetSystemProxy} {services : List Text}
    {snapshot : ProxySnapshot} (hi : s.request i = .set r (.writing services snapshot)) :
    Undoing { s.setRequest i (.set r (ProxyState.configuring r services snapshot)) with
      snapshot := some snapshot } (g.record s (.setWrite i true)) := by
  have hn := hs.not_running (running_of_set hi)
  obtain ⟨hd, hk⟩ := hs.request_at hi
  refine of_update hn rfl hd (fun hg service => ?_) ⟨trivial, fun _ q hq => saved_of_commands hq⟩
  obtain ⟨new, hx⟩ := hk hg.1
  have hfirst : (g.record s (.setWrite i true)).first service =
      (g.first service).or ((snapshot.lookup service).map fun _ => s.settings service) := by
    simp only [RestoreHistory.record, hi]
  have hsaved : saved (some snapshot) service =
      (saved s.snapshot service).or (new.lookup service) := by
    simp [saved, hx.eq, List.lookup_append]
  rw [hfirst, hs.recorded hg.1 service, hsaved]
  cases hold : saved s.snapshot service with
  | some x => rfl
  | none =>
    have hl : snapshot.lookup service = new.lookup service := by
      have hold : (s.snapshot.getD []).lookup service = none := hold
      rw [hx.eq, List.lookup_append, hold, Option.none_or]
    rw [hl, Option.none_or, Option.none_or]
    cases hnew : new.lookup service with
    | none => rfl
    | some x =>
      obtain ⟨before, after, rfl, -⟩ := List.lookup_eq_some_iff.mp hnew
      have hfresh := (hx.fresh (service, x) (by simp)).2
      exact congrArg some hfresh

theorem restoreList (hs : Undoing s g) {snapshot : ProxySnapshot} {ok : Bool}
    (hi : s.request i = .restore (.listing snapshot)) :
    Undoing (s.setRequest i (.restore (ProxyState.restoring s.services snapshot)))
      (g.record s (.restoreList i ok)) := by
  have hn := hs.not_running (running_of_restore hi)
  obtain ⟨hb, hfile⟩ := hs.request_at hi
  refine hs.move hn And.left rfl ⟨snapshot, hfile, ?_⟩
  have hb : (g.record s (.restoreList i ok)).before = s.settings := hb
  rw [hb]
  rfl

theorem restoreCommand (hs : Undoing s g) {service : Text} {c : ProxyCommand}
    {todo : List (Text × ProxyCommand)} {ok : Bool}
    (hi : s.request i = .restore (.restoring ((service, c) :: todo))) :
    Undoing { s.setRequest i (.restore (.restoring todo)) with
      settings := Function.update s.settings service (networksetup c (s.settings service)) }
      (g.record s (.restoreCommand i ok)) := by
  have hn := hs.not_running (running_of_restore hi)
  obtain ⟨snapshot, hfile, happly⟩ := hs.request_at hi
  exact of_update hn rfl hs.distinct (fun hg => hs.recorded hg.1) ⟨snapshot, hfile, happly⟩

theorem restoreRemove (hs : Undoing s g) {ok : Bool}
    (hi : s.request i = .restore (.restoring [])) :
    Undoing { s.setRequest i .done with snapshot := if ok then none else s.snapshot }
      (g.record s (.restoreRemove i ok)) := by
  have hn := hs.not_running (running_of_restore hi)
  cases ok with
  | false => exact hs.move hn And.left rfl trivial
  | true => exact of_update hn rfl .nil (fun _ _ => rfl) trivial

omit [DecidableEq ι] in
/-- What a failing query leaves in the snapshot is wrong only where auto-discovery was on. -/
theorem read_eq {services todo : List Text} {service : Text} {snapshot : ProxySnapshot}
    {left : List ProxyQuery} {read : ServiceSettings} {r : SetSystemProxy} {ok : Bool}
    (hi : s.request i =
      .set r (.querying services service todo snapshot (.autoDiscovery :: left) read))
    (hok : (ok && s.services.contains service) = false)
    (hg : (g.record s (.setQuery i ok)).faithful) :
    { read with proxyAutoDiscoveryEnabled := false } =
      ProxyQuery.autoDiscovery.copy (s.settings service) read := by
  have hreads : RestoreHistory.Reads s (.setQuery i ok) := hg.2
  unfold RestoreHistory.Reads at hreads
  simp only [hi, hok, Bool.false_eq_true, false_or] at hreads
  simp [ProxyQuery.copy, hreads]

theorem setCommand (hs : Undoing s g) {r : SetSystemProxy} {service : Text} {c : ProxyCommand}
    {todo : List (Text × ProxyCommand)} {ok : Bool}
    (hi : s.request i = .set r (.configuring ((service, c) :: todo))) :
    Undoing { s.setRequest i (.set r (.configuring todo)) with
      settings := Function.update s.settings service (networksetup c (s.settings service)) }
      (g.record s (.setCommand i ok)) := by
  have hn := hs.not_running (running_of_set hi)
  obtain ⟨hd, hk⟩ := hs.request_at hi
  refine of_update hn rfl hs.distinct (fun hg => hs.recorded hg.1) ⟨hd, ?_⟩
  exact fun hg q hq => hk hg.1 q (.tail _ hq)

theorem step {a : ProxyAction ι} (hs : Undoing s g) (hseq : Sequential s a)
    (h : ProxyStep networksetup s a t) : Undoing t (g.record s a) := by
  cases h with
  | appear | vanish | edit => exact hs.idle hseq rfl rfl And.left rfl
  | setBegin =>
    exact hs.move (fun j _ => hseq j) And.left rfl ⟨trivial, fun _ => trivial⟩
  | setRefused => exact hs.move (fun j _ => hseq j) And.left rfl trivial
  | setList hi | setLook hi =>
    exact hs.setMove hi And.left rfl (fun _ => trivial) fun _ _ => trivial
  | setLookNone hi hfile => exact hs.setLookNone hi hfile
  | setRead hi hfile => exact hs.setRead hi hfile
  | setCheck hi => exact hs.setMove hi And.left rfl id fun _ hk => SetPhase.known_checked _ hk
  | setRecord hi => exact hs.setRecord hi
  | setRecorded hi =>
    refine hs.setMove hi And.left rfl ?_ ?_
    · intro hd
      split_ifs
      · exact hd
      · trivial
    · exact fun _ hk => SetPhase.known_recorded hk
  | setQuery hi => exact hs.setQuery hi fun _ => rfl
  | setQueryFalse hi hok => exact hs.setQuery hi (read_eq hi hok)
  | setWrite hi => exact hs.setWrite hi
  | setCommand hi => exact hs.setCommand hi
  | restoreBegin => exact hs.move (fun j _ => hseq j) And.left rfl rfl
  | restoreLook hi =>
    have hn := hs.not_running (running_of_restore hi)
    have hb : g.before = s.settings := hs.request_at hi
    exact hs.move hn And.left rfl hb
  | restoreRead hi hfile =>
    have hn := hs.not_running (running_of_restore hi)
    have hb : g.before = s.settings := hs.request_at hi
    exact hs.move hn And.left rfl ⟨hb, hfile⟩
  | restoreList hi => exact hs.restoreList hi
  | restoreCommand hi => exact hs.restoreCommand hi
  | restoreRemove hi => exact hs.restoreRemove hi
  | setListFails hi | setReadFails hi | setQueryFails hi | setWriteFails hi
  | setCommandFails hi | setReturns hi => exact hs.endRequest (running_of_set hi) And.left rfl
  | restoreLookNone hi | restoreReadFails hi | restoreListFails hi | restoreCommandFails hi =>
    exact hs.endRequest (running_of_restore hi) And.left rfl

end Undoing

variable {p : ProxyState ι × RestoreHistory} {t : ProxyState ι} {a : ProxyAction ι}

theorem undoing_of_sequential
    (h : (restoreHistories ι).ReachUnder (fun q a => Sequential q.1 a) p) : Undoing p.1 p.2 := by
  refine h.invariant (I := fun q => Undoing q.1 q.2) ?_ ?_
  · rintro ⟨s, g⟩ ⟨⟨services, settings, rfl⟩, rfl⟩
    exact .initial services settings
  · intro p a q _ hs hseq hq
    obtain ⟨ht, hg⟩ := System.observe_step.mp hq
    rw [hg]
    exact hs.step hseq (proxyStep_of_step ht)

/-- What a restore that returns `Ok` leaves of the services that are present. -/
theorem settings_of_returnsOk (hs : Undoing p.1 p.2) (hret : ReturnsOk p.1 a)
    (h : p.1.step networksetup a = some t) : t.services = p.1.services ∧
      ∀ service ∈ p.1.services, t.settings service =
        match (restoredFrom p.1 a).lookup service with
        | some record => record.restored (p.2.before service)
        | none => p.2.before service := by
  cases a with
  | restoreLook i ok =>
    obtain ⟨hi, rfl⟩ := when_eq_some.mp h
    have hb : p.2.before = p.1.settings := hs.request_at hi
    exact ⟨rfl, fun service _ => (congrFun hb service).symm⟩
  | restoreRemove i ok =>
    obtain ⟨hi, rfl⟩ := when_eq_some.mp h
    obtain ⟨snapshot, hfile, happly⟩ := hs.request_at hi
    have hd : (snapshot.map Prod.fst).Nodup := by simpa [hfile] using hs.distinct
    refine ⟨rfl, fun service hservice => ?_⟩
    have hset := congrFun happly service
    rw [apply_restoreTodo hd] at hset
    simp only [if_pos hservice] at hset
    simp only [restoredFrom, hfile, Option.getD_some]
    exact hset
  | appear | vanish | edit | setBegin | setList | setLook | setRead | setCheck | setRecord
  | setQuery | setWrite | setCommand | restoreBegin | restoreRead | restoreList
  | restoreCommand => exact hret.elim

/-- A restore that returns `Ok` gives every service back what it had when it was first recorded
exactly where its settings can be undone from the snapshot, and the snapshot has just what was
recorded as long as no test has missed the file and no failed query was read as a setting. -/
theorem undoes_iff_restorable
    (h : (restoreHistories ι).ReachUnder (fun q a => Sequential q.1 a) p)
    (hret : ReturnsOk p.1 a) (ht : p.1.step networksetup a = some t) :
    (Undoes p.2 t ↔ Restorable p a) ∧
      (p.2.faithful → ∀ service, p.2.first service = saved p.1.snapshot service) := by
  have hs := undoing_of_sequential h
  obtain ⟨hservices, hsettings⟩ := settings_of_returnsOk hs hret ht
  have hiff (service : Text) (hservice : service ∈ p.1.services) (original : ServiceSettings) :
      t.settings service = original ↔
        match (restoredFrom p.1 a).lookup service with
        | some record => record.Undone (p.2.before service) original
        | none => p.2.before service = original := by
    rw [hsettings service hservice]
    cases (restoredFrom p.1 a).lookup service with
    | none => rfl
    | some record => exact ServiceSettings.undone_iff.symm
  refine ⟨?_, hs.recorded⟩
  unfold Undoes Restorable
  rw [hservices]
  constructor
  · intro hu service hservice original hfirst
    exact (hiff service hservice original).mp (hu service hservice original hfirst)
  · intro hu service hservice original hfirst
    exact (hiff service hservice original).mpr (hu service hservice original hfirst)

section Examples

private def ethernet : Text := "Ethernet".toList

/-- A web proxy that is switched off. -/
private def switchedOff : ServiceSettings :=
  { ProxyQuery.unread with webProxy := ⟨false, some "proxy.example".toList, some 8080⟩ }

private def throughPac : SetSystemProxy where
  endpoint := ⟨"127.0.0.1".toList, 1920⟩
  serverHost := []
  pacUrl := some "http://127.0.0.1:1920/proxy.pac?token=a1".toList

private def throughProxies : SetSystemProxy := { throughPac with pacUrl := none }

/-- A call of `set_system_proxy` that finds no file. -/
private def setActions (r : SetSystemProxy) (commands : ℕ) : List (ProxyAction Bool) :=
  .setBegin false r :: .setList false true :: .setLook false true :: .setCheck false true ::
    .setRecord false :: (List.replicate 6 (.setQuery false true)).append
      (.setRecord false :: .setWrite false true ::
        List.replicate commands (.setCommand false true))

/-- A restore up to the removal of the file. -/
private def restoreActions (commands : ℕ) : List (ProxyAction Bool) :=
  .restoreBegin true :: .restoreLook true true :: .restoreRead true true ::
    .restoreList true true :: List.replicate commands (.restoreCommand true true)

instance [Fintype ι] (s : ProxyState ι) (a : ProxyAction ι) : Decidable (Sequential s a) := by
  rcases a with ⟨⟩
  all_goals
    unfold Sequential
    infer_instance

private def offHelper (settings : ServiceSettings) : ProxyState Bool × RestoreHistory :=
  (.initial [ethernet] fun _ => settings, .none)

private theorem offHelper_reach (settings : ServiceSettings) : (restoreHistories Bool).ReachUnder
    (fun q a => Sequential q.1 a) (offHelper settings) := .init ⟨⟨_, _, rfl⟩, rfl⟩

/-- The same with a PAC URL, which is off as well. -/
private def withPac : ServiceSettings :=
  { switchedOff with autoProxyUrl := ⟨false, some "http://pac.example/".toList⟩ }

/-- The restore of the Ethernet service is done but for the removal of the file. -/
private def Restored (original : ServiceSettings) (p : ProxyState Bool × RestoreHistory) : Prop :=
  p.1.request true = .restore (.restoring []) ∧ p.1.services = [ethernet] ∧
    p.2.first ethernet = some original ∧
    (p.1.snapshot.getD []).lookup ethernet = some original

private instance (original : ServiceSettings) (p : ProxyState Bool × RestoreHistory) :
    Decidable (Restored original p) := inferInstanceAs (Decidable (_ ∧ _))

theorem undoes_pac : ∃ (p : ProxyState Bool × RestoreHistory) (t : ProxyState Bool),
    p.2.first ethernet = some withPac ∧ Undoes p.2 t := by
  have hmeets : (restoreHistories Bool).meets (fun q a => Sequential q.1 a) (offHelper withPac)
      (setActions throughPac 7 ++ restoreActions 7) := by decide +kernel
  have hany : ((restoreHistories Bool).run (offHelper withPac)
      (setActions throughPac 7 ++ restoreActions 7)).any (fun p => Restored withPac p ∧
        withPac.restored (p.2.before ethernet) = withPac) := by decide +kernel
  obtain ⟨p, hp, hfacts⟩ := (Option.any_eq_true _ _).mp hany
  obtain ⟨⟨hi, hservices, hfirst, hrecord⟩, hrestored⟩ := of_decide_eq_true hfacts
  have hr := (offHelper_reach withPac).run _ hmeets hp
  have ht : p.1.step networksetup (.restoreRemove true true) = some _ :=
    when_eq_some.mpr ⟨hi, rfl⟩
  refine ⟨p, _, hfirst, (undoes_iff_restorable (a := .restoreRemove true true) hr rfl ht).1.mpr ?_⟩
  intro service hservice original horiginal
  rw [hservices] at hservice
  obtain rfl := List.mem_singleton.mp hservice
  obtain rfl := Option.some.inj (hfirst.symm.trans horiginal)
  simp only [restoredFrom, hrecord]
  exact ServiceSettings.undone_iff.mpr hrestored

/-- After a call in manual mode the web proxy keeps the server and port of the helper. -/
theorem proxies_not_undone : ¬ ∀ (p : ProxyState Bool × RestoreHistory) (a : ProxyAction Bool)
    (t : ProxyState Bool), (restoreHistories Bool).ReachUnder (fun q a => Sequential q.1 a) p →
      ReturnsOk p.1 a → p.1.step networksetup a = some t → Undoes p.2 t := by
  intro hall
  have hmeets : (restoreHistories Bool).meets (fun q a => Sequential q.1 a)
      (offHelper switchedOff) (setActions throughProxies 10 ++ restoreActions 6) := by
    decide +kernel
  have hany : ((restoreHistories Bool).run (offHelper switchedOff)
      (setActions throughProxies 10 ++ restoreActions 6)).any (fun p => Restored switchedOff p ∧
        p.1.settings ethernet ≠ switchedOff) := by decide +kernel
  obtain ⟨p, hp, hfacts⟩ := (Option.any_eq_true _ _).mp hany
  obtain ⟨⟨hi, hservices, hfirst, -⟩, hne⟩ := of_decide_eq_true hfacts
  have hr := (offHelper_reach switchedOff).run _ hmeets hp
  have ht : p.1.step networksetup (.restoreRemove true true) = some _ :=
    when_eq_some.mpr ⟨hi, rfl⟩
  have hundoes := hall p (.restoreRemove true true) _ hr rfl ht
  exact hne (hundoes ethernet (by simp [hservices]) switchedOff hfirst)

end Examples

end NulConnect.Macos
