import NulConnect.Macos.Networksetup
import NulConnect.Net.SortDedup

/-! The proxy requests with what `networksetup` prints: over whole runs the helper reads the
settings that are there, and its own commands leave none that it could not read. -/
namespace NulConnect.Macos
open Net Transition

/-- A bypass domain that is read back. -/
def IsDomain (domain : Text) : Prop := IsField domain ∧ isBypassNote domain = false

/-- The command leaves settings that are read back. -/
def ProxyCommand.KeepsReadable (c : ProxyCommand) : Prop :=
  ∀ x, Readable x → Readable (networksetup c x)

/-- The parts of a request that end up in the settings. -/
structure SetSystemProxy.IsReadable (r : SetSystemProxy) : Prop where
  endpoint : IsValue r.endpoint.host
  server : trim r.serverHost ≠ [] → IsDomain (trim r.serverHost)
  url : ∀ url, r.pacUrl = some url → IsValue url

def ReadableSnapshot (snapshot : ProxySnapshot) : Prop := ∀ p ∈ snapshot, Readable p.2

def ReadableTodo (todo : List (Text × ProxyCommand)) : Prop := ∀ p ∈ todo, p.2.KeepsReadable

def SetPhase.IsReadable : SetPhase → Prop
  | .checking _ snapshot | .recording _ _ snapshot _ | .writing _ snapshot =>
    ReadableSnapshot snapshot
  | .querying _ _ _ snapshot _ read => ReadableSnapshot snapshot ∧ Readable read
  | .configuring todo => ReadableTodo todo
  | .listing | .looking _ | .reading _ => True

def RestorePhase.IsReadable : RestorePhase → Prop
  | .listing snapshot => ReadableSnapshot snapshot
  | .restoring todo => ReadableTodo todo
  | .looking | .reading => True

def ProxyRequest.IsReadable : ProxyRequest → Prop
  | .set r p => r.IsReadable ∧ p.IsReadable
  | .restore p => p.IsReadable
  | .idle | .done => True

section Commands

theorem keepsReadable_setProxy {kind : ProxyKind} {server : Text} {port : UInt16}
    (h : IsValue server) : (ProxyCommand.setProxy kind server port).KeepsReadable := by
  intro x hx
  have hserver : ∀ s, some server = some s → IsValue s := by
    rintro s ⟨⟩
    exact h
  cases kind with
  | web => exact { hx with web := hserver }
  | secureWeb => exact { hx with secureWeb := hserver }
  | socks => exact { hx with socks := hserver }

theorem keepsReadable_setProxyState (kind : ProxyKind) (on : Bool) :
    (ProxyCommand.setProxyState kind on).KeepsReadable := by
  intro x hx
  cases kind with
  | web => exact { hx with web := hx.web }
  | secureWeb => exact { hx with secureWeb := hx.secureWeb }
  | socks => exact { hx with socks := hx.socks }

theorem keepsReadable_setAutoDiscovery (on : Bool) :
    (ProxyCommand.setAutoDiscovery on).KeepsReadable := fun _ hx =>
  ⟨hx.web, hx.secureWeb, hx.socks, hx.url, hx.domains⟩

theorem keepsReadable_setAutoProxyState (on : Bool) :
    (ProxyCommand.setAutoProxyState on).KeepsReadable := fun _ hx =>
  ⟨hx.web, hx.secureWeb, hx.socks, hx.url, hx.domains⟩

theorem keepsReadable_setAutoProxyUrl {url : Text} (h : IsValue url) :
    (ProxyCommand.setAutoProxyUrl url).KeepsReadable := by
  intro x hx
  refine { hx with url := ?_ }
  rintro s ⟨⟩
  exact h

/-- The one domain `Empty` stands for none. -/
theorem keepsReadable_setBypassDomains {domains : List Text}
    (h : domains = ["Empty".toList] ∨ ∀ domain ∈ domains, IsDomain domain) :
    (ProxyCommand.setBypassDomains domains).KeepsReadable := by
  intro x hx
  refine { hx with domains := ?_ }
  change ∀ domain ∈ (if domains = ["Empty".toList] then [] else domains), IsDomain domain
  split_ifs with hempty
  · exact fun _ hdomain => absurd hdomain List.not_mem_nil
  · exact h.resolve_left hempty

theorem isDomain_of_mem_mergedExceptions {serverHost domain : Text} {snapshot : ProxySnapshot}
    (hserver : trim serverHost ≠ [] → IsDomain (trim serverHost))
    (hsnapshot : ReadableSnapshot snapshot)
    (h : domain ∈ mergedExceptions serverHost snapshot) : IsDomain domain := by
  rw [mergedExceptions, mem_sortDedup, List.mem_append] at h
  cases h with
  | inl hfixed =>
    simp only [List.mem_cons, List.not_mem_nil, or_false] at hfixed
    rcases hfixed with rfl | rfl | rfl | rfl | rfl
    all_goals exact ⟨⟨by decide, by decide, by decide⟩, by decide⟩
  | inr hadded =>
    obtain ⟨text, htext, hkept⟩ := List.mem_filterMap.mp hadded
    split_ifs at hkept with hempty
    obtain rfl := Option.some.inj hkept
    have hne : trim text ≠ [] := fun hnil => hempty (by rw [hnil]; rfl)
    rw [List.mem_cons, List.mem_flatMap] at htext
    obtain rfl | ⟨p, hp, hmem⟩ := htext
    · exact hserver hne
    · have hdomain := (hsnapshot p hp).domains text hmem
      rwa [hdomain.1.trimmed]

theorem keepsReadable_configureCommands {r : SetSystemProxy} {snapshot : ProxySnapshot}
    (hr : r.IsReadable) (hsnapshot : ReadableSnapshot snapshot) {c : ProxyCommand}
    (h : c ∈ configureCommands r.endpoint (mergedExceptions r.serverHost snapshot) r.pacUrl) :
    c.KeepsReadable := by
  cases hurl : r.pacUrl with
  | some url =>
    rw [hurl] at h
    simp only [configureCommands, List.mem_cons, List.not_mem_nil, or_false] at h
    rcases h with rfl | rfl | rfl | rfl | rfl | rfl
    · exact keepsReadable_setProxyState _ _
    · exact keepsReadable_setProxyState _ _
    · exact keepsReadable_setProxyState _ _
    · exact keepsReadable_setAutoDiscovery _
    · exact keepsReadable_setAutoProxyUrl (hr.url url hurl)
    · exact keepsReadable_setAutoProxyState _
  | none =>
    rw [hurl] at h
    simp only [configureCommands, List.mem_cons, List.not_mem_nil, or_false] at h
    rcases h with rfl | rfl | rfl | rfl | rfl | rfl | rfl | rfl | rfl
    · exact keepsReadable_setProxy hr.endpoint
    · exact keepsReadable_setProxyState _ _
    · exact keepsReadable_setProxy hr.endpoint
    · exact keepsReadable_setProxyState _ _
    · exact keepsReadable_setProxy hr.endpoint
    · exact keepsReadable_setProxyState _ _
    · exact keepsReadable_setAutoDiscovery _
    · exact keepsReadable_setAutoProxyState _
    · exact keepsReadable_setBypassDomains (.inr fun _ hdomain =>
        isDomain_of_mem_mergedExceptions hr.server hsnapshot hdomain)

theorem keepsReadable_restoreProxySetting {kind : ProxyKind} {setting : ProxySetting}
    (h : ∀ server, setting.server = some server → IsValue server) {c : ProxyCommand}
    (hc : c ∈ restoreProxySetting kind setting) : c.KeepsReadable := by
  unfold restoreProxySetting at hc
  split at hc
  · rename_i server port henabled hserver hport
    rw [List.mem_pair] at hc
    rcases hc with rfl | rfl
    · exact keepsReadable_setProxy (h server hserver)
    · exact keepsReadable_setProxyState _ _
  · obtain rfl := List.mem_singleton.mp hc
    exact keepsReadable_setProxyState _ _

theorem keepsReadable_restoreCommands {x : ServiceSettings} (hx : Readable x) {c : ProxyCommand}
    (h : c ∈ restoreCommands x) : c.KeepsReadable := by
  simp only [restoreCommands, List.mem_append, List.mem_singleton] at h
  rcases h with ((((hweb | hsecure) | hsocks) | rfl) | hurl) | rfl
  · exact keepsReadable_restoreProxySetting hx.web hweb
  · exact keepsReadable_restoreProxySetting hx.secureWeb hsecure
  · exact keepsReadable_restoreProxySetting hx.socks hsocks
  · exact keepsReadable_setAutoDiscovery _
  · split at hurl
    · rename_i url hfilter
      rw [List.mem_pair] at hurl
      rcases hurl with rfl | rfl
      · exact keepsReadable_setAutoProxyUrl (hx.url url (Option.filter_eq_some_iff.mp hfilter).1)
      · exact keepsReadable_setAutoProxyState _
    · obtain rfl := List.mem_singleton.mp hurl
      exact keepsReadable_setAutoProxyState _
  · apply keepsReadable_setBypassDomains
    split_ifs
    · exact .inl rfl
    · exact .inr hx.domains

/-- The commands for the services of a snapshot. -/
theorem readableTodo_of_snapshot (services : List Text) {snapshot : ProxySnapshot}
    (commands : ServiceSettings → List ProxyCommand)
    (h : ∀ p ∈ snapshot, ∀ c ∈ commands p.2, c.KeepsReadable) :
    ReadableTodo ((snapshot.filter fun q => services.contains q.1).flatMap fun q =>
      (commands q.2).map fun c => (q.1, c)) := by
  intro p hp
  obtain ⟨q, hq, hmem⟩ := List.mem_flatMap.mp hp
  obtain ⟨c, hc, rfl⟩ := List.mem_map.mp hmem
  exact h q (List.mem_filter.mp hq).1 c hc

theorem ReadableSnapshot.append {snapshot : ProxySnapshot} (h : ReadableSnapshot snapshot)
    {service : Text} {x : ServiceSettings} (hx : Readable x) :
    ReadableSnapshot (snapshot ++ [(service, x)]) := by
  refine List.forall_mem_append.mpr ⟨h, fun p hp => ?_⟩
  rw [List.mem_singleton.mp hp]
  exact hx

theorem isReadable_configuring {r : SetSystemProxy} {snapshot : ProxySnapshot}
    (hr : r.IsReadable) (hsnapshot : ReadableSnapshot snapshot) (services : List Text) :
    (ProxyState.configuring r services snapshot).IsReadable :=
  readableTodo_of_snapshot services
    (fun _ => configureCommands r.endpoint (mergedExceptions r.serverHost snapshot) r.pacUrl)
    fun _ _ _ hc => keepsReadable_configureCommands hr hsnapshot hc

theorem isReadable_restoring {snapshot : ProxySnapshot} (hsnapshot : ReadableSnapshot snapshot)
    (services : List Text) : (ProxyState.restoring services snapshot).IsReadable :=
  readableTodo_of_snapshot services restoreCommands
    fun p hp _ hc => keepsReadable_restoreCommands (hsnapshot p hp) hc

theorem ProxyQuery.readable_copy {x read : ServiceSettings} (hx : Readable x)
    (hread : Readable read) (q : ProxyQuery) : Readable (q.copy x read) := by
  cases q with
  | webProxy => exact { hread with web := hx.web }
  | secureWebProxy => exact { hread with secureWeb := hx.secureWeb }
  | socksProxy => exact { hread with socks := hx.socks }
  | autoDiscovery => exact ⟨hread.web, hread.secureWeb, hread.socks, hread.url, hread.domains⟩
  | autoProxyUrl => exact { hread with url := hx.url }
  | bypassDomains => exact { hread with domains := hx.domains }

end Commands

section Requests

theorem isValue_of_endpoint {endpoint : ProxyEndpoint} (h : validateProxyEndpoint endpoint) :
    IsValue endpoint.host := by
  simp only [validateProxyEndpoint, Bool.and_eq_true, Bool.or_eq_true, decide_eq_true_eq] at h
  rcases h.1 with (hhost | hhost) | hhost
  all_goals
    rw [hhost]
    exact ⟨⟨by decide, by decide, by decide⟩, by decide⟩

/-- The part of a PAC URL that the endpoint fixes. -/
theorem newline_notMem_pacStart {endpoint : ProxyEndpoint} (h : validateProxyEndpoint endpoint) :
    '\n' ∉ (if endpoint.host.contains ':' then '[' :: endpoint.host ++ [']'] else endpoint.host) ++
      ':' :: (toString endpoint.port.toNat).toList := by
  have hhost : '\n' ∉ endpoint.host := (isValue_of_endpoint h).1.line
  have hport : '\n' ∉ Nat.toDigits 10 endpoint.port.toNat := by
    intro hmem
    have hdigit := Nat.isDigit_of_mem_toDigits (b := 10) (by decide) (by decide) hmem
    exact absurd hdigit (by decide)
  split_ifs
  · simp [hhost, hport]
  · simp [hhost, hport]

theorem isValue_of_pacUrl {endpoint : ProxyEndpoint} {url : Text}
    (hendpoint : validateProxyEndpoint endpoint) (h : validatePacUrl url endpoint) :
    IsValue url := by
  simp only [validatePacUrl, Bool.and_eq_true, Bool.not_eq_true', List.all_eq_true] at h
  obtain ⟨⟨hstart, hne⟩, htoken⟩ := h
  obtain ⟨token, rfl⟩ := List.isPrefixOf_iff_prefix.mp hstart
  rw [List.drop_left] at hne htoken
  have hnil : token ≠ [] := by
    rintro rfl
    cases hne
  have hblank : ∀ c ∈ token, isWhitespace c = false := fun c hc => by
    have halnum := htoken c hc
    simp only [Char.isAlphanum, Bool.or_eq_true] at halnum
    cases halnum with
    | inl halpha => exact not_isWhitespace_of_isAlpha halpha
    | inr hdigit => exact Bool.eq_false_iff.mpr (not_isWhitespace_of_isDigit hdigit)
  have hline : '\n' ∉ token := fun hmem => absurd (hblank _ hmem) (by decide)
  have hmiddle := newline_notMem_pacStart hendpoint
  rw [List.mem_append, List.mem_cons, not_or, not_or] at hmiddle
  refine ⟨⟨?_, ?_, ?_⟩, ?_⟩
  · apply trimMatches_eq_self
    · intro c hc
      obtain rfl : 'h' = c := Option.some.inj hc
      decide
    · intro c hc
      rw [List.getLast?_append_of_ne_nil _ hnil] at hc
      exact hblank c (List.mem_of_getLast? hc)
  · simp
  · simp only [List.mem_append, List.mem_cons, not_or]
    exact ⟨⟨⟨⟨by decide, hmiddle.1⟩, hmiddle.2.1, hmiddle.2.2⟩, by decide⟩, hline⟩
  · intro hnull
    have hhead := congrArg List.head? hnull
    exact absurd hhead (by simp)

end Requests

/-- Every setting that there is, and every one on its way into a service or a file, is read back. -/
structure AllReadable {ι : Type*} (s : ProxyState ι) : Prop where
  services : ∀ service ∈ s.services, IsServiceName service
  settings : ∀ service, Readable (s.settings service)
  snapshot : ∀ snapshot, s.snapshot = some snapshot → ReadableSnapshot snapshot
  request : ∀ i, (s.request i).IsReadable

/-- What comes from outside can be read: the names and settings that the user gives the services,
and the server that is not to be reached through the proxy. -/
def BringsReadable {ι : Type*} : ProxyAction ι → Prop
  | .appear service => IsServiceName service
  | .edit _ settings => Readable settings
  | .setBegin _ r => trim r.serverHost ≠ [] → IsDomain (trim r.serverHost)
  | _ => True

/-- The helper reads what is there: the services from their list, every query of a service from
what is printed of it, and the settings of the snapshot once they are restored. -/
structure ReadsBack {ι : Type*} (s : ProxyState ι) : Prop where
  services : ∀ disabled, listNetworkServices (printedServices disabled s.services) = s.services
  query : ∀ service ∈ s.services, ∀ q read,
    readQuery q (runNetworksetup (printed service (s.settings service) q)) read =
      .ok (q.copy (s.settings service) read)
  snapshot : ∀ snapshot, s.snapshot = some snapshot → ∀ p ∈ snapshot, ∀ service ∈ s.services,
    makeServiceSnapshot (printed service p.2) = .ok p.2

variable {ι : Type*} [DecidableEq ι]

/-- The requests on services that can be read. -/
def readableProxies (ι : Type*) [DecidableEq ι] : System (ProxyState ι) (ProxyAction ι) where
  init s := ∃ services settings, (∀ service ∈ services, IsServiceName service) ∧
    (∀ service, Readable (settings service)) ∧ s = .initial services settings
  step := ProxyState.step networksetup

section Runs

variable {s t : ProxyState ι} {i : ι} {q : ProxyRequest} {a : ProxyAction ι}

omit [DecidableEq ι] in
theorem AllReadable.requestAt (hs : AllReadable s) (h : s.request i = q) : q.IsReadable := by
  rw [← h]
  exact hs.request i

theorem AllReadable.setRequest (hs : AllReadable s) (hq : q.IsReadable) :
    AllReadable (s.setRequest i q) := by
  refine { hs with request := fun j => ?_ }
  by_cases hj : j = i
  · subst j
    simpa using hq
  · simpa [hj] using hs.request j

omit [DecidableEq ι] in
theorem AllReadable.command (hs : AllReadable s) {service : Text} {c : ProxyCommand}
    (hc : c.KeepsReadable) : AllReadable { s with
      settings := Function.update s.settings service (networksetup c (s.settings service)) } := by
  refine { hs with settings := fun n => ?_ }
  by_cases hn : n = service
  · subst n
    simpa using hc _ (hs.settings service)
  · simpa [hn] using hs.settings n

/-- A request that has begun has passed its checks. -/
theorem isReadable_of_setBegin {r : SetSystemProxy}
    (hserver : trim r.serverHost ≠ [] → IsDomain (trim r.serverHost))
    (h : s.step networksetup (.setBegin i r) = some (s.setRequest i (.set r .listing))) :
    r.IsReadable := by
  obtain ⟨-, hbegins⟩ := when_eq_some.mp h
  split_ifs at hbegins with hvalid
  · rw [Bool.and_eq_true] at hvalid
    refine ⟨isValue_of_endpoint hvalid.1, hserver, fun url hurl => ?_⟩
    have hpac := hvalid.2
    rw [hurl] at hpac
    exact isValue_of_pacUrl hvalid.1 hpac
  · have hrequest := congrFun (congrArg ProxyState.request hbegins) i
    simp at hrequest

theorem AllReadable.step (hs : AllReadable s) (ha : BringsReadable a)
    (h : s.step networksetup a = some t) : AllReadable t := by
  cases proxyStep_of_step h with
  | appear =>
    refine { hs with services := fun n hn => ?_ }
    rcases List.mem_append.mp hn with hold | hnew
    · exact hs.services n hold
    · rw [List.mem_singleton.mp hnew]
      exact ha
  | vanish => exact { hs with services := fun n hn => hs.services n (List.mem_filter.mp hn).1 }
  | @edit service x =>
    have hx : Readable x := ha
    refine { hs with settings := fun n => ?_ }
    by_cases hn : n = service
    · subst n
      simpa using hx
    · simpa [hn] using hs.settings n
  | setBegin => exact hs.setRequest ⟨isReadable_of_setBegin ha h, trivial⟩
  | @setList i r ok hi | @setLook i r services ok hi =>
    have hr := hs.requestAt hi
    exact hs.setRequest ⟨hr.1, trivial⟩
  | @setLookNone i r services ok hi hfile =>
    have hr := hs.requestAt hi
    exact hs.setRequest ⟨hr.1, fun p hp => absurd hp List.not_mem_nil⟩
  | @setRead i r services snapshot ok hi hfile =>
    have hr := hs.requestAt hi
    exact hs.setRequest ⟨hr.1, hs.snapshot snapshot hfile⟩
  | @setCheck i r services snapshot ok hi =>
    have hr := hs.requestAt hi
    exact hs.setRequest ⟨hr.1, hr.2⟩
  | @setRecord i r services todo service snapshot changed hi =>
    have hr := hs.requestAt hi
    refine hs.setRequest ⟨hr.1, ?_⟩
    split_ifs
    · exact hr.2
    · exact ⟨hr.2, readable_unread⟩
  | @setRecorded i r services snapshot changed hi =>
    have hr := hs.requestAt hi
    refine hs.setRequest ⟨hr.1, ?_⟩
    split_ifs
    · exact hr.2
    · exact isReadable_configuring hr.1 hr.2 services
  | @setQuery i r services todo service snapshot q left read ok hi hok =>
    have hr := hs.requestAt hi
    obtain ⟨hreadable, hsnapshot, hread⟩ := hr
    have hcopy := q.readable_copy (hs.settings service) hread
    refine hs.setRequest ⟨hreadable, ?_⟩
    split_ifs
    · exact hsnapshot.append hcopy
    · exact ⟨hsnapshot, hcopy⟩
  | @setQueryFalse i r services todo service snapshot left read ok hi hok =>
    have hr := hs.requestAt hi
    obtain ⟨hreadable, hsnapshot, hread⟩ := hr
    have hfalse : Readable { read with proxyAutoDiscoveryEnabled := false } :=
      ⟨hread.web, hread.secureWeb, hread.socks, hread.url, hread.domains⟩
    refine hs.setRequest ⟨hreadable, ?_⟩
    split_ifs
    · exact hsnapshot.append hfalse
    · exact ⟨hsnapshot, hfalse⟩
  | @setWrite i r services snapshot hi =>
    have hr := hs.requestAt hi
    have hnext := hs.setRequest (i := i)
      (q := .set r (ProxyState.configuring r services snapshot))
      ⟨hr.1, isReadable_configuring hr.1 hr.2 services⟩
    refine { hnext with snapshot := ?_ }
    rintro saved ⟨⟩
    exact hr.2
  | @setCommand i r service c todo ok hi hok =>
    have hr := hs.requestAt hi
    obtain ⟨hc, htodo⟩ := List.forall_mem_cons.mp hr.2
    exact (hs.setRequest (i := i) (q := .set r (.configuring todo)) ⟨hr.1, htodo⟩).command hc
  | @restoreRead i snapshot ok hi hfile => exact hs.setRequest (hs.snapshot snapshot hfile)
  | @restoreList i snapshot hi =>
    have hr := hs.requestAt hi
    exact hs.setRequest (isReadable_restoring hr s.services)
  | @restoreCommand i service c todo ok hi hok =>
    have hr := hs.requestAt hi
    obtain ⟨hc, htodo⟩ := List.forall_mem_cons.mp hr
    exact (hs.setRequest (i := i) (q := .restore (.restoring todo)) htodo).command hc
  | @restoreRemove i ok hi =>
    have hdone := hs.setRequest (i := i) (q := .done) trivial
    refine { hdone with snapshot := fun snapshot hsnapshot => ?_ }
    split_ifs at hsnapshot
    exact hs.snapshot snapshot hsnapshot
  | _ => exact hs.setRequest trivial

theorem allReadable_of_brings
    (h : (readableProxies ι).ReachUnder (fun _ a => BringsReadable a) s) : AllReadable s := by
  refine h.invariant ?_ fun s a t _ hs ha ht => hs.step ha ht
  rintro s ⟨services, settings, hservices, hsettings, rfl⟩
  exact ⟨hservices, hsettings, fun _ hnone => (Option.some_ne_none _ hnone.symm).elim,
    fun _ => trivial⟩

end Runs

theorem readsBack_of_brings (s : ProxyState ι)
    (hs : (readableProxies ι).ReachUnder (fun _ a => BringsReadable a) s) : ReadsBack s := by
  have hall := allReadable_of_brings hs
  constructor
  · exact fun disabled => listNetworkServices_printed disabled hall.services
  · intro service hservice q read
    exact readQuery_printed (hall.settings service) (hall.services service hservice).field.line
      read q
  · intro snapshot hsnapshot p hp service hservice
    exact makeServiceSnapshot_printed (hall.snapshot snapshot hsnapshot p hp)
      (hall.services service hservice).field.line

section Witness

private def officeSettings : ServiceSettings where
  webProxy := ⟨true, some "proxy.example".toList, some 3128⟩
  secureWebProxy := ⟨false, none, some 0⟩
  socksProxy := ⟨false, none, none⟩
  proxyAutoDiscoveryEnabled := true
  autoProxyUrl := ⟨false, none⟩
  bypassDomains := ["*.local".toList, "10.0.0.0/8".toList]

private def officeRequest : SetSystemProxy where
  endpoint := { host := "127.0.0.1".toList, port := 7890 }
  serverHost := "vpn.example".toList
  pacUrl := none

/-- A request up to its snapshot, and what the user sets next. -/
private def officeActions : List (ProxyAction Unit) :=
  [.setBegin () officeRequest, .setList () true, .setLook () true, .setCheck () true,
    .setRecord (), .setQuery () true, .setQuery () true, .setQuery () true, .setQuery () true,
    .setQuery () true, .setQuery () true, .setRecord (), .setWrite () true, .setCommand () true,
    .edit "Wi-Fi".toList officeSettings]

private theorem readable_office : Readable officeSettings := by
  constructor
  · rintro server ⟨⟩
    exact ⟨⟨by decide, by decide, by decide⟩, by decide⟩
  · rintro server ⟨⟩
  · rintro server ⟨⟩
  · rintro url ⟨⟩
  · intro domain hdomain
    simp only [officeSettings, List.mem_cons, List.not_mem_nil, or_false] at hdomain
    rcases hdomain with rfl | rfl
    all_goals exact ⟨⟨by decide, by decide, by decide⟩, by decide⟩

/-- A snapshot of printed settings, and a command on its way. -/
theorem readsBack_office : ∃ s : ProxyState Unit, ReadsBack s ∧ s.services = ["Wi-Fi".toList] ∧
    s.snapshot = some [("Wi-Fi".toList, officeSettings)] := by
  have hname : IsServiceName "Wi-Fi".toList := ⟨⟨by decide, by decide, by decide⟩, by decide,
    by decide⟩
  have h0 : (readableProxies Unit).ReachUnder (fun _ a => BringsReadable a)
      (.initial ["Wi-Fi".toList] fun _ => officeSettings) :=
    .init ⟨_, _, fun service hservice => List.mem_singleton.mp hservice ▸ hname,
      fun _ => readable_office, rfl⟩
  have hserver : BringsReadable (.setBegin () officeRequest : ProxyAction Unit) := fun _ =>
    ⟨⟨by decide, by decide, by decide⟩, by decide⟩
  have h1 := h0.run officeActions ⟨hserver, trivial, trivial, trivial, trivial, trivial, trivial,
    trivial, trivial, trivial, trivial, trivial, trivial, trivial, readable_office, trivial⟩ rfl
  exact ⟨_, readsBack_of_brings _ h1, rfl, rfl⟩

end Witness

end NulConnect.Macos
