import NulConnect.Macos.Networksetup
import NulConnect.Macos.StartWorker

/-! The DNS settings of the services through what `networksetup` prints: what
`snapshot_tun_network_state` saves of them, and what `restore_tun_network_state` brings back. -/
namespace NulConnect.Macos
open Net

/-- A line that says that there are no entries. -/
def isListNote (line : Text) : Bool :=
  containsText (toAsciiLowercase line) "there aren't any".toList ||
    containsText (toAsciiLowercase line) "aren't any".toList ||
    containsText (toAsciiLowercase line) "not configured".toList

def readNetworksetupList (output : Except Text CommandOutput) : Except AtrError (List Text) :=
  (runNetworksetup output).map (readEntries isListNote)

/-- What the commands of `snapshot_tun_network_state` come to. -/
structure NetworkQueries where
  services : Except Text CommandOutput
  dnsServers : Text → Except Text CommandOutput
  searchDomains : Text → Except Text CommandOutput

/-- The services of `snapshot_tun_network_state`. -/
def NetworkQueries.snapshot (queries : NetworkQueries) :
    Except AtrError (List (Text × TunNetworkSettings)) := do
  let names ← (runNetworksetup queries.services).map listNetworkServices
  names.mapM fun name => do
    let dnsServers ← readNetworksetupList (queries.dnsServers name)
    let searchDomains ← readNetworksetupList (queries.searchDomains name)
    return (name, ⟨dnsServers, searchDomains⟩)

/-- The arguments for a list in `restore_tun_network_state`. -/
def listArgs (entries : List Text) : List Text :=
  if entries = [] then ["Empty".toList] else entries

/-- What `networksetup` is assumed to set for these arguments: the one entry `Empty` stands for
none. -/
def setList (args : List Text) : List Text := if args = ["Empty".toList] then [] else args

/-- What the commands that restore these settings set. -/
def TunNetworkSettings.commanded (x : TunNetworkSettings) : TunNetworkSettings :=
  ⟨setList (listArgs x.dnsServers), setList (listArgs x.searchDomains)⟩

/-- The services that are still listed, in commands. -/
def restoreSaved (env : RestoreEnv) (list : Except Text CommandOutput)
    (saved : List (Text × TunNetworkSettings)) (settings : Text → TunNetworkSettings) :
    Except AtrError Unit × (Text → TunNetworkSettings) :=
  match (runNetworksetup list).map listNetworkServices with
  | .error err => (.error err, settings)
  | .ok existing =>
    restoreServices env ((saved.filter fun p => p.1 ∈ existing).map fun p => (p.1, p.2.commanded))
      settings

section Printed

def listNoteStart : Text := "There aren't any ".toList

def listNoteMiddle : Text := " set on ".toList

def listNote (kind service : Text) : Text :=
  listNoteStart ++ (kind ++ (listNoteMiddle ++ (service ++ ".".toList)))

def succeeded (text : Text) : Except Text CommandOutput :=
  .ok { success := true, stdout := toUtf8 text, stderr := [] }

def printedList (kind service : Text) (entries : List Text) : Except Text CommandOutput :=
  succeeded (printedEntries (listNote kind service) entries)

/-- The queries where `networksetup` prints what there is, in the assumed forms. -/
def printedNetwork (disabled : Text → Bool) (services : List Text)
    (settings : Text → TunNetworkSettings) : NetworkQueries where
  services := succeeded (printedServices disabled services)
  dnsServers name := printedList "DNS Servers".toList name (settings name).dnsServers
  searchDomains name := printedList "Search Domains".toList name (settings name).searchDomains

end Printed

/-- Entries that come back from a snapshot. -/
def IsRestored (entries : List Text) : Prop :=
  (∀ entry ∈ entries, IsField entry ∧ isListNote entry = false) ∧ entries ≠ ["Empty".toList]

structure TunNetworkSettings.Restorable (x : TunNetworkSettings) : Prop where
  dnsServers : IsRestored x.dnsServers
  searchDomains : IsRestored x.searchDomains

/-- The services that were saved and are still there have their settings again where these can be
restored; the others are left alone. -/
structure Returned (services existing : List Text)
    (settings later restored : Text → TunNetworkSettings) : Prop where
  saved : ∀ name ∈ services, name ∈ existing →
    (restored name = settings name ↔ (settings name).Restorable)
  other : ∀ name, name ∉ services ∨ name ∉ existing → restored name = later name

section Entries

variable {kind service : Text} {entries : List Text}

theorem setList_listArgs (entries : List Text) :
    setList (listArgs entries) = if entries = ["Empty".toList] then [] else entries := by
  unfold setList listArgs
  by_cases hnil : entries = []
  · rw [if_pos hnil, if_pos rfl, hnil, ite_self]
  · rw [if_neg hnil]

theorem isListNote_listNote (kind service : Text) : isListNote (listNote kind service) := by
  have hfront : "there aren't any".toList <+: listNoteStart.map Char.toLower := by decide
  have hprefix : "there aren't any".toList <+: toAsciiLowercase (listNote kind service) := by
    rw [toAsciiLowercase, listNote, List.map_append]
    exact hfront.trans (List.prefix_append _ _)
  rw [isListNote, containsText_of_prefix hprefix, Bool.true_or, Bool.true_or]

theorem trim_listNote (kind service : Text) :
    trim (listNote kind service) = listNote kind service := by
  apply trim_note rfl
  simp only [listNote, ← List.append_assoc]
  exact List.getLast?_concat

theorem readEntries_listNote (hkind : '\n' ∉ kind) (hservice : '\n' ∉ service)
    (h : ∀ entry ∈ entries, IsField entry ∧ isListNote entry = false) :
    readEntries isListNote (printedEntries (listNote kind service) entries) = entries := by
  have hline : '\n' ∉ listNote kind service := by
    have hfront : '\n' ∉ listNoteStart := by decide
    have hmiddle : '\n' ∉ listNoteMiddle := by decide
    simp only [listNote, List.mem_append, not_or]
    exact ⟨hfront, hkind, hmiddle, hservice, by decide⟩
  apply readEntries_printed hline
  · rw [trim_listNote]
    exact isListNote_listNote kind service
  · exact h

theorem runNetworksetup_succeeded (text : Text) : runNetworksetup (succeeded text) = .ok text := by
  simp [runNetworksetup, succeeded, fromUtf8Lossy_toUtf8]

theorem readNetworksetupList_printed (kind service : Text) (entries : List Text) :
    readNetworksetupList (printedList kind service entries) =
      .ok (readEntries isListNote (printedEntries (listNote kind service) entries)) := by
  rw [readNetworksetupList, printedList, runNetworksetup_succeeded, Except.map]

/-- A list comes back where it is read as it is and is not taken for none. -/
theorem restoredList_iff (hkind : '\n' ∉ kind) (hservice : '\n' ∉ service) :
    setList (listArgs (readEntries isListNote (printedEntries (listNote kind service) entries))) =
      entries ↔ IsRestored entries := by
  rw [setList_listArgs]
  constructor
  · intro h
    split_ifs at h with hempty
    · rw [← h]
      exact ⟨fun _ hentry => absurd hentry List.not_mem_nil, (List.cons_ne_nil _ _).symm⟩
    · rw [h] at hempty
      refine ⟨fun entry hentry => ?_, hempty⟩
      rw [← h] at hentry
      exact isEntry_of_mem_readEntries hentry
  · intro h
    rw [readEntries_listNote hkind hservice h.1, if_neg h.2]

end Entries

section Snapshot

variable {services : List Text} {settings : Text → TunNetworkSettings}

/-- What is read of the settings of a service once they are printed. -/
def readBack (settings : Text → TunNetworkSettings) (name : Text) : TunNetworkSettings where
  dnsServers := readEntries isListNote
    (printedEntries (listNote "DNS Servers".toList name) (settings name).dnsServers)
  searchDomains := readEntries isListNote
    (printedEntries (listNote "Search Domains".toList name) (settings name).searchDomains)

theorem readBack_eq {name : Text} (hname : '\n' ∉ name) (h : (settings name).Restorable) :
    readBack settings name = settings name := by
  unfold readBack
  rw [readEntries_listNote (by decide) hname h.dnsServers.1,
    readEntries_listNote (by decide) hname h.searchDomains.1]

theorem listed_printed (disabled : Text → Bool) (h : ∀ name ∈ services, IsServiceName name) :
    (runNetworksetup (succeeded (printedServices disabled services))).map listNetworkServices =
      .ok services := by
  rw [runNetworksetup_succeeded, Except.map, listNetworkServices_printed disabled h]

theorem snapshot_printed (disabled : Text → Bool) (h : ∀ name ∈ services, IsServiceName name) :
    (printedNetwork disabled services settings).snapshot =
      .ok (services.map fun name => (name, readBack settings name)) := by
  unfold NetworkQueries.snapshot printedNetwork
  dsimp only
  rw [listed_printed disabled h]
  simp only [readNetworksetupList_printed]
  exact List.mapM_pure

/-- Where the settings can be restored, what is read is what there is. -/
theorem snapshot_collect (disabled : Text → Bool) {env : SnapshotEnv}
    (hservices : env.services = .ok services) (hquery : ∀ name, env.query name = .ok ())
    (hdir : env.createDir = .ok ()) (h : ∀ name ∈ services, IsServiceName name)
    (hsettings : ∀ name ∈ services, (settings name).Restorable) :
    (printedNetwork disabled services settings).snapshot = env.collect settings := by
  have hcollect : services.mapM (fun name => (env.query name).map fun _ => (name, settings name)) =
      .ok (services.map fun name => (name, settings name)) := by
    simp only [hquery, Except.map]
    exact List.mapM_pure
  have hsame : services.map (fun name => (name, readBack settings name)) =
      services.map fun name => (name, settings name) := by
    apply List.map_congr_left
    intro name hname
    rw [readBack_eq (h name hname).field.line (hsettings name hname)]
  rw [snapshot_printed disabled h, hsame]
  simp only [SnapshotEnv.collect, hservices, bind, Except.bind, hcollect, hdir]
  rfl

theorem commanded_readBack_iff {name : Text} (hname : '\n' ∉ name) :
    (readBack settings name).commanded = settings name ↔ (settings name).Restorable := by
  have hdns : '\n' ∉ "DNS Servers".toList := by decide
  have hsearch : '\n' ∉ "Search Domains".toList := by decide
  constructor
  · intro h
    exact ⟨(restoredList_iff hdns hname).mp (congrArg TunNetworkSettings.dnsServers h),
      (restoredList_iff hsearch hname).mp (congrArg TunNetworkSettings.searchDomains h)⟩
  · intro h
    have hservers := (restoredList_iff hdns hname).mpr h.dnsServers
    have hdomains := (restoredList_iff hsearch hname).mpr h.searchDomains
    change TunNetworkSettings.mk (setList (listArgs (readEntries _ _)))
      (setList (listArgs (readEntries _ _))) = settings name
    rw [hservers, hdomains]

end Snapshot

section Restore

variable {env : RestoreEnv}

/-- Commands that succeed leave each service with what was saved of it. -/
theorem restoreServices_map (hdns : ∀ name, env.setDns name = .ok ())
    (hsearch : ∀ name, env.setSearch name = .ok ()) (saved : Text → TunNetworkSettings)
    (names : List Text) (settings : Text → TunNetworkSettings) :
    restoreServices env (names.map fun name => (name, saved name)) settings =
      (.ok (), fun name => if name ∈ names then saved name else settings name) := by
  induction names generalizing settings with
  | nil => simp [restoreServices]
  | cons name names ih =>
    rw [List.map_cons, restoreServices, hdns]
    dsimp only
    rw [hsearch]
    dsimp only
    rw [ih]
    congr 1
    funext n
    by_cases hn : n = name
    · subst n
      simp
    · simp [hn]

theorem commanded_eq {x : TunNetworkSettings} (h : x.Restorable) : x.commanded = x := by
  unfold TunNetworkSettings.commanded
  rw [setList_listArgs, setList_listArgs, if_neg h.dnsServers.2, if_neg h.searchDomains.2]

/-- Where the settings can be restored, the commands set what was saved. -/
theorem restoreSaved_eq {existing : List Text} (disabled : Text → Bool)
    (h : ∀ name ∈ existing, IsServiceName name) {saved : List (Text × TunNetworkSettings)}
    (hsaved : ∀ p ∈ saved, p.2.Restorable) (settings : Text → TunNetworkSettings) :
    restoreSaved env (succeeded (printedServices disabled existing)) saved settings =
      restoreServices env (saved.filter fun p => p.1 ∈ existing) settings := by
  have hsame : (saved.filter fun p => p.1 ∈ existing).map (fun p => (p.1, p.2.commanded)) =
      saved.filter fun p => p.1 ∈ existing := by
    conv_rhs => rw [← List.map_id (saved.filter fun p => p.1 ∈ existing)]
    apply List.map_congr_left
    intro p hp
    rw [commanded_eq (hsaved p (List.mem_filter.mp hp).1), id]
  unfold restoreSaved
  rw [listed_printed disabled h]
  dsimp only
  rw [hsame]

end Restore

/-- The settings of the services over a session. -/
theorem returned_of_printed {services existing : List Text} (wasDisabled isDisabled : Text → Bool)
    (hservices : ∀ name ∈ services, IsServiceName name)
    (hexisting : ∀ name ∈ existing, IsServiceName name) {env : RestoreEnv}
    (hdns : ∀ name, env.setDns name = .ok ()) (hsearch : ∀ name, env.setSearch name = .ok ())
    (settings later : Text → TunNetworkSettings) :
    ∃ saved restored, (printedNetwork wasDisabled services settings).snapshot = .ok saved ∧
      restoreSaved env (succeeded (printedServices isDisabled existing)) saved later =
        (.ok (), restored) ∧ Returned services existing settings later restored := by
  refine ⟨_, fun name => if name ∈ services.filter (· ∈ existing) then
    (readBack settings name).commanded else later name, snapshot_printed wasDisabled hservices,
    ?_, ?_⟩
  · unfold restoreSaved
    rw [listed_printed isDisabled hexisting]
    dsimp only
    rw [List.filter_map, List.map_map]
    exact restoreServices_map hdns hsearch (fun name => (readBack settings name).commanded)
      (services.filter (· ∈ existing)) later
  · constructor
    · intro name hname hstill
      have hmem : name ∈ services.filter (· ∈ existing) :=
        List.mem_filter.mpr ⟨hname, decide_eq_true hstill⟩
      rw [if_pos hmem]
      exact commanded_readBack_iff (hservices name hname).field.line
    · intro name hother
      have hmem : name ∉ services.filter (· ∈ existing) := by
        rw [List.mem_filter, decide_eq_true_eq, not_and_or]
        exact hother
      exact if_neg hmem

section Witness

/-- Commands that all succeed. -/
private def allSet : RestoreEnv where
  read := .ok ()
  parseError := .parseFailed []
  services := .ok []
  setDns _ := .ok ()
  setSearch _ := .ok ()
  remove := .ok ()
  resetServices := .ok []
  resetDns _ := true
  resetSearch _ := true

private def campusSettings (name : Text) : TunNetworkSettings :=
  if name = "Wi-Fi".toList then ⟨["10.0.0.53".toList], ["campus.example".toList]⟩
  else ⟨[], ["Empty".toList]⟩

/-- The search domain `Empty` is not restored. -/
theorem returned_campus : ∃ saved restored,
    (printedNetwork (fun _ => false) ["Wi-Fi".toList, "Ethernet".toList] campusSettings).snapshot =
        .ok saved ∧
      restoreSaved allSet (succeeded (printedServices (fun _ => false)
        ["Ethernet".toList, "Wi-Fi".toList])) saved (fun _ => ⟨[], []⟩) = (.ok (), restored) ∧
      restored "Wi-Fi".toList = campusSettings "Wi-Fi".toList ∧
      restored "Ethernet".toList ≠ campusSettings "Ethernet".toList := by
  have hname : ∀ name ∈ ["Wi-Fi".toList, "Ethernet".toList], IsServiceName name := by
    simp only [List.forall_mem_cons]
    refine ⟨⟨⟨by decide, by decide, by decide⟩, by decide, by decide⟩,
      ⟨⟨by decide, by decide, by decide⟩, by decide, by decide⟩, by simp⟩
  have hlisted : ∀ name ∈ ["Ethernet".toList, "Wi-Fi".toList], IsServiceName name :=
    fun name h => hname name (List.mem_reverse.mp h)
  have hcampus : (campusSettings "Wi-Fi".toList).Restorable := by
    constructor
    · refine ⟨fun entry hentry => ?_, by decide⟩
      obtain rfl := List.mem_singleton.mp hentry
      exact ⟨⟨by decide, by decide, by decide⟩, by decide⟩
    · refine ⟨fun entry hentry => ?_, by decide⟩
      obtain rfl := List.mem_singleton.mp hentry
      exact ⟨⟨by decide, by decide, by decide⟩, by decide⟩
  obtain ⟨saved, restored, hsaved, hrestored, hreturned⟩ := returned_of_printed (fun _ => false)
    (fun _ => false) hname hlisted (fun _ => (rfl : allSet.setDns _ = .ok ())) (fun _ => rfl)
    campusSettings fun _ => ⟨[], []⟩
  refine ⟨saved, restored, hsaved, hrestored, ?_, ?_⟩
  · exact (hreturned.saved _ (by decide) (by decide)).mpr hcampus
  · intro hsame
    exact ((hreturned.saved _ (by decide) (by decide)).mp hsame).searchDomains.2 rfl

end Witness

end NulConnect.Macos
