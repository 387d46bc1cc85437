import NulConnect.Macos.Proxy

/-! What the snapshot file protects: the settings that the services had before the helper
changed them. -/
namespace NulConnect.Macos
open Transition Net

variable {ι : Type*} [DecidableEq ι]

/-- What the services had before the helper first changed them since the last complete restore,
and which of them carry settings of `set_system_proxy` that are not restored. -/
structure ProxyHistory where
  changed : Text → Option ServiceSettings
  carried : List Text

namespace ProxyHistory

def none : ProxyHistory where
  changed _ := .none
  carried := []

/-- A command changes a service. -/
def change (g : ProxyHistory) (s : ProxyState ι) (service : Text) : ProxyHistory :=
  { g with
    changed := Function.update g.changed service
      (some ((g.changed service).getD (s.settings service))) }

def record (g : ProxyHistory) (s : ProxyState ι) : ProxyAction ι → ProxyHistory
  | .setCommand i ok =>
    match s.request i with
    | .set _ (.configuring ((service, _) :: _)) =>
      if ok && s.services.contains service then
        { g.change s service with
          carried := if service ∈ g.carried then g.carried else service :: g.carried }
      else g
    | _ => g
  | .restoreCommand i ok =>
    match s.request i with
    | .restore (.restoring ((service, _) :: todo)) =>
      if ok && s.services.contains service then
        { g.change s service with
          carried := if todo.any (·.1 = service) then g.carried
            else g.carried.filter (· ≠ service) }
      else g
    | _ => g
  | .restoreRemove _ ok =>
    if ok && s.snapshot.isSome then { g with changed := fun _ => .none } else g
  | _ => g

end ProxyHistory

/-- The proxy requests together with their history. -/
def proxyHistories (ι : Type*) [DecidableEq ι]
    (effect : ProxyCommand → ServiceSettings → ServiceSettings) :
    System (ProxyState ι × ProxyHistory) (ProxyAction ι) :=
  (proxySystem ι effect).observe .none ProxyHistory.record

/-- With no request in progress, the snapshot file has what each service carrying settings of
the helper had before. -/
def Protected (p : ProxyState ι × ProxyHistory) : Prop :=
  (∀ i, ¬ (p.1.request i).running) → ∀ service ∈ p.1.services, service ∈ p.2.carried →
    ∃ snapshot settings, p.1.snapshot = some snapshot ∧ p.2.changed service = some settings ∧
      snapshot.lookup service = some settings

/-- The settings of the service are in the snapshot of a call, or are being read into it. -/
def SetPhase.records (service : Text) : SetPhase → Bool
  | .recording _ _ snapshot _ | .writing _ snapshot => snapshot.any (·.1 = service)
  | .querying _ name _ snapshot _ _ => name = service || snapshot.any (·.1 = service)
  | _ => false

def ProxyRequest.records (service : Text) : ProxyRequest → Bool
  | .set _ p => p.records service
  | _ => false

/-- The settings that the snapshot file holds for a service. -/
def saved (file : Option ProxySnapshot) (service : Text) : Option ServiceSettings :=
  (file.getD []).lookup service

/-- No two requests overlap, the test for the file does not miss it, no failed command is read
as a setting, a restore finds every service that it has to restore, and nobody else changes a
service between its being recorded and its first change. -/
def Careful (p : ProxyState ι × ProxyHistory) : ProxyAction ι → Prop
  | .setBegin _ _ | .restoreBegin _ => ∀ j, ¬ (p.1.request j).running
  | .setLook _ ok => ok ∨ p.1.snapshot = none
  | .setQuery i ok =>
    match p.1.request i with
    | .set _ (.querying _ service _ _ (.autoDiscovery :: _) _) =>
      (ok && p.1.services.contains service) ∨
        (p.1.settings service).proxyAutoDiscoveryEnabled = false
    | _ => True
  | .restoreList _ ok => ok → ∀ service ∈ p.2.carried, service ∈ p.1.services
  | .edit service _ => (p.2.changed service).isSome ∨
      saved p.1.snapshot service = none ∧ ∀ j, ¬ (p.1.request j).records service
  | _ => True

section Known

variable (file : Option ProxySnapshot) (settings : Text → ServiceSettings) (carried : List Text)

/-- The snapshot of a call is that of the file and the settings of services that are not in
it. -/
structure Extends (snapshot new : ProxySnapshot) : Prop where
  eq : snapshot = file.getD [] ++ new
  fresh : ∀ q ∈ new, saved file q.1 = none ∧ settings q.1 = q.2

/-- What a call of `set_system_proxy` relies on. -/
def SetPhase.Known : SetPhase → Prop
  | .listing | .looking _ | .reading _ => True
  | .checking _ snapshot => snapshot = file.getD []
  | .recording _ _ snapshot changed => ∃ new, Extends file settings snapshot new ∧
      (¬ changed → new = [] ∧ file.isSome)
  | .querying _ service _ snapshot left read => (∃ new, Extends file settings snapshot new) ∧
      snapshot.lookup service = none ∧ ∃ past, ProxyQuery.all = past ++ left ∧
        read = past.foldl (ProxyQuery.copy (settings service)) ProxyQuery.unread
  | .writing _ snapshot => ∃ new, Extends file settings snapshot new
  | .configuring todo => ∀ q ∈ todo, (saved file q.1).isSome

/-- What a call of `restore_system_proxy` relies on. -/
def RestorePhase.Known : RestorePhase → Prop
  | .looking | .reading => True
  | .listing snapshot => file = some snapshot
  | .restoring todo => (∀ q ∈ todo, (saved file q.1).isSome) ∧
      ∀ service ∈ carried, ∃ q ∈ todo, q.1 = service

def ProxyRequest.Known : ProxyRequest → Prop
  | .idle | .done => True
  | .set _ p => p.Known file settings
  | .restore p => p.Known file carried

end Known

theorem ProxyRequest.known_of_not_running {file : Option ProxySnapshot}
    {settings : Text → ServiceSettings} {carried : List Text} {q : ProxyRequest}
    (hq : ¬ q.running) : q.Known file settings carried := by
  cases q with
  | idle | done => trivial
  | set | restore => exact absurd rfl hq

theorem saved_of_mem {snapshot : ProxySnapshot} {q : Text × ServiceSettings}
    (hq : q ∈ snapshot) : (saved (some snapshot) q.1).isSome := by
  simp only [saved, Option.getD_some, List.lookup_isSome_iff]
  exact ⟨q, hq, by simp⟩

theorem lookup_eq_none_of_not_any {snapshot : ProxySnapshot} {service : Text}
    (hn : ¬ snapshot.any (·.1 = service)) : snapshot.lookup service = none := by
  rw [List.lookup_eq_none_iff]
  intro q hq
  have hne : q.1 ≠ service := by
    intro he
    exact hn (List.any_eq_true.mpr ⟨q, hq, by simpa using he⟩)
  simpa using Ne.symm hne

/-- A snapshot that extends the one of the file has what that has. -/
theorem lookup_of_extends {file : Option ProxySnapshot} {settings : Text → ServiceSettings}
    {snapshot new : ProxySnapshot} {service : Text} (hx : Extends file settings snapshot new)
    (hn : snapshot.lookup service = none) : saved file service = none := by
  rw [hx.eq, List.lookup_append] at hn
  exact (Option.or_eq_none_iff.mp hn).1

/-- The commands for a snapshot that is in the file are for services that it saves. -/
theorem saved_of_commands {snapshot : ProxySnapshot} {services : List Text}
    {commands : Text × ServiceSettings → List ProxyCommand} {q : Text × ProxyCommand}
    (hq : q ∈ (snapshot.filter fun q => services.contains q.1).flatMap fun q =>
      (commands q).map fun c => (q.1, c)) : (saved (some snapshot) q.1).isSome := by
  obtain ⟨p, hp, hq⟩ := List.mem_flatMap.mp hq
  obtain ⟨c, -, rfl⟩ := List.mem_map.mp hq
  exact saved_of_mem (List.mem_of_mem_filter hp)

namespace SetPhase

variable {file : Option ProxySnapshot} {settings : Text → ServiceSettings} {service : Text}
  {services todo : List Text} {snapshot : ProxySnapshot} {changed : Bool}

theorem known_checked (services : List Text) {ok : Bool}
    (hk : (SetPhase.checking services snapshot).Known file settings) :
    (SetPhase.recording services services snapshot (!(ok && file.isSome))).Known file settings := by
  have hsnap : snapshot = file.getD [] := hk
  refine ⟨[], ⟨by simp [hsnap], by simp⟩, fun hch => ⟨rfl, ?_⟩⟩
  have hand : ok ∧ ¬ file = none := by simpa using hch
  exact Option.isSome_iff_ne_none.mpr hand.2

theorem known_record (hk : (SetPhase.recording services (service :: todo) snapshot changed).Known
      file settings) :
    (if snapshot.any (·.1 = service) then SetPhase.recording services todo snapshot changed
      else .querying services service todo snapshot ProxyQuery.all ProxyQuery.unread).Known
      file settings := by
  obtain ⟨new, hx, hch⟩ := hk
  split_ifs with hany
  · exact ⟨new, hx, hch⟩
  · exact ⟨⟨new, hx⟩, lookup_eq_none_of_not_any hany, [], rfl, rfl⟩

theorem known_recorded {r : SetSystemProxy}
    (hk : (SetPhase.recording services [] snapshot changed).Known file settings) :
    (if changed then SetPhase.writing services snapshot
      else ProxyState.configuring r services snapshot).Known file settings := by
  obtain ⟨new, hx, hch⟩ := hk
  split_ifs with hc
  · exact ⟨new, hx⟩
  · obtain ⟨rfl, hfile⟩ := hch hc
    obtain ⟨file, rfl⟩ := Option.isSome_iff_exists.mp hfile
    have hsnap : snapshot = file := by simpa using hx.eq
    subst hsnap
    exact fun q hq => saved_of_commands hq

/-- A query fills in another field, and after the last one the settings are recorded. -/
theorem known_query {q : ProxyQuery} {left : List ProxyQuery} {read : ServiceSettings}
    (hk : (SetPhase.querying services service todo snapshot (q :: left) read).Known
      file settings) :
    (if left = [] then SetPhase.recording services todo
        (snapshot ++ [(service, q.copy (settings service) read)]) true
      else .querying services service todo snapshot left (q.copy (settings service) read)).Known
      file settings := by
  obtain ⟨⟨new, hx⟩, hl, past, hall, hread⟩ := hk
  have hcopy : q.copy (settings service) read =
      (past ++ [q]).foldl (ProxyQuery.copy (settings service)) ProxyQuery.unread := by
    rw [List.foldl_append, hread]
    rfl
  have hsplit : ProxyQuery.all = (past ++ [q]) ++ left := by simp [hall]
  split_ifs with hleft
  · subst left
    have hwhole : q.copy (settings service) read = settings service := by
      rw [hcopy, ← List.append_nil (past ++ [q]), ← hsplit]
      exact ProxyQuery.foldl_all _
    refine ⟨new ++ [(service, settings service)], ⟨?_, fun p hp => ?_⟩, by simp⟩
    · rw [hwhole, hx.eq, List.append_assoc]
    · obtain hp | hp := List.mem_append.mp hp
      · exact hx.fresh p hp
      · obtain rfl := List.mem_singleton.mp hp
        exact ⟨lookup_of_extends hx hl, rfl⟩
  · exact ⟨⟨new, hx⟩, hl, past ++ [q], hsplit, hcopy⟩

end SetPhase

structure Recoverable (s : ProxyState ι) (g : ProxyHistory) : Prop where
  carried : ∀ service ∈ g.carried, (g.changed service).isSome
  original : ∀ service x, g.changed service = some x → saved s.snapshot service = some x
  untouched : ∀ service x, saved s.snapshot service = some x → g.changed service = none →
    s.settings service = x
  alone : ∀ i j, (s.request i).running → (s.request j).running → i = j
  known : ∀ i, (s.request i).Known s.snapshot s.settings g.carried

namespace Recoverable

variable {s t : ProxyState ι} {g g' : ProxyHistory} {i : ι} {service : Text} {q : ProxyRequest}

omit [DecidableEq ι] in
theorem initial (services : List Text) (settings : Text → ServiceSettings) :
    Recoverable (.initial services settings : ProxyState ι) .none where
  carried _ h := absurd h List.not_mem_nil
  original _ _ h := by cases h
  untouched _ _ h := by cases h
  alone _ _ h := Bool.noConfusion h
  known _ := trivial

omit [DecidableEq ι] in
/-- The other requests are not in progress. -/
theorem not_running (hs : Recoverable s g) (hi : (s.request i).running) :
    ∀ j, j ≠ i → ¬ (s.request j).running := fun j hj hr => hj (hs.alone j i hr hi)

/-- A request moves on while no other is in progress. -/
theorem of_update (hn : ∀ j, j ≠ i → ¬ (s.request j).running)
    (ht : t.request = Function.update s.request i q)
    (hc : ∀ service ∈ g'.carried, (g'.changed service).isSome)
    (ho : ∀ service x, g'.changed service = some x → saved t.snapshot service = some x)
    (hu : ∀ service x, saved t.snapshot service = some x → g'.changed service = none →
      t.settings service = x)
    (hq : q.Known t.snapshot t.settings g'.carried) : Recoverable t g' where
  carried := hc
  original := ho
  untouched := hu
  alone j k hj hk := by
    have hi (l : ι) (hl : (t.request l).running) : l = i := by
      by_contra hne
      rw [ht, Function.update_of_ne hne] at hl
      exact hn l hne hl
    rw [hi j hj, hi k hk]
  known j := by
    rw [ht]
    by_cases hji : j = i
    · subst j
      simpa using hq
    · rw [Function.update_of_ne hji]
      exact ProxyRequest.known_of_not_running (hn j hji)

/-- A request moves on, and nothing else changes. -/
theorem move (hs : Recoverable s g) (hn : ∀ j, j ≠ i → ¬ (s.request j).running)
    (hq : q.Known s.snapshot s.settings g.carried) : Recoverable (s.setRequest i q) g :=
  of_update hn rfl hs.carried hs.original hs.untouched hq

theorem ends (hs : Recoverable s g) (hi : (s.request i).running) :
    Recoverable (s.setRequest i .done) g := hs.move (hs.not_running hi) trivial

/-- A command changes a service that is in the snapshot file. -/
theorem change (hs : Recoverable s g) (hn : ∀ j, j ≠ i → ¬ (s.request j).running)
    (hsaved : (saved s.snapshot service).isSome) (x : ServiceSettings) {carried : List Text}
    (hc : ∀ name ∈ carried, name = service ∨ name ∈ g.carried)
    (hq : q.Known s.snapshot (Function.update s.settings service x) carried) :
    Recoverable { s.setRequest i q with settings := Function.update s.settings service x }
      { g.change s service with carried := carried } := by
  obtain ⟨y, hy⟩ := Option.isSome_iff_exists.mp hsaved
  have hchanged : (g.changed service).getD (s.settings service) = y := by
    cases hg : g.changed service with
    | none => exact hs.untouched service y hy hg
    | some z => exact Option.some.inj ((hs.original service z hg).symm.trans hy)
  refine of_update hn rfl (fun name hname => ?_) (fun name z hz => ?_) (fun name z hz hg => ?_) hq
  · by_cases hne : name = service
    · simp [ProxyHistory.change, hne]
    · simpa [ProxyHistory.change, hne] using hs.carried name ((hc name hname).resolve_left hne)
  · by_cases hne : name = service
    · subst name
      have hz' : y = z := by simpa [ProxyHistory.change, hchanged] using hz
      rw [← hz']
      exact hy
    · exact hs.original name z (by simpa [ProxyHistory.change, hne] using hz)
  · by_cases hne : name = service
    · simp [ProxyHistory.change, hne] at hg
    · simp only [Function.update_of_ne hne]
      exact hs.untouched name z hz (by simpa [ProxyHistory.change, hne] using hg)

omit [DecidableEq ι] in
theorem known_at (hs : Recoverable s g) (hq : s.request i = q) :
    q.Known s.snapshot s.settings g.carried := hq ▸ hs.known i

omit [DecidableEq ι] in
/-- An edit that is not recorded anywhere leaves what a call has read as it is. -/
theorem extends_edit {file : Option ProxySnapshot} {settings : Text → ServiceSettings}
    {snapshot new : ProxySnapshot} (hx : Extends file settings snapshot new)
    (hn : saved file service = none → ¬ snapshot.any (·.1 = service)) (x : ServiceSettings) :
    Extends file (Function.update settings service x) snapshot new where
  eq := hx.eq
  fresh q hq := by
    obtain ⟨hs, he⟩ := hx.fresh q hq
    have hne : q.1 ≠ service := by
      rintro rfl
      refine hn hs (List.any_eq_true.mpr ⟨q, ?_, by simp⟩)
      rw [hx.eq]
      exact List.mem_append_right _ hq
    exact ⟨hs, by rw [Function.update_of_ne hne, he]⟩

omit [DecidableEq ι] in
theorem edit (hs : Recoverable s g) {x : ServiceSettings}
    (hc : Careful (s, g) (.edit service x)) :
    Recoverable { s with settings := Function.update s.settings service x } g where
  carried := hs.carried
  original := hs.original
  untouched name y hy hg := by
    have hne : name ≠ service := by
      rintro rfl
      obtain hc | ⟨hc, -⟩ := hc
      · simp [hg] at hc
      · simp [hc] at hy
    dsimp only
    rw [Function.update_of_ne hne]
    exact hs.untouched name y hy hg
  alone := hs.alone
  known i := by
    have hrec (hn : saved s.snapshot service = none) : ¬ (s.request i).records service := by
      obtain hc | ⟨-, hc⟩ := hc
      · obtain ⟨y, hy⟩ := Option.isSome_iff_exists.mp hc
        simp [hs.original service y hy] at hn
      · exact hc i
    have hk := hs.known i
    cases hreq : s.request i with
    | idle | done => trivial
    | restore p =>
      rw [hreq] at hk
      exact hk
    | set r p =>
      rw [hreq] at hk hrec
      cases p with
      | listing | looking | reading => trivial
      | checking | configuring => exact hk
      | recording services todo snapshot changed =>
        obtain ⟨new, hx, hch⟩ := hk
        exact ⟨new, extends_edit hx hrec x, hch⟩
      | writing services snapshot =>
        obtain ⟨new, hx⟩ := hk
        exact ⟨new, extends_edit hx hrec x⟩
      | querying services name todo snapshot left read =>
        obtain ⟨⟨new, hx⟩, hl, past, hall, hread⟩ := hk
        have hany (hn : saved s.snapshot service = none) :
            name ≠ service ∧ ¬ snapshot.any (·.1 = service) := by
          simpa [ProxyRequest.records, SetPhase.records] using hrec hn
        have hne : name ≠ service := by
          rintro rfl
          exact (hany (lookup_of_extends hx hl)).1 rfl
        refine ⟨⟨new, extends_edit hx (fun hn => (hany hn).2) x⟩, hl, past, hall, ?_⟩
        dsimp only
        rw [Function.update_of_ne hne]
        exact hread

theorem setRecord (hs : Recoverable s g) {r : SetSystemProxy} {services todo : List Text}
    {snapshot : ProxySnapshot} {changed : Bool}
    (hi : s.request i = .set r (.recording services (service :: todo) snapshot changed)) :
    Recoverable (s.setRequest i (.set r
      (if snapshot.any (·.1 = service) then .recording services todo snapshot changed
        else .querying services service todo snapshot ProxyQuery.all ProxyQuery.unread))) g := by
  have hn := hs.not_running (running_of_set hi)
  exact hs.move hn (SetPhase.known_record (hs.known_at hi))

theorem setRecorded (hs : Recoverable s g) {r : SetSystemProxy} {services : List Text}
    {snapshot : ProxySnapshot} {changed : Bool}
    (hi : s.request i = .set r (.recording services [] snapshot changed)) :
    Recoverable (s.setRequest i (.set r (if changed then .writing services snapshot
      else ProxyState.configuring r services snapshot))) g := by
  have hn := hs.not_running (running_of_set hi)
  exact hs.move hn (SetPhase.known_recorded (hs.known_at hi))

/-- A query fills in another field, and after the last one the settings are recorded. -/
theorem setQuery (hs : Recoverable s g) {r : SetSystemProxy} {services todo : List Text}
    {snapshot : ProxySnapshot} {q : ProxyQuery} {left : List ProxyQuery} {read : ServiceSettings}
    (hi : s.request i = .set r (.querying services service todo snapshot (q :: left) read)) :
    Recoverable (s.setRequest i (.set r
      (if left = [] then
        .recording services todo (snapshot ++ [(service, q.copy (s.settings service) read)]) true
      else .querying services service todo snapshot left
        (q.copy (s.settings service) read)))) g := by
  have hn := hs.not_running (running_of_set hi)
  exact hs.move hn (SetPhase.known_query (hs.known_at hi))

/-- The snapshot file is replaced by one that has more. -/
theorem setWrite (hs : Recoverable s g) {r : SetSystemProxy} {services : List Text}
    {snapshot : ProxySnapshot} (hi : s.request i = .set r (.writing services snapshot)) :
    Recoverable { s.setRequest i (.set r (ProxyState.configuring r services snapshot)) with
      snapshot := some snapshot } g := by
  have hn := hs.not_running (running_of_set hi)
  obtain ⟨new, hx⟩ := hs.known_at hi
  have hsaved (name : Text) : saved (some snapshot) name =
      (saved s.snapshot name).or (new.lookup name) := by
    simp [saved, hx.eq, List.lookup_append]
  refine of_update hn rfl hs.carried (fun name y hy => ?_) (fun name y hy hg => ?_) fun q hq => ?_
  · rw [hsaved, hs.original name y hy]
    rfl
  · rw [hsaved] at hy
    cases hold : saved s.snapshot name with
    | some z =>
      obtain rfl : z = y := by simpa [hold] using hy
      exact hs.untouched name z hold hg
    | none =>
      rw [hold, Option.none_or, List.lookup_eq_some_iff] at hy
      obtain ⟨before, after, rfl, -⟩ := hy
      exact (hx.fresh (name, y) (by simp)).2
  · exact saved_of_commands hq

theorem setCommand (hs : Recoverable s g) {r : SetSystemProxy} {c : ProxyCommand}
    {todo : List (Text × ProxyCommand)}
    (hi : s.request i = .set r (.configuring ((service, c) :: todo))) (x : ServiceSettings) :
    Recoverable { s.setRequest i (.set r (.configuring todo)) with
        settings := Function.update s.settings service x }
      { g.change s service with
        carried := if service ∈ g.carried then g.carried else service :: g.carried } := by
  have hn := hs.not_running (running_of_set hi)
  have hk := hs.known_at hi
  refine hs.change hn (hk _ (.head _)) x (fun name hname => ?_) fun q hq => hk q (.tail _ hq)
  split_ifs at hname
  · exact .inr hname
  · exact List.mem_cons.mp hname

theorem restoreCommand (hs : Recoverable s g) {c : ProxyCommand} {todo : List (Text × ProxyCommand)}
    (hi : s.request i = .restore (.restoring ((service, c) :: todo))) (x : ServiceSettings) :
    Recoverable { s.setRequest i (.restore (.restoring todo)) with
        settings := Function.update s.settings service x }
      { g.change s service with
        carried := if todo.any (·.1 = service) then g.carried
          else g.carried.filter (· ≠ service) } := by
  have hn := hs.not_running (running_of_restore hi)
  obtain ⟨hsaved, hcarried⟩ := hs.known_at hi
  refine hs.change hn (hsaved _ (.head _)) x (fun name hname => ?_)
    ⟨fun q hq => hsaved q (.tail _ hq), fun name hname => ?_⟩
  · split_ifs at hname
    · exact .inr hname
    · exact .inr (List.mem_of_mem_filter hname)
  · split_ifs at hname with hany
    · obtain ⟨q, hq, rfl⟩ := hcarried name hname
      obtain rfl | hq := List.mem_cons.mp hq
      · obtain ⟨q, hq, he⟩ := List.any_eq_true.mp hany
        exact ⟨q, hq, by simpa using he⟩
      · exact ⟨q, hq, rfl⟩
    · obtain ⟨hname, hne⟩ := List.mem_filter.mp hname
      obtain ⟨q, hq, rfl⟩ := hcarried name hname
      obtain rfl | hq := List.mem_cons.mp hq
      · simp at hne
      · exact ⟨q, hq, rfl⟩

/-- The services that carry settings of the helper are saved, so a restore that lists them
has commands for all of them. -/
theorem restoreList (hs : Recoverable s g) {snapshot : ProxySnapshot}
    (hi : s.request i = .restore (.listing snapshot))
    (hc : ∀ service ∈ g.carried, service ∈ s.services) :
    Recoverable (s.setRequest i (.restore (ProxyState.restoring s.services snapshot))) g := by
  have hn := hs.not_running (running_of_restore hi)
  have hfile : s.snapshot = some snapshot := hs.known_at hi
  refine hs.move hn ⟨fun q hq => ?_, fun name hname => ?_⟩
  · rw [hfile]
    exact saved_of_commands hq
  · obtain ⟨y, hy⟩ := Option.isSome_iff_exists.mp (hs.carried name hname)
    have hy := hs.original name y hy
    rw [hfile, saved, Option.getD_some, List.lookup_eq_some_iff] at hy
    obtain ⟨before, after, hsnap, -⟩ := hy
    have hmem : (name, y) ∈ snapshot.filter fun q => s.services.contains q.1 := by
      rw [List.mem_filter]
      exact ⟨by simp [hsnap], by simpa using hc name hname⟩
    obtain ⟨c, rest, hcmd⟩ : ∃ c rest, restoreCommands y = c :: rest := by
      apply List.exists_cons_of_ne_nil
      exact List.append_ne_nil_of_right_ne_nil _ (List.cons_ne_nil _ _)
    refine ⟨(name, c), List.mem_flatMap.mpr ⟨(name, y), hmem, ?_⟩, rfl⟩
    simp [hcmd]

/-- A complete restore leaves no service carrying settings of the helper. -/
theorem restoreRemove (hs : Recoverable s g) (hi : s.request i = .restore (.restoring []))
    (ok : Bool) :
    Recoverable { s.setRequest i .done with snapshot := if ok then none else s.snapshot }
      (if ok && s.snapshot.isSome then { g with changed := fun _ => none } else g) := by
  have hn := hs.not_running (running_of_restore hi)
  obtain ⟨-, hcarried⟩ := hs.known_at hi
  have hnone (name : Text) : name ∉ g.carried := by
    intro hname
    obtain ⟨q, hq, -⟩ := hcarried name hname
    cases hq
  cases ok with
  | false => exact hs.move hn trivial
  | true =>
    cases hfile : s.snapshot with
    | none =>
      have hm := hs.move (q := .done) hn trivial
      simpa [hfile] using hm
    | some file =>
      refine of_update hn rfl (fun name hname => ?_) (fun name x hx => ?_) (fun name x hx _ => ?_)
        trivial
      · exact absurd hname (hnone name)
      · cases hx
      · cases hx

end Recoverable

variable {s t : ProxyState ι} {g : ProxyHistory} {a : ProxyAction ι}
  {effect : ProxyCommand → ServiceSettings → ServiceSettings}

theorem Recoverable.step (hs : Recoverable s g) (hc : Careful (s, g) a)
    (h : ProxyStep effect s a t) : Recoverable t (g.record s a) := by
  cases h with
  | appear | vanish => exact ⟨hs.carried, hs.original, hs.untouched, hs.alone, hs.known⟩
  | edit => exact hs.edit hc
  | setBegin | setRefused => exact hs.move (fun j _ => hc j) trivial
  | setList hi | setLook hi => exact hs.move (hs.not_running (running_of_set hi)) trivial
  | setLookNone hi hfile =>
    have hn := hs.not_running (running_of_set hi)
    have hnone : s.snapshot = none := hc.elim hfile id
    exact hs.move hn (by simp [ProxyRequest.Known, SetPhase.Known, hnone])
  | setRead hi hfile =>
    have hn := hs.not_running (running_of_set hi)
    exact hs.move hn (by simp [ProxyRequest.Known, SetPhase.Known, hfile])
  | @setCheck i r services snapshot ok hi =>
    have hn := hs.not_running (running_of_set hi)
    exact hs.move hn (SetPhase.known_checked services (hs.known_at hi))
  | setRecord hi => exact hs.setRecord hi
  | setRecorded hi => exact hs.setRecorded hi
  | setQuery hi => exact hs.setQuery hi
  | @setQueryFalse i r services todo service snapshot left read ok hi hok =>
    -- The failure is taken for what the service has.
    have hfalse : (s.settings service).proxyAutoDiscoveryEnabled = false := by
      unfold Careful at hc
      simp only [hi, hok] at hc
      exact hc.resolve_left Bool.false_ne_true
    have hread : { read with proxyAutoDiscoveryEnabled := false } =
        ProxyQuery.autoDiscovery.copy (s.settings service) read := by
      simp [ProxyQuery.copy, hfalse]
    rw [hread]
    exact hs.setQuery hi
  | setWrite hi => exact hs.setWrite hi
  | setCommand hi hok =>
    simp only [ProxyHistory.record, hi, if_pos hok]
    exact hs.setCommand hi _
  | restoreBegin => exact hs.move (fun j _ => hc j) trivial
  | restoreLook hi => exact hs.move (hs.not_running (running_of_restore hi)) trivial
  | restoreRead hi hfile => exact hs.move (hs.not_running (running_of_restore hi)) hfile
  | restoreList hi => exact hs.restoreList hi (hc rfl)
  | restoreCommand hi hok =>
    simp only [ProxyHistory.record, hi, if_pos hok]
    exact hs.restoreCommand hi _
  | restoreRemove hi => exact hs.restoreRemove hi _
  | setCommandFails hi hok =>
    simp only [ProxyHistory.record, hi, if_neg hok]
    exact hs.ends (running_of_set hi)
  | setReturns hi =>
    simp only [ProxyHistory.record, hi]
    exact hs.ends (running_of_set hi)
  | restoreCommandFails hi hok =>
    simp only [ProxyHistory.record, hi, if_neg hok]
    exact hs.ends (running_of_restore hi)
  | setListFails hi | setReadFails hi | setQueryFails hi | setWriteFails hi =>
    exact hs.ends (running_of_set hi)
  | restoreLookNone hi | restoreReadFails hi | restoreListFails hi =>
    exact hs.ends (running_of_restore hi)

variable {p : ProxyState ι × ProxyHistory}

theorem recoverable_of_careful (h : (proxyHistories ι effect).ReachUnder Careful p) :
    Recoverable p.1 p.2 := by
  refine h.invariant (I := fun q => Recoverable q.1 q.2) ?_ ?_
  · rintro ⟨s, g⟩ ⟨⟨services, settings, rfl⟩, rfl⟩
    exact .initial services settings
  · intro p a q _ hs hc hq
    obtain ⟨ht, hg⟩ := System.observe_step.mp hq
    rw [hg]
    exact hs.step hc (proxyStep_of_step ht)

theorem protected_of_careful (h : (proxyHistories ι effect).ReachUnder Careful p) :
    Protected p := by
  have hs := recoverable_of_careful h
  intro _ service _ hcarried
  obtain ⟨x, hx⟩ := Option.isSome_iff_exists.mp (hs.carried service hcarried)
  have hsaved := hs.original service x hx
  cases hfile : p.1.snapshot with
  | none => simp [saved, hfile] at hsaved
  | some snapshot => exact ⟨snapshot, x, rfl, hx, by simpa [saved, hfile] using hsaved⟩

private def wifi : Text := ['W', 'i', '-', 'F', 'i']

private def localProxy : SetSystemProxy where
  endpoint := ⟨"127.0.0.1".toList, 1920⟩
  serverHost := []
  pacUrl := none

/-- A call of `set_system_proxy` that finds no file, up to its own. -/
private def recordsWifi {ι : Type} (i : ι) : List (ProxyAction ι) :=
  .setBegin i localProxy :: .setList i true :: .setLook i true :: .setCheck i true ::
    .setRecord i :: (List.replicate 6 (.setQuery i true)).append [.setRecord i, .setWrite i true]

/-- The rest of the call. -/
private def configuresWifi {ι : Type} (i : ι) : List (ProxyAction ι) :=
  List.replicate 10 (.setCommand i true)

private def restoresWifi {ι : Type} (i : ι) : List (ProxyAction ι) :=
  .restoreBegin i :: .restoreLook i true :: .restoreRead i true :: .restoreList i true ::
    (List.replicate 6 (.restoreCommand i true)).append [.restoreRemove i true]

instance [Fintype ι] (p : ProxyState ι × ProxyHistory) (a : ProxyAction ι) :
    Decidable (Careful p a) := by
  rcases a with ⟨⟩
  all_goals unfold Careful
  case setQuery =>
    dsimp only
    split <;> infer_instance
  all_goals infer_instance

private def freshHelper (ι : Type) : ProxyState ι × ProxyHistory :=
  (.initial [wifi] fun _ => ProxyQuery.unread, .none)

private theorem freshHelper_init (ι : Type) [DecidableEq ι] :
    (proxyHistories ι networksetup).init (freshHelper ι) := ⟨⟨_, _, rfl⟩, rfl⟩

theorem protected_configured : ∃ p : ProxyState Unit × ProxyHistory,
    p.1.request () = .done ∧ p.2.carried = [wifi] ∧ Protected p := by
  have h0 : (proxyHistories Unit networksetup).ReachUnder Careful (freshHelper Unit) :=
    .init (freshHelper_init Unit)
  have h1 := h0.run (recordsWifi ()) (by decide +kernel) rfl
  have h2 := h1.run (configuresWifi ()) (by decide +kernel) rfl
  exact ⟨_, rfl, rfl, protected_of_careful h2⟩

/-- A restore runs between the recording and the configuring of another call. -/
theorem restore_drops_snapshot : ¬ ∀ p : ProxyState Bool × ProxyHistory,
    (proxyHistories Bool networksetup).Reachable p → Protected p := by
  intro h
  have h0 : (proxyHistories Bool networksetup).Reachable (freshHelper Bool) :=
    .init (freshHelper_init Bool)
  have h1 := System.Reachable.run h0 (recordsWifi false) rfl
  have h2 := System.Reachable.run h1 (restoresWifi true) rfl
  have h3 := System.Reachable.run h2 (configuresWifi false) rfl
  obtain ⟨snapshot, settings, hfile, -⟩ := h _ h3 (by decide) wifi (.head _) (.head _)
  cases hfile

end NulConnect.Macos
