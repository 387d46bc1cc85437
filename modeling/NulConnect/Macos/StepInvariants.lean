import NulConnect.Macos.Stepwise
import NulConnect.Transition.Borrowed

/-! What holds at every step of the work on the routes, on the resolver files and on the DNS
settings, each by itself: whatever is not the user's is on record, or is claimed by a start that is
still at work. -/
namespace NulConnect.Macos
open Net Transition Transition.Table

variable {δ : Type*} [DecidableEq δ] {destination : List Text → Option δ}

section Routes

variable {base : δ → Option (List Text)} {lost loose : Set δ} {s : RouteState δ}

/-- The table is the user's but for the routes on record and the lost ones. -/
def RoutesKept (destination : List Text → Option δ) (base : δ → Option (List Text))
    (lost : Set δ) (s : RouteState δ) : Prop :=
  Borrowed base s.table (dests destination (s.record.getD [])) lost

omit [DecidableEq δ] in
theorem routesKept_of_none (hrecord : s.record = none) :
    RoutesKept destination base lost s ↔ Borrowed base s.table [] lost := by
  unfold RoutesKept
  rw [hrecord]
  rfl

theorem deleteRoutes_safe {cidrs : List Text} (h : RoutesKept destination base lost s)
    (hfree : ∀ d ∈ dests destination cidrs, base d = none) :
    (Stepwise.deleteRoutes destination cidrs).Safe (RoutesKept destination base lost)
      (fun _ t => t = Macos.deleteRoutes destination s cidrs) s := by
  induction cidrs generalizing s with
  | nil => exact ⟨h, rfl⟩
  | cons cidr cidrs ih =>
    rw [dests_cons] at hfree
    have hdeleted : RoutesKept destination base lost (deleteRouteCidr destination s cidr) := by
      unfold RoutesKept
      rw [deleteRouteCidr_record, deleteRouteCidr_table]
      exact h.eraseFree fun d hd => hfree d (List.mem_append_left _ hd)
    refine Program.safe_bind.mpr (Program.safe_act.mpr ⟨h, hdeleted, ?_⟩)
    exact ih hdeleted fun d hd => hfree d (List.mem_append_right _ hd)

theorem cleanup_safe (h : RoutesKept destination base lost s) :
    (Stepwise.cleanupTunRoutes destination).Safe (RoutesKept destination base lost)
      (fun _ t => t.record = none) s := by
  refine Program.safe_bind.mpr (Program.safe_reads.mpr ⟨h, ?_⟩)
  apply Program.Safe.bind (deleteRoutes_safe h fun d hd => h.free d (.inl hd))
  rintro _ t ht rfl
  refine Program.safe_act.mpr ⟨ht, ?_, rfl⟩
  rw [routesKept_of_none rfl]
  dsimp only
  rw [deleteRoutes_table]
  exact h.eraseAll

/-- The routes that a loop has added so far. -/
structure Added (destination : List Text → Option δ) (base : δ → Option (List Text))
    (lost loose : Set δ) (installed : List Text) (s : RouteState δ) : Prop where
  record : s.record = none
  table : Borrowed base s.table (dests destination installed) lost
  claimed : ∀ d ∈ dests destination installed, d ∈ loose

variable (hlost : lost ⊆ loose) (hloose : ∀ d ∈ loose, base d = none)

include hlost hloose

omit [DecidableEq δ] in
theorem Added.kept {installed : List Text} (h : Added destination base lost loose installed s) :
    RoutesKept destination base loose s :=
  (routesKept_of_none h.record).mpr (h.table.loosen h.claimed hlost hloose)

omit hlost in
theorem Added.add {installed : List Text} {cidr : Text}
    (h : Added destination base lost loose installed s) (failure : Text → Option Text)
    (target : List Text) (hclaim : ∀ d ∈ destOf destination cidr, d ∈ loose) :
    (∃ e, addRouteCidr destination (failure cidr) cidr target s = (.error e, s)) ∨
      ∃ t, addRouteCidr destination (failure cidr) cidr target s = (.ok (), t) ∧
        Added destination base lost loose (installed ++ [cidr]) t := by
  by_cases hadd : addable destination failure cidr
  · obtain ⟨d, hd⟩ : ∃ d, destOf destination cidr = some d := by
      simp only [addable, Bool.decide_and, Bool.and_eq_true, decide_eq_true_eq] at hadd
      exact Option.isSome_iff_exists.mp hadd.2
    have hdests : dests destination (installed ++ [cidr]) = dests destination installed ++ [d] := by
      simp [dests, hd]
    have hdest : dests destination [cidr] = [d] := by simp [dests, hd]
    refine .inr ⟨_, addRouteCidr_of_addable destination failure target s hadd, h.record, ?_, ?_⟩
    · rw [hdests, withAdditions, additions, hdest]
      exact h.table.insertNew (hloose d (hclaim d hd)) target
    · rw [hdests]
      intro e he
      rcases List.mem_append.mp he with he | he
      · exact h.claimed e he
      · rw [List.mem_singleton.mp he]
        exact hclaim d hd
  · exact .inl (addRouteCidr_of_not_addable destination failure target s hadd)

theorem addTunRoutes_safe (failure : Text → Option Text) (target : List Text)
    {cidrs installed : List Text} (h : Added destination base lost loose installed s)
    (hclaim : ∀ cidr ∈ cidrs, ∀ d ∈ destOf destination cidr, d ∈ loose) :
    (Stepwise.addTunRoutes destination failure target cidrs installed).Safe
      (RoutesKept destination base loose)
      (fun r t => Added destination base lost loose (r.toOption.getD []) t) s := by
  induction cidrs generalizing installed s with
  | nil => exact ⟨h.kept hlost hloose, h⟩
  | cons cidr cidrs ih =>
    rw [List.forall_mem_cons] at hclaim
    unfold Stepwise.addTunRoutes
    split_ifs with hblank
    · exact ih h hclaim.2
    · refine Program.safe_bind.mpr (Program.safe_call.mpr ⟨h.kept hlost hloose, ?_⟩)
      rcases h.add hloose failure target hclaim.1 with ⟨e, hadd⟩ | ⟨t, hadd, ht⟩
      · rw [hadd]
        refine ⟨h.kept hlost hloose, ?_⟩
        have hfree : ∀ d ∈ dests destination installed, base d = none :=
          fun d hd => h.table.free d (.inl hd)
        apply Program.Safe.bind (deleteRoutes_safe (h.kept hlost hloose) hfree)
        rintro _ t ht rfl
        refine ⟨ht, ?_, ?_, fun d hd => absurd hd List.not_mem_nil⟩
        · rw [deleteRoutes_record, h.record]
        · rw [deleteRoutes_table]
          exact h.table.eraseAll
      · rw [hadd]
        exact ⟨ht.kept hlost hloose, ih ht hclaim.2⟩

theorem addNodeRoutes_safe (failure : Text → Option Text) (target : List Text)
    {cidrs installed : List Text} (h : Added destination base lost loose installed s)
    (hclaim : ∀ cidr ∈ cidrs, ∀ d ∈ destOf destination cidr, d ∈ loose) :
    (Stepwise.addNodeRoutes destination failure target cidrs installed).Safe
      (RoutesKept destination base loose)
      (fun installed t => Added destination base lost loose installed t) s := by
  induction cidrs generalizing installed s with
  | nil => exact ⟨h.kept hlost hloose, h⟩
  | cons cidr cidrs ih =>
    rw [List.forall_mem_cons] at hclaim
    refine Program.safe_bind.mpr (Program.safe_call.mpr ⟨h.kept hlost hloose, ?_⟩)
    rcases h.add hloose failure target hclaim.1 with ⟨e, hadd⟩ | ⟨t, hadd, ht⟩
    · rw [hadd]
      exact ⟨h.kept hlost hloose, ih h hclaim.2⟩
    · rw [hadd]
      exact ⟨ht.kept hlost hloose, ih ht hclaim.2⟩

theorem pinNodeRoutes_safe (env : RouteEnv) {nodeRoutes installed : List Text}
    (h : Added destination base lost loose installed s)
    (hclaim : ∀ cidr ∈ nodeRoutes, ∀ d ∈ destOf destination cidr, d ∈ loose) :
    (Stepwise.pinNodeRoutes destination env nodeRoutes installed).Safe
      (RoutesKept destination base loose)
      (fun installed t => Added destination base lost loose installed t) s := by
  unfold Stepwise.pinNodeRoutes
  split_ifs
  · exact ⟨h.kept hlost hloose, h⟩
  · split
    · exact addNodeRoutes_safe hlost hloose env.nodeFailure _ h hclaim
    · exact ⟨h.kept hlost hloose, h⟩

omit [DecidableEq δ] in
theorem writeRoutes_safe {write : Except AtrError Unit} {installed : List Text}
    (h : Added destination base lost loose installed s) :
    (Stepwise.writeRoutes write installed).Safe (RoutesKept destination base loose)
      (fun _ t => write = .ok () → RoutesKept destination base lost t) s := by
  have hkept := h.kept hlost hloose
  unfold Stepwise.writeRoutes
  split
  · exact ⟨hkept, fun hok => by cases hok⟩
  · refine Program.safe_bind.mpr (Program.safe_act.mpr ⟨hkept, ?_, ?_⟩)
    · exact (routesKept_of_none h.record).mp hkept
    · have hwritten : RoutesKept destination base loose { s with record := some installed } :=
        h.table.more hlost hloose
      refine Program.safe_bind.mpr
        (Program.safe_act.mpr ⟨?_, hwritten, hwritten, fun _ => h.table⟩)
      exact (routesKept_of_none h.record).mp hkept

theorem installRoutes_safe {config : RouteConfig} {env : RouteEnv} (hrecord : s.record = none)
    (h : RoutesKept destination base lost s)
    (htun : ∀ cidr ∈ tunRoutes config env, ∀ d ∈ destOf destination cidr, d ∈ loose)
    (hnode : ∀ nodeRoutes, nodeRouteCidrs env = .ok nodeRoutes →
      ∀ cidr ∈ nodeRoutes, ∀ d ∈ destOf destination cidr, d ∈ loose) :
    (Stepwise.installRoutes destination config env).Safe (RoutesKept destination base loose)
      (fun _ t => env.write = .ok () → RoutesKept destination base lost t) s := by
  have hadded : Added destination base lost loose [] s :=
    ⟨hrecord, (routesKept_of_none hrecord).mp h, fun d hd => absurd hd List.not_mem_nil⟩
  unfold Stepwise.installRoutes
  split
  · exact ⟨hadded.kept hlost hloose, fun _ => h⟩
  · rename_i nodeRoutes hnodes
    apply Program.Safe.bind (addTunRoutes_safe hlost hloose _ _ hadded htun)
    intro r t ht hr
    cases r with
    | error e => exact ⟨ht, fun _ => (routesKept_of_none hr.record).mpr hr.table⟩
    | ok installed =>
      apply Program.Safe.bind (pinNodeRoutes_safe hlost hloose env hr (hnode nodeRoutes hnodes))
      exact fun _ u _ hu => writeRoutes_safe hlost hloose hu

end Routes

section Resolvers

variable {base : Text → Option (List UInt8)} {lost loose : Set Text} {s : ResolverState}

/-- The files are the user's but for those on record and the lost ones. -/
def ResolversKept (base : Text → Option (List UInt8)) (lost : Set Text) (s : ResolverState) :
    Prop := Borrowed base s.files s.recorded lost

theorem recorded_nil (h : s.record = none) : s.recorded = [] := by
  rw [ResolverState.recorded, h]

theorem resolversKept_of_nil (hrecorded : s.recorded = []) :
    ResolversKept base lost s ↔ Borrowed base s.files [] lost := by
  unfold ResolversKept
  rw [hrecorded]

theorem removeFiles_safe {domains : List Text} (h : ResolversKept base lost s)
    (hfree : ∀ name ∈ domains, base name = none) :
    (Stepwise.removeFiles domains).Safe (ResolversKept base lost)
      (fun _ t => t = { s with files := eraseAll s.files domains }) s := by
  induction domains generalizing s with
  | nil => exact ⟨h, rfl⟩
  | cons domain domains ih =>
    rw [List.forall_mem_cons] at hfree
    have herased : Borrowed base (eraseAll s.files [domain]) s.recorded lost :=
      h.eraseFree (by simpa using hfree.1)
    have hremoved : ResolversKept base lost
        { s with files := Function.update s.files domain none } := herased
    exact Program.safe_bind.mpr (Program.safe_act.mpr ⟨h, hremoved, ih hremoved hfree.2⟩)

theorem cleanupScopedDnsResolvers_safe (h : ResolversKept base lost s) :
    Stepwise.cleanupScopedDnsResolvers.Safe (ResolversKept base lost)
      (fun _ t => t.record = none) s := by
  refine Program.safe_bind.mpr (Program.safe_reads.mpr ⟨h, ?_⟩)
  apply Program.Safe.bind (removeFiles_safe h fun d hd => h.free d (.inl hd))
  rintro _ t ht rfl
  exact Program.safe_act.mpr ⟨ht, h.eraseAll, rfl⟩

/-- The files that the loop has written so far. -/
structure Filled (base : Text → Option (List UInt8)) (lost loose : Set Text)
    (installed : List Text) (s : ResolverState) : Prop where
  record : s.record = none
  files : Borrowed base s.files installed lost
  claimed : ∀ name ∈ installed, name ∈ loose ∧ removable name

theorem fillFile_safe {inv : ResolverState → Prop} {domain : Text} {front bytes : List UInt8}
    (hset : ∀ t contents, inv t →
      inv { t with files := Function.update t.files domain (some contents) }) (h : inv s) :
    (Stepwise.fillFile domain front bytes).Safe inv (fun _ _ => True) s := by
  induction bytes generalizing front s with
  | nil => exact ⟨h, hset s front h, trivial⟩
  | cons byte bytes ih =>
    exact Program.safe_bind.mpr (Program.safe_act.mpr ⟨h, hset s front h, ih (hset s front h)⟩)

theorem writeFile_safe {installed : List Text} {domain : Text} {contents : List UInt8}
    {outcome : WriteOutcome} (h : Filled base lost loose (installed ++ [domain]) s) :
    (Stepwise.writeFile domain contents outcome).Safe
      (Filled base lost loose (installed ++ [domain])) (fun _ _ => True) s := by
  unfold Stepwise.writeFile
  split
  · exact ⟨h, trivial⟩
  · have hwritten : Filled base lost loose (installed ++ [domain])
        { s with written := s.written ++ [domain] } := ⟨h.record, h.files, h.claimed⟩
    refine Program.safe_bind.mpr (Program.safe_act.mpr ⟨h, hwritten, ?_⟩)
    apply fillFile_safe _ hwritten
    intro t contents ht
    exact ⟨ht.record, ht.files.set (.inl (by simp)) _, ht.claimed⟩

/-- A name whose file does not stay is put on the list. -/
theorem Filled.next {installed : List Text} {legacy : List UInt8} {domain : Text}
    (h : Filled base lost loose installed s) (hkeeps : ¬ keepsExisting legacy (s.files domain))
    (hname : base domain = none ∨ keepsExisting legacy (base domain))
    (hclaim : base domain = none → domain ∈ loose) (hremovable : removable domain) :
    Filled base lost loose (installed ++ [domain]) s := by
  have hnone : base domain = none := by
    by_contra hown
    rw [h.files.own hown] at hkeeps
    exact hname.elim hown hkeeps
  refine ⟨h.record, ?_, ?_⟩
  · apply h.files.mono
    · rintro name (hmem | hmem)
      · rcases List.mem_append.mp hmem with hmem | hmem
        · exact h.files.free name (.inl hmem)
        · rw [List.mem_singleton.mp hmem]
          exact hnone
      · exact h.files.free name (.inr hmem)
    · exact fun name hmem => hmem.imp (List.mem_append_left _) id
  · intro name hmem
    rcases List.mem_append.mp hmem with hmem | hmem
    · exact h.claimed name hmem
    · rw [List.mem_singleton.mp hmem]
      exact ⟨hclaim hnone, hremovable⟩

variable (hlost : lost ⊆ loose) (hloose : ∀ name ∈ loose, base name = none)

include hlost hloose

theorem Filled.kept {installed : List Text} (h : Filled base lost loose installed s) :
    ResolversKept base loose s :=
  (resolversKept_of_nil (recorded_nil h.record)).mpr
    (h.files.loosen (fun name hname => (h.claimed name hname).1) hlost hloose)

theorem writeResolvers_safe (env : ResolverEnv) (contents legacy : List UInt8)
    {names installed : List Text} (h : Filled base lost loose installed s)
    (hnames : ∀ name ∈ names, base name = none ∨ keepsExisting legacy (base name))
    (hclaim : ∀ name ∈ names, base name = none → name ∈ loose)
    (hremovable : ∀ name ∈ names, removable name) :
    (Stepwise.writeResolvers env contents legacy names installed).Safe (ResolversKept base loose)
      (fun r t => (∀ installed, r = .ok installed → Filled base lost loose installed t) ∧
        ((∀ name ∈ names, env.write name = .written) → r.isOk)) s := by
  induction names generalizing installed s with
  | nil =>
    refine ⟨h.kept hlost hloose, ?_, fun _ => rfl⟩
    rintro _ ⟨⟩
    exact h
  | cons domain rest ih =>
    rw [List.forall_mem_cons] at hnames hclaim hremovable
    refine Program.safe_bind.mpr (Program.safe_reads.mpr ⟨h.kept hlost hloose, ?_⟩)
    split_ifs with hkeeps
    · exact (ih h hnames.2 hclaim.2 hremovable.2).mono (fun _ => id) fun r t _ hr =>
        ⟨hr.1, fun hwrites => hr.2 (List.forall_mem_cons.mp hwrites).2⟩
    · have hnext := h.next hkeeps hnames.1 hclaim.1 hremovable.1
      have hwrite : (Stepwise.writeFile domain contents (env.write domain)).Safe
          (ResolversKept base loose) (fun _ => Filled base lost loose (installed ++ [domain])) s :=
        (writeFile_safe hnext).mono (fun _ ht => ht.kept hlost hloose) fun _ _ ht _ => ht
      apply hwrite.bind
      intro _ t ht hfilled
      split
      · exact (ih hfilled hnames.2 hclaim.2 hremovable.2).mono (fun _ => id) fun r t _ hr =>
          ⟨hr.1, fun hwrites => hr.2 (List.forall_mem_cons.mp hwrites).2⟩
      · rename_i err left hfails
        refine ⟨ht, And.intro (fun _ hok => by cases hok) fun hwrites => ?_⟩
        rw [(List.forall_mem_cons.mp hwrites).1] at hfails
        cases hfails
      · rename_i left hdies
        refine ⟨ht, And.intro (fun _ hok => by cases hok) fun hwrites => ?_⟩
        rw [(List.forall_mem_cons.mp hwrites).1] at hdies
        cases hdies

theorem writeRecord_safe {env : ResolverEnv} {installed : List Text}
    (h : Filled base lost loose installed s) :
    (Stepwise.writeRecord env installed).Safe (ResolversKept base loose)
      (fun _ t => env.recordWrite = .written → ResolversKept base lost t) s := by
  have hkept := h.kept hlost hloose
  have hopen := (resolversKept_of_nil (recorded_nil h.record)).mp hkept
  have htorn (left : Option ℕ) : ResolversKept base loose
      { s with record := if left.isSome then some .torn else s.record } := by
    cases left with
    | none => exact hkept
    | some n => exact hopen
  unfold Stepwise.writeRecord
  split
  · have hrecorded : ({ s with record := some (.whole installed) } : ResolverState).recorded =
        installed := List.filter_eq_self.mpr fun name hname => (h.claimed name hname).2
    have hwritten : Borrowed base s.files
        ({ s with record := some (.whole installed) } : ResolverState).recorded lost := by
      rw [hrecorded]
      exact h.files
    have hwritten' : ResolversKept base loose { s with record := some (.whole installed) } :=
      hwritten.more hlost hloose
    refine Program.safe_bind.mpr (Program.safe_act.mpr ⟨hkept, htorn (some 0), ?_⟩)
    exact Program.safe_bind.mpr
      (Program.safe_act.mpr ⟨htorn (some 0), hwritten', hwritten', fun _ => hwritten⟩)
  · rename_i err left hfails
    refine Program.safe_bind.mpr (Program.safe_act.mpr ⟨hkept, htorn left, htorn left, ?_⟩)
    intro hwritten
    rw [hwritten] at hfails
    cases hfails
  · rename_i left hdies
    refine Program.safe_bind.mpr (Program.safe_act.mpr ⟨hkept, htorn left, htorn left, ?_⟩)
    intro hwritten
    rw [hwritten] at hdies
    cases hdies

theorem configure_safe {env : ResolverEnv} {domains : List Text} {server : Text}
    (fakeDns : Option SocketAddr) (h : ResolversKept base lost s)
    (hnames : ∀ name ∈ normalizedResolverDomains domains,
      base name = none ∨ keepsExisting (toUtf8 (legacyContents server)) (base name))
    (hclaim : ∀ name ∈ normalizedResolverDomains domains, base name = none → name ∈ loose) :
    (Stepwise.configureScopedDnsResolvers env domains server fakeDns).Safe
      (ResolversKept base loose)
      (fun _ t => (∀ name ∈ normalizedResolverDomains domains, env.write name = .written) →
        env.recordWrite = .written → ResolversKept base lost t) s := by
  have hloosen {t : ResolverState} (ht : ResolversKept base lost t) :
      ResolversKept base loose t := ht.more hlost hloose
  have hcleanup := (cleanupScopedDnsResolvers_safe h).mono (fun _ => hloosen)
    fun _ t ht hrecord => (⟨ht, hrecord⟩ : ResolversKept base lost t ∧ t.record = none)
  apply Program.Safe.bind hcleanup
  rintro _ t ht ⟨hkept, hrecord⟩
  refine Program.safe_bind.mpr (Program.safe_act.mpr ⟨ht, ht, ?_⟩)
  split
  · exact ⟨ht, fun _ _ => hkept⟩
  · have hfilled : Filled base lost loose [] { t with written := [] } :=
      ⟨hrecord, (resolversKept_of_nil (recorded_nil hrecord)).mp hkept,
        fun name hname => absurd hname List.not_mem_nil⟩
    apply Program.Safe.bind (writeResolvers_safe hlost hloose env _ _ hfilled hnames hclaim
      fun name hname => ResolverState.removable_of_safe (normalizedResolverDomains_safe hname))
    rintro r u hu ⟨hok, hwritten⟩
    cases r with
    | error ending =>
      refine ⟨hu, fun hwrites => ?_⟩
      cases hwritten hwrites
    | ok installed =>
      exact (writeRecord_safe hlost hloose (hok installed rfl)).mono (fun _ => id)
        fun _ _ _ hrecorded _ => hrecorded

end Resolvers

section Settings

variable {settings : Text → TunNetworkSettings} {s : WorkerState}

/-- The settings are as they were, and the snapshot, where it is whole, says so. -/
structure Saved (settings : Text → TunNetworkSettings) (s : WorkerState) : Prop where
  same : s.settings = settings
  whole : ∀ services, s.snapshot = some (.whole services) →
    ∀ p ∈ services, p.2 = settings p.1

theorem mem_mapM_query {query : Text → Except AtrError Unit} {names : List Text}
    {services : List (Text × TunNetworkSettings)}
    (h : (names.mapM fun name => (query name).map fun _ => (name, settings name)) = .ok services) :
    ∀ p ∈ services, p.2 = settings p.1 := by
  induction names generalizing services with
  | nil =>
    obtain rfl := Except.ok.inj h
    exact fun p hp => absurd hp List.not_mem_nil
  | cons name names ih =>
    rw [List.mapM_cons] at h
    cases hquery : query name with
    | error err =>
      rw [hquery] at h
      cases h
    | ok u =>
      rw [hquery] at h
      cases hrest : names.mapM fun name => (query name).map fun _ => (name, settings name) with
      | error err =>
        rw [hrest] at h
        cases h
      | ok rest =>
        rw [hrest] at h
        obtain rfl := Except.ok.inj h
        rw [List.forall_mem_cons]
        exact ⟨rfl, ih hrest⟩

theorem collect_saved {env : SnapshotEnv} {services : List (Text × TunNetworkSettings)}
    (h : env.collect settings = .ok services) : ∀ p ∈ services, p.2 = settings p.1 := by
  unfold SnapshotEnv.collect at h
  cases hnames : env.services with
  | error err =>
    rw [hnames] at h
    cases h
  | ok names =>
    rw [hnames] at h
    cases hquery : names.mapM fun name => (env.query name).map fun _ => (name, settings name) with
    | error err =>
      simp only [bind, Except.bind, hquery] at h
      cases h
    | ok found =>
      simp only [bind, Except.bind, hquery] at h
      cases hdir : env.createDir with
      | error err =>
        rw [hdir] at h
        cases h
      | ok u =>
        rw [hdir] at h
        obtain rfl := Except.ok.inj h
        exact mem_mapM_query hquery

/-- The snapshot is torn only while it is written, or where that is broken off. -/
theorem snapshot_safe (env : SnapshotEnv) (h : Saved settings s)
    (huntorn : s.snapshot ≠ some .torn) : (Stepwise.snapshotTunNetworkState env).Safe
      (fun t => Saved settings t ∧ t.tunEngine = s.tunEngine)
      (fun r t => (r.isOk ∨ ∀ err, env.write ≠ .broken err) → t.snapshot ≠ some .torn) s := by
  have htorn : Saved settings { s with snapshot := some .torn } :=
    ⟨h.same, fun services hfile => by cases hfile⟩
  refine Program.safe_bind.mpr (Program.safe_reads.mpr ⟨⟨h, rfl⟩, ?_⟩)
  split_ifs
  · exact ⟨⟨h, rfl⟩, fun _ => huntorn⟩
  · split
    · exact ⟨⟨h, rfl⟩, fun _ => huntorn⟩
    · rename_i services hcollect hwrite
      have hcollect : env.collect s.settings = .ok services := hcollect
      rw [h.same] at hcollect
      have hwhole : Saved settings { s with snapshot := some (.whole services) } := by
        refine ⟨h.same, fun services' hfile => ?_⟩
        obtain rfl := SnapshotFile.whole.inj (Option.some.inj hfile)
        exact collect_saved hcollect
      refine Program.safe_bind.mpr (Program.safe_act.mpr ⟨⟨h, rfl⟩, ⟨htorn, rfl⟩, ?_⟩)
      refine Program.safe_bind.mpr (Program.safe_act.mpr ⟨⟨htorn, rfl⟩, ⟨hwhole, rfl⟩, ?_⟩)
      exact ⟨⟨hwhole, rfl⟩, fun _ hfile => by cases hfile⟩
    · exact ⟨⟨h, rfl⟩, fun _ => huntorn⟩
    · rename_i err hcollect hwrite
      refine Program.safe_bind.mpr (Program.safe_act.mpr ⟨⟨h, rfl⟩, ⟨htorn, rfl⟩, ?_⟩)
      refine ⟨⟨htorn, rfl⟩, fun hok => ?_⟩
      exact hok.elim (fun hok => by cases hok) fun hnot => absurd hwrite (hnot err)

/-- Restoring what is there already changes nothing. -/
theorem restoreServices_safe (env : RestoreEnv) {services : List (Text × TunNetworkSettings)}
    (h : ∀ p ∈ services, p.2 = s.settings p.1) :
    (Stepwise.restoreServices env services).Safe (fun t => t = s)
      (fun r _ => env.Succeeds → r = .ok ()) s := by
  induction services with
  | nil => exact ⟨rfl, fun _ => rfl⟩
  | cons p services ih =>
    obtain ⟨name, saved⟩ := p
    rw [List.forall_mem_cons] at h
    obtain ⟨hsaved, hrest⟩ := h
    have hsaved : saved = s.settings name := hsaved
    have hdns : Function.update s.settings name
        { s.settings name with dnsServers := saved.dnsServers } = s.settings := by
      rw [hsaved]
      exact Function.update_eq_self name s.settings
    have hsearch : Function.update s.settings name
        { s.settings name with searchDomains := saved.searchDomains } = s.settings := by
      rw [hsaved]
      exact Function.update_eq_self name s.settings
    unfold Stepwise.restoreServices
    split
    · rename_i err hfails
      refine ⟨rfl, fun henv => ?_⟩
      rw [henv.setDns] at hfails
      cases hfails
    · refine Program.safe_bind.mpr (Program.safe_act.mpr ?_)
      rw [hdns]
      refine ⟨rfl, rfl, ?_⟩
      split
      · rename_i err hfails
        refine ⟨rfl, fun henv => ?_⟩
        rw [henv.setSearch] at hfails
        cases hfails
      · refine Program.safe_bind.mpr (Program.safe_act.mpr ?_)
        rw [hsearch]
        exact ⟨rfl, rfl, ih hrest⟩

/-- The settings are saved, in a snapshot that is whole where there is one. -/
structure Resting (settings : Text → TunNetworkSettings) (engine : Bool) (s : WorkerState) :
    Prop extends Saved settings s where
  untorn : s.snapshot ≠ some .torn
  engine : s.tunEngine = engine

theorem restoreTunNetworkState_safe (env : RestoreEnv) {engine : Bool}
    (h : Resting settings engine s) :
    (Stepwise.restoreTunNetworkState env).Safe (Resting settings engine)
      (fun r _ => env.Succeeds → r = .ok () ∨ ∃ text, r = .error (.notFound text)) s := by
  refine Program.safe_bind.mpr (Program.safe_reads.mpr ⟨h, ?_⟩)
  split
  · exact ⟨h, fun _ => .inr ⟨_, rfl⟩⟩
  · rename_i file err hfile hread
    refine ⟨h, fun henv => ?_⟩
    rw [henv.read] at hread
    cases hread
  · rename_i hfile _
    exact absurd hfile h.untorn
  · rename_i services _ hfile _
    split
    · rename_i err hfails
      refine ⟨h, fun henv => ?_⟩
      obtain ⟨names, hnames⟩ := henv.services
      rw [hnames] at hfails
      cases hfails
    · rename_i existing hexisting
      have hsaved : ∀ p ∈ services.filter fun p => p.1 ∈ existing, p.2 = s.settings p.1 := by
        rw [h.same]
        exact fun p hp => h.whole services hfile p (List.mem_of_mem_filter hp)
      have hrestored : (Stepwise.restoreServices env (services.filter fun p => p.1 ∈ existing)).Safe
          (Resting settings engine) (fun r t => t = s ∧ (env.Succeeds → r = .ok ())) s :=
        (restoreServices_safe env hsaved).mono (by rintro t rfl; exact h)
          fun r t ht hr => ⟨ht, hr⟩
      apply hrestored.bind
      rintro r t ht ⟨rfl, hr⟩
      split
      · rename_i err
        refine ⟨ht, fun henv => ?_⟩
        cases hr henv
      · rename_i u err hremove
        refine ⟨ht, fun henv => ?_⟩
        rw [henv.remove] at hremove
        cases hremove
      · have hremoved : Resting settings engine { t with snapshot := none } :=
          ⟨⟨ht.same, fun _ hfile => by cases hfile⟩, (Option.some_ne_none _).symm, ht.engine⟩
        exact Program.safe_bind.mpr
          (Program.safe_act.mpr ⟨ht, hremoved, hremoved, fun _ => .inl rfl⟩)

theorem restoreTunNetworkAfterStop_safe {env : RestoreEnv} {engine : Bool}
    (h : Resting settings engine s) (henv : env.Succeeds) :
    (Stepwise.restoreTunNetworkAfterStop env).Safe (Resting settings engine)
      (fun _ _ => True) s := by
  apply Program.Safe.bind (restoreTunNetworkState_safe env h)
  intro r t ht hr
  rcases hr henv with rfl | ⟨text, rfl⟩
  · exact ⟨ht, trivial⟩
  · exact ⟨ht, trivial⟩

end Settings

end NulConnect.Macos
