import NulConnect.Macos.Resolvers

/-! When `configure_scoped_dns_resolvers` leaves the files of others alone, and when the cleanup
that follows it removes all that it has written. -/
namespace NulConnect.Macos
open Net

/-- A file of the user or of another VPN. -/
def Foreign (server : Text) (bytes : List UInt8) : Prop :=
  ¬ toUtf8 resolverMarker <+: bytes ∧ bytes ≠ toUtf8 (legacyContents server)

/-- The names that the loop writes to as long as no write fails. -/
def toWrite (legacy : List UInt8) (files : Text → Option (List UInt8)) (names : List Text) :
    List Text :=
  names.filter fun name => !keepsExisting legacy (files name)

section Contents

theorem marker_prefix_contents (server : Text) (fakeDns : Option SocketAddr) :
    toUtf8 resolverMarker <+: toUtf8 (resolverContents server fakeDns) := by
  have happ : ∃ rest, resolverContents server fakeDns = resolverMarker ++ rest := by
    cases fakeDns with
    | none => exact ⟨_, by simp only [resolverContents, List.append_assoc]; rfl⟩
    | some addr => exact ⟨_, by simp only [resolverContents, List.append_assoc]; rfl⟩
  obtain ⟨rest, hrest⟩ := happ
  rw [hrest, toUtf8_append]
  exact List.prefix_append _ _

variable {contents legacy : List UInt8} (hm : toUtf8 resolverMarker <+: contents)

include hm

theorem keepsExisting_contents : keepsExisting legacy (some contents) = false := by
  have h : (toUtf8 resolverMarker).isPrefixOf contents := List.isPrefixOf_iff_prefix.mpr hm
  simp [keepsExisting, h]

/-- A write that does not get as far as the end of the marker leaves plain characters. -/
theorem isUtf8_of_leaves {outcome : WriteOutcome} {bytes : List UInt8}
    (h : outcome.leaves contents = some bytes) (hb : ¬ toUtf8 resolverMarker <+: bytes) :
    isUtf8 bytes := by
  have htake : ∃ n, bytes = contents.take n := by
    cases outcome with
    | written => exact ⟨contents.length, by simpa using (Option.some.inj h).symm⟩
    | fails err left =>
      obtain ⟨n, -, hn⟩ := Option.map_eq_some_iff.mp h
      exact ⟨n, hn.symm⟩
    | dies left =>
      obtain ⟨n, -, hn⟩ := Option.map_eq_some_iff.mp h
      exact ⟨n, hn.symm⟩
  obtain ⟨n, rfl⟩ := htake
  obtain ⟨rest, rfl⟩ := hm
  rcases Nat.le_total (toUtf8 resolverMarker).length n with hn | hn
  · apply absurd _ hb
    rw [List.take_append, List.take_of_length_le hn]
    exact List.prefix_append _ _
  · rw [List.take_append_of_le_length hn]
    have hascii : (toUtf8 resolverMarker).all (· < 0x80) := by decide
    apply isUtf8_ascii
    intro b hmem
    exact of_decide_eq_true (List.all_eq_true.mp hascii b (List.mem_of_mem_take hmem))

end Contents

namespace ResolverState

theorem cleanup_files (s : ResolverState) (name : Text) :
    s.cleanupScopedDnsResolvers.files name =
      if name ∈ s.recorded then none else s.files name := by
  have hfold : ∀ (names : List Text) (files : Text → Option (List UInt8)),
      names.foldl (fun files domain => Function.update files domain none) files name =
        if name ∈ names then none else files name := by
    intro names
    induction names with
    | nil => simp
    | cons d names ih =>
      intro files
      rw [List.foldl_cons, ih, Function.update_apply]
      by_cases hd : name = d <;> simp [hd]
  exact hfold _ _

@[simp]
theorem writeFile_record (s : ResolverState) (d : Text) (contents : List UInt8)
    (outcome : WriteOutcome) : (s.writeFile d contents outcome).record = s.record := by
  unfold writeFile
  split <;> rfl

/-- The names of `todo` whose files are touched: up to the first whose write does not go through,
and that one where its write gets far enough. -/
def touched (env : ResolverEnv) (contents : List UInt8) : List Text → List Text
  | [] => []
  | d :: rest =>
    if env.write d = .written then d :: touched env contents rest
    else if ((env.write d).leaves contents).isSome then [d] else []

theorem mem_touched {env : ResolverEnv} {contents : List UInt8} {todo : List Text} {name : Text} :
    name ∈ touched env contents todo ↔ ((env.write name).leaves contents).isSome ∧
      ∃ before after, todo = before ++ name :: after ∧ ∀ d ∈ before, env.write d = .written := by
  induction todo with
  | nil => simp [touched]
  | cons d rest ih =>
    constructor
    · intro h
      rw [touched] at h
      split at h
      · rename_i hd
        rcases List.mem_cons.mp h with rfl | h
        · exact ⟨by simp [hd, WriteOutcome.leaves], [], rest, rfl, by simp⟩
        · obtain ⟨hsome, before, after, rfl, hbefore⟩ := ih.mp h
          refine ⟨hsome, d :: before, after, rfl, ?_⟩
          simpa [hd] using hbefore
      · split at h
        · rename_i hsome
          obtain rfl := List.mem_singleton.mp h
          exact ⟨hsome, [], rest, rfl, by simp⟩
        · cases h
    · rintro ⟨hsome, before, after, hsplit, hbefore⟩
      cases before with
      | nil =>
        have hd : d = name := (List.cons.inj hsplit).1
        subst hd
        rw [touched]
        split <;> simp
      | cons b before =>
        obtain ⟨rfl, rfl⟩ := List.cons.inj hsplit
        rw [touched, if_pos (hbefore d List.mem_cons_self)]
        have htail := ih.mpr ⟨hsome, before, after, rfl,
          fun d' hd' => hbefore d' (List.mem_cons_of_mem _ hd')⟩
        exact List.mem_cons_of_mem _ htail

theorem touched_of_forall {env : ResolverEnv} {contents : List UInt8} {todo : List Text}
    (h : ∀ d ∈ todo, env.write d = .written) : touched env contents todo = todo := by
  induction todo with
  | nil => rfl
  | cons d rest ih =>
    have htail := ih fun d' hd' => h d' (List.mem_cons_of_mem _ hd')
    rw [touched, if_pos (h d List.mem_cons_self), htail]

/-- What a run of the loop does from `s` on, where `todo` are the names to write to. -/
structure Loop (env : ResolverEnv) (contents : List UInt8) (todo installed : List Text)
    (s : ResolverState) (r : Except Ending (List Text) × ResolverState) : Prop where
  record : r.2.record = s.record
  written : r.2.written = s.written ++ touched env contents todo
  files : ∀ name, r.2.files name =
    if name ∈ touched env contents todo then (env.write name).leaves contents else s.files name
  finished : (∀ d ∈ todo, env.write d = .written) → r.1 = .ok (installed ++ todo)
  ended : ¬ (∀ d ∈ todo, env.write d = .written) → ∃ ending, r.1 = .error ending

/-- A write that goes through changes no name that the loop leaves out or still writes to: the
new contents carry the marker. -/
theorem toWrite_writeFile {contents legacy : List UInt8} (hm : toUtf8 resolverMarker <+: contents)
    {s : ResolverState} {d : Text} (hd : keepsExisting legacy (s.files d) = false)
    (names : List Text) :
    toWrite legacy (s.writeFile d contents .written).files names =
      toWrite legacy s.files names := by
  apply List.filter_congr
  intro name _
  by_cases hname : name = d
  · subst hname
    simp [writeFile, WriteOutcome.leaves, keepsExisting_contents hm, hd]
  · simp [writeFile, WriteOutcome.leaves, hname]

/-- A loop that ends at its first name. -/
theorem Loop.stop {env : ResolverEnv} {contents : List UInt8} {d : Text}
    {rest installed : List Text} {s : ResolverState} {ending : Ending}
    (hd : env.write d ≠ .written) :
    Loop env contents (d :: rest) installed s
      (.error ending, s.writeFile d contents (env.write d)) := by
  have htouched : touched env contents (d :: rest) =
      if ((env.write d).leaves contents).isSome then [d] else [] := by
    rw [touched, if_neg hd]
  cases hleaves : (env.write d).leaves contents with
  | none =>
    have hs : s.writeFile d contents (env.write d) = s := by simp [writeFile, hleaves]
    rw [hs]
    exact {
      record := rfl
      written := by simp [htouched, hleaves]
      files := by simp [htouched, hleaves]
      finished := fun h => absurd (h d List.mem_cons_self) hd
      ended := fun _ => ⟨ending, rfl⟩ }
  | some bytes =>
    exact {
      record := by simp [writeFile, hleaves]
      written := by simp [htouched, writeFile, hleaves]
      files := fun name => by
        by_cases hname : name = d <;> simp [htouched, writeFile, hleaves, hname]
      finished := fun h => absurd (h d List.mem_cons_self) hd
      ended := fun _ => ⟨ending, rfl⟩ }

/-- A loop that goes on after its first name. -/
theorem Loop.go {env : ResolverEnv} {contents : List UInt8} {d : Text} {todo installed : List Text}
    {s : ResolverState} {r : Except Ending (List Text) × ResolverState}
    (hd : env.write d = .written)
    (h : Loop env contents todo (installed ++ [d]) (s.writeFile d contents .written) r) :
    Loop env contents (d :: todo) installed s r := by
  have htouched : touched env contents (d :: todo) = d :: touched env contents todo := by
    rw [touched, if_pos hd]
  have hall : (∀ d' ∈ d :: todo, env.write d' = .written) ↔
      ∀ d' ∈ todo, env.write d' = .written := by
    simp [hd]
  constructor
  · exact h.record.trans (writeFile_record ..)
  · rw [h.written, htouched]
    simp [writeFile, WriteOutcome.leaves]
  · intro name
    rw [h.files, htouched]
    by_cases hname : name = d
    · subst hname
      simp [writeFile, hd, WriteOutcome.leaves]
    · simp [writeFile, WriteOutcome.leaves, hname]
  · intro h'
    rw [h.finished (hall.mp h'), List.append_assoc, List.singleton_append]
  · intro h'
    exact h.ended (hall.not.mp h')

theorem writeResolvers_spec {env : ResolverEnv} {contents legacy : List UInt8}
    (hm : toUtf8 resolverMarker <+: contents) (names installed : List Text) (s : ResolverState) :
    Loop env contents (toWrite legacy s.files names) installed s
      (writeResolvers env contents legacy names installed s) := by
  induction names generalizing installed s with
  | nil =>
    exact {
      record := rfl
      written := by simp [writeResolvers, toWrite, touched]
      files := by simp [writeResolvers, toWrite, touched]
      finished := by simp [writeResolvers, toWrite]
      ended := by simp [toWrite] }
  | cons d rest ih =>
    rw [writeResolvers]
    split
    · rename_i hk
      have htodo : toWrite legacy s.files (d :: rest) = toWrite legacy s.files rest := by
        simp [toWrite, hk]
      rw [htodo]
      exact ih installed s
    · rename_i hk
      have hk' : keepsExisting legacy (s.files d) = false := by simpa using hk
      have htodo : toWrite legacy s.files (d :: rest) = d :: toWrite legacy s.files rest := by
        simp [toWrite, hk']
      rw [htodo]
      dsimp only
      split
      · rename_i hd
        have h := ih (installed ++ [d]) (s.writeFile d contents .written)
        rw [toWrite_writeFile hm hk'] at h
        rw [hd]
        exact h.go hd
      · rename_i err left hd
        exact Loop.stop (by simp [hd])
      · rename_i left hd
        exact Loop.stop (by simp [hd])

theorem writeRecord_files (env : ResolverEnv) (installed : List Text) (s : ResolverState) :
    (s.writeRecord env installed).2.files = s.files ∧
      (s.writeRecord env installed).2.written = s.written := by
  unfold writeRecord
  split <;> exact ⟨rfl, rfl⟩

/-- A record that is not written whole names no file. -/
theorem writeRecord_recorded {env : ResolverEnv} (installed : List Text) {s : ResolverState}
    (hs : s.record = none) (h : env.recordWrite ≠ .written) :
    (s.writeRecord env installed).2.recorded = [] := by
  unfold writeRecord
  split
  · contradiction
  · rename_i err left _
    cases left <;> simp [recorded, hs]
  · rename_i left _
    cases left <;> simp [recorded, hs]

section Configure

variable (env : ResolverEnv) (domains : List Text) (server : Text) (fakeDns : Option SocketAddr)
  (s : ResolverState)

/-- The names the call writes to if it gets that far: those of the domains without a file that
stays, once the cleanup has been. -/
def pending : List Text :=
  toWrite (toUtf8 (legacyContents server)) s.cleanupScopedDnsResolvers.files
    (normalizedResolverDomains domains)

/-- The call writes to `name`, and its write leaves `bytes` there. -/
def Leaves (name : Text) (bytes : List UInt8) : Prop :=
  env.createDir.isOk ∧
    (env.write name).leaves (toUtf8 (resolverContents server fakeDns)) = some bytes ∧
    ∃ before after, s.pending domains server = before ++ name :: after ∧
      ∀ d ∈ before, env.write d = .written

/-- A file of another stays as it is, and the cleanup leaves nothing of what has been written,
in this process or in the next. -/
structure ResolversOwned : Prop where
  kept : ∀ name bytes, s.files name = some bytes → Foreign server bytes →
    let after := (s.configureScopedDnsResolvers env domains server fakeDns).2
    after.files name = some bytes ∧ after.cleanupScopedDnsResolvers.files name = some bytes
  removed : let after := (s.configureScopedDnsResolvers env domains server fakeDns).2
    ∀ name ∈ after.written, after.cleanupScopedDnsResolvers.files name = none ∧
      ∀ leftovers, (after.recoverTunLeftovers leftovers).files name = none

/-- The record names no file of another, or the call cuts the new file short at just what it held;
it writes over no file of another, that is over none that is not UTF-8; and where it writes
anything, it gets to the end. -/
structure Ownable : Prop where
  recorded : ∀ name ∈ s.recorded, ∀ bytes, s.files name = some bytes → Foreign server bytes →
    s.Leaves env domains server fakeDns name bytes
  readable : ∀ name bytes, s.files name = some bytes → Foreign server bytes → name ∉ s.recorded →
    isUtf8 bytes ∨ ∀ bytes', ¬ s.Leaves env domains server fakeDns name bytes'
  finished : (∃ name bytes, s.Leaves env domains server fakeDns name bytes) →
    (∀ d ∈ s.pending domains server, env.write d = .written) ∧ env.recordWrite = .written

/-- The names whose files the call touches. -/
def reached : List Text :=
  if env.createDir.isOk then
    touched env (toUtf8 (resolverContents server fakeDns)) (s.pending domains server)
  else []

/-- Every step of the call goes through. -/
def Complete : Prop :=
  env.createDir.isOk ∧ (∀ d ∈ s.pending domains server, env.write d = .written) ∧
    env.recordWrite = .written

/-- What the call does. -/
structure Configured (after : ResolverState) : Prop where
  written : after.written = s.reached env domains server fakeDns
  files : ∀ name, after.files name =
    if name ∈ s.reached env domains server fakeDns then
      (env.write name).leaves (toUtf8 (resolverContents server fakeDns))
    else s.cleanupScopedDnsResolvers.files name
  complete : s.Complete env domains server →
    after.record = some (.whole (s.pending domains server))
  stopped : ¬ s.Complete env domains server → after.recorded = []

theorem configureScopedDnsResolvers_spec :
    s.Configured env domains server fakeDns
      (s.configureScopedDnsResolvers env domains server fakeDns).2 := by
  set begun := { s.cleanupScopedDnsResolvers with written := [] } with hbegun
  have hrecord : begun.record = none := rfl
  cases hdir : env.createDir with
  | error err =>
    have hno : ¬ env.createDir.isOk := by simp [hdir, Except.isOk, Except.toBool]
    have hafter : (s.configureScopedDnsResolvers env domains server fakeDns).2 = begun := by
      rw [configureScopedDnsResolvers, hdir]
    rw [hafter]
    exact {
      written := by rw [reached, if_neg hno]
      files := fun name => by rw [reached, if_neg hno, if_neg List.not_mem_nil]
      complete := fun h => absurd h.1 hno
      stopped := fun _ => by rw [recorded, hrecord] }
  | ok u =>
    have hyes : env.createDir.isOk := by simp [hdir, Except.isOk, Except.toBool]
    have hloop : Loop env (toUtf8 (resolverContents server fakeDns)) (s.pending domains server) []
        begun _ :=
      writeResolvers_spec (marker_prefix_contents server fakeDns)
        (normalizedResolverDomains domains) [] begun
    have hreached : s.reached env domains server fakeDns =
        touched env (toUtf8 (resolverContents server fakeDns)) (s.pending domains server) :=
      if_pos hyes
    have hcomplete : s.Complete env domains server ↔
        (∀ d ∈ s.pending domains server, env.write d = .written) ∧ env.recordWrite = .written :=
      and_iff_right hyes
    rw [configureScopedDnsResolvers, hdir]
    dsimp only
    rw [← hbegun]
    generalize hr : writeResolvers env (toUtf8 (resolverContents server fakeDns))
      (toUtf8 (legacyContents server)) (normalizedResolverDomains domains) [] begun = r at hloop ⊢
    obtain ⟨result, after⟩ := r
    have hnone : after.record = none := hloop.record
    have hwritten : after.written = s.reached env domains server fakeDns := by
      rw [hreached]
      exact hloop.written
    have hfiles := hloop.files
    rw [← hreached] at hfiles
    by_cases hall : ∀ d ∈ s.pending domains server, env.write d = .written
    · have hok : result = .ok (s.pending domains server) := hloop.finished hall
      subst hok
      obtain ⟨hsame, hlog⟩ := writeRecord_files env (s.pending domains server) after
      constructor
      · exact hlog.trans hwritten
      · intro name
        show (after.writeRecord env _).2.files name = _
        rw [hsame]
        exact hfiles name
      · intro h
        show (after.writeRecord env _).2.record = _
        rw [writeRecord, (hcomplete.mp h).2]
      · intro h
        apply writeRecord_recorded _ hnone
        intro hrec
        exact h (hcomplete.mpr ⟨hall, hrec⟩)
    · obtain ⟨ending, herr⟩ := hloop.ended hall
      subst herr
      constructor
      · exact hwritten
      · exact hfiles
      · intro h
        exact absurd (hcomplete.mp h).1 hall
      · intro _
        show recorded after = []
        rw [recorded, hnone]

variable {env domains server fakeDns s}

theorem mem_reached {name : Text} : name ∈ s.reached env domains server fakeDns ↔
    ∃ bytes, s.Leaves env domains server fakeDns name bytes := by
  unfold reached
  split
  · rename_i hdir
    rw [mem_touched, Option.isSome_iff_exists]
    constructor
    · rintro ⟨⟨bytes, hbytes⟩, hreach⟩
      exact ⟨bytes, hdir, hbytes, hreach⟩
    · rintro ⟨bytes, -, hbytes, hreach⟩
      exact ⟨⟨bytes, hbytes⟩, hreach⟩
  · rename_i hdir
    simp [Leaves, hdir]

theorem leaves_iff {name : Text} {bytes : List UInt8}
    (hname : name ∈ s.reached env domains server fakeDns) :
    s.Leaves env domains server fakeDns name bytes ↔
      (env.write name).leaves (toUtf8 (resolverContents server fakeDns)) = some bytes := by
  obtain ⟨_, hdir, -, hreach⟩ := mem_reached.mp hname
  constructor
  · intro h
    exact h.2.1
  · intro h
    exact ⟨hdir, h, hreach⟩

theorem mem_pending_of_leaves {name : Text} {bytes : List UInt8}
    (h : s.Leaves env domains server fakeDns name bytes) : name ∈ s.pending domains server := by
  obtain ⟨-, -, before, after, hsplit, -⟩ := h
  rw [hsplit]
  simp

theorem removable_of_safe {name : Text} (h : SafeName name) : removable name := by
  have hslash : '/' ∉ name := by
    intro hmem
    exact absurd (h.chars _ hmem) (by decide)
  simpa [removable, hslash] using ⟨h.current, h.parent⟩

/-- A complete call can remove all that it has written. -/
theorem recorded_of_complete {after : ResolverState}
    (hrecord : after.record = some (.whole (s.pending domains server))) :
    after.recorded = s.pending domains server := by
  rw [recorded, hrecord]
  apply List.filter_eq_self.mpr
  intro name hname
  exact removable_of_safe (normalizedResolverDomains_safe (List.mem_of_mem_filter hname))

/-- A complete call leaves whole files, which carry the marker. -/
theorem not_leaves_of_complete (hc : s.Complete env domains server) {name : Text}
    {bytes : List UInt8} (hb : ¬ toUtf8 resolverMarker <+: bytes) :
    ¬ s.Leaves env domains server fakeDns name bytes := by
  intro h
  have hwrite := hc.2.1 name (mem_pending_of_leaves h)
  have hbytes := h.2.1
  rw [hwrite, WriteOutcome.leaves] at hbytes
  rw [← Option.some.inj hbytes] at hb
  exact hb (marker_prefix_contents server fakeDns)

theorem reached_of_complete (hc : s.Complete env domains server) :
    s.reached env domains server fakeDns = s.pending domains server := by
  rw [reached, if_pos hc.1, touched_of_forall hc.2.1]

/-- A file of another that can be read is none of those the call writes to. -/
theorem not_mem_pending {name : Text} {bytes : List UInt8} (hfile : s.files name = some bytes)
    (hforeign : Foreign server bytes) (hutf8 : isUtf8 bytes) (hrec : name ∉ s.recorded) :
    name ∉ s.pending domains server := by
  intro hmem
  have hkeep := (List.mem_filter.mp hmem).2
  have hpre : ¬ (toUtf8 resolverMarker).isPrefixOf bytes :=
    fun h => hforeign.1 (List.isPrefixOf_iff_prefix.mp h)
  rw [cleanup_files, if_neg hrec, hfile] at hkeep
  simp [keepsExisting, hutf8, hpre, hforeign.2] at hkeep

section After

variable {after : ResolverState} (ha : s.Configured env domains server fakeDns after)

include ha

theorem Configured.files_cleaned {name : Text} (h : ¬ s.Complete env domains server) :
    after.cleanupScopedDnsResolvers.files name = after.files name := by
  rw [cleanup_files, ha.stopped h, if_neg List.not_mem_nil]

theorem Configured.kept_iff {name : Text} {bytes : List UInt8} (hfile : s.files name = some bytes)
    (hforeign : Foreign server bytes) :
    (after.files name = some bytes ∧ after.cleanupScopedDnsResolvers.files name = some bytes) ↔
      (name ∈ s.recorded → s.Leaves env domains server fakeDns name bytes) ∧
      (name ∉ s.recorded →
        isUtf8 bytes ∨ ∀ bytes', ¬ s.Leaves env domains server fakeDns name bytes') := by
  have hfiles := ha.files name
  by_cases hname : name ∈ s.reached env domains server fakeDns
  · rw [if_pos hname] at hfiles
    constructor
    · rintro ⟨hsame, -⟩
      rw [hfiles] at hsame
      constructor
      · intro _
        exact (leaves_iff hname).mpr hsame
      · intro _
        exact Or.inl (isUtf8_of_leaves (marker_prefix_contents server fakeDns) hsame hforeign.1)
    · rintro ⟨hrec, hread⟩
      have hleaves : s.Leaves env domains server fakeDns name bytes := by
        by_cases hr : name ∈ s.recorded
        · exact hrec hr
        obtain ⟨bytes', hleaves'⟩ := mem_reached.mp hname
        rcases hread hr with hutf8 | hno
        · exact absurd (mem_pending_of_leaves hleaves') (not_mem_pending hfile hforeign hutf8 hr)
        · exact absurd hleaves' (hno bytes')
      have hstop : ¬ s.Complete env domains server :=
        fun hc => not_leaves_of_complete hc hforeign.1 hleaves
      have hsame : after.files name = some bytes := hfiles.trans hleaves.2.1
      exact ⟨hsame, (ha.files_cleaned hstop).trans hsame⟩
  · rw [if_neg hname, cleanup_files] at hfiles
    constructor
    · rintro ⟨hsame, -⟩
      have hr : name ∉ s.recorded := by
        intro hr
        rw [hfiles, if_pos hr] at hsame
        cases hsame
      constructor
      · intro h
        exact absurd h hr
      · intro _
        exact Or.inr fun bytes' h => hname (mem_reached.mpr ⟨bytes', h⟩)
    · rintro ⟨hrec, -⟩
      have hr : name ∉ s.recorded := fun hr => hname (mem_reached.mpr ⟨bytes, hrec hr⟩)
      have hsame : after.files name = some bytes := by
        rw [hfiles, if_neg hr, hfile]
      refine ⟨hsame, ?_⟩
      by_cases hc : s.Complete env domains server
      · have hnot : name ∉ after.recorded := by
          rw [recorded_of_complete (ha.complete hc), ← reached_of_complete hc]
          exact hname
        rw [cleanup_files, if_neg hnot, hsame]
      · exact (ha.files_cleaned hc).trans hsame

theorem Configured.removed_iff :
    (∀ name ∈ after.written, after.cleanupScopedDnsResolvers.files name = none ∧
      ∀ leftovers, (after.recoverTunLeftovers leftovers).files name = none) ↔
      ((∃ name bytes, s.Leaves env domains server fakeDns name bytes) →
        s.Complete env domains server) := by
  rw [ha.written]
  constructor
  · rintro h ⟨name, bytes, hleaves⟩
    by_contra hc
    have hname := mem_reached.mpr ⟨bytes, hleaves⟩
    have hgone := (h name hname).1
    rw [ha.files_cleaned hc, ha.files, if_pos hname, hleaves.2.1] at hgone
    cases hgone
  · intro h name hname
    have hc := h ⟨name, mem_reached.mp hname⟩
    have hgone : after.cleanupScopedDnsResolvers.files name = none := by
      rw [cleanup_files, recorded_of_complete (ha.complete hc), ← reached_of_complete hc,
        if_pos hname]
    refine ⟨hgone, fun leftovers => ?_⟩
    have hrecover : after.recoverTunLeftovers leftovers = after.cleanupScopedDnsResolvers := by
      simp [recoverTunLeftovers, ha.complete hc]
    rw [hrecover, hgone]

end After

end Configure

theorem resolversOwned_iff (env : ResolverEnv) (domains : List Text) (server : Text)
    (fakeDns : Option SocketAddr) (s : ResolverState) :
    s.ResolversOwned env domains server fakeDns ↔ s.Ownable env domains server fakeDns := by
  have ha := s.configureScopedDnsResolvers_spec env domains server fakeDns
  constructor
  · intro h
    constructor
    · intro name hrec bytes hfile hforeign
      exact ((ha.kept_iff hfile hforeign).mp (h.kept name bytes hfile hforeign)).1 hrec
    · intro name bytes hfile hforeign hrec
      exact ((ha.kept_iff hfile hforeign).mp (h.kept name bytes hfile hforeign)).2 hrec
    · intro hany
      exact (ha.removed_iff.mp h.removed hany).2
  · intro h
    constructor
    · intro name bytes hfile hforeign
      apply (ha.kept_iff hfile hforeign).mpr
      exact ⟨fun hrec => h.recorded name hrec bytes hfile hforeign,
        h.readable name bytes hfile hforeign⟩
    · apply ha.removed_iff.mpr
      rintro ⟨name, bytes, hleaves⟩
      exact ⟨hleaves.1, h.finished ⟨name, bytes, hleaves⟩⟩

/-- The second of two files cannot be written: the first stays, and nothing records it. -/
theorem resolvers_not_owned :
    let env : ResolverEnv := {
      createDir := .ok ()
      write := fun name =>
        if name = "b.example".toList then
          .fails (.networkFailed "No space left on device".toList) none
        else .written
      recordWrite := .written }
    let s : ResolverState := { files := fun _ => none, record := none, written := [] }
    ¬ s.ResolversOwned env ["a.example".toList, "b.example".toList] "10.0.0.53".toList none := by
  intro env s h
  have hgone := (h.removed "a.example".toList (by decide +kernel)).1
  exact absurd hgone (by decide +kernel)

end ResolverState

end NulConnect.Macos
