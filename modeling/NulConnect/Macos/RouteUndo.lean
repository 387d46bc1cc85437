import NulConnect.Macos.Routes

/-! When `cleanup_tun_routes` undoes `setup_managed_tun_routes`. -/
namespace NulConnect.Macos
open Net Transition.Table

variable {δ : Type*} [DecidableEq δ] (destination : List Text → Option δ)

/-- The destination that the route commands act on for a route text. -/
def destOf (cidr : Text) : Option δ :=
  match normalizeRouteCidr cidr with
  | .error _ => none
  | .ok args => destination args

def dests (cidrs : List Text) : List δ := cidrs.filterMap (destOf destination)

/-- The addition of the route fails for no other reason than an existing route. -/
def addable (failure : Text → Option Text) (cidr : Text) : Bool :=
  failure cidr = none ∧ (destOf destination cidr).isSome

/-- The additions the loops attempt for the routes. -/
def additions (target : List Text) (cidrs : List Text) : List (δ × List Text) :=
  (dests destination cidrs).map fun d => (d, target)

omit [DecidableEq δ] in
@[simp] theorem additions_fst (target : List Text) (cidrs : List Text) :
    (additions destination target cidrs).map Prod.fst = dests destination cidrs := by
  simp [additions, Function.comp_def]

section Deletions

variable (s : RouteState δ)

theorem deleteRouteCidr_eq (cidr : Text) :
    deleteRouteCidr destination s cidr =
      match destOf destination cidr with
      | none => s
      | some d =>
        if s.table d = none then s
        else { s with table := erase s.table d, deleted := d :: s.deleted } := by
  unfold deleteRouteCidr destOf routeDelete
  cases normalizeRouteCidr cidr with
  | error e => rfl
  | ok args => rfl

theorem deleteRouteCidr_table (cidr : Text) :
    (deleteRouteCidr destination s cidr).table =
      eraseAll s.table (dests destination [cidr]) := by
  rw [deleteRouteCidr_eq]
  cases hd : destOf destination cidr with
  | none => simp [dests, hd, eraseAll]
  | some d =>
    have hc : dests destination [cidr] = [d] := by simp [dests, hd]
    rw [hc]
    dsimp only
    split_ifs with hn
    · exact (eraseAll_eq_self.mpr (by simpa using hn)).symm
    · rfl

theorem deleteRouteCidr_deleted (cidr : Text) (d : δ) :
    d ∈ (deleteRouteCidr destination s cidr).deleted ↔
      d ∈ s.deleted ∨ d ∈ dests destination [cidr] ∧ s.table d ≠ none := by
  rw [deleteRouteCidr_eq]
  cases hd : destOf destination cidr with
  | none => simp [dests, hd]
  | some e =>
    have hc : dests destination [cidr] = [e] := by simp [dests, hd]
    rw [hc, List.mem_singleton]
    dsimp only
    split_ifs with hn
    · constructor
      · exact Or.inl
      · rintro (h | ⟨rfl, h⟩)
        · exact h
        · exact absurd hn h
    · rw [List.mem_cons]
      constructor
      · rintro (rfl | h)
        · exact .inr ⟨rfl, hn⟩
        · exact .inl h
      · rintro (h | ⟨rfl, -⟩)
        · exact .inr h
        · exact .inl rfl

theorem deleteRouteCidr_record (cidr : Text) :
    (deleteRouteCidr destination s cidr).record = s.record := by
  rw [deleteRouteCidr_eq]
  split
  · rfl
  · split_ifs <;> rfl

omit [DecidableEq δ] in
theorem dests_cons (cidr : Text) (cidrs : List Text) :
    dests destination (cidr :: cidrs) = dests destination [cidr] ++ dests destination cidrs := by
  rw [dests, ← List.singleton_append, List.filterMap_append]
  rfl

theorem deleteRoutes_table (cidrs : List Text) :
    (deleteRoutes destination s cidrs).table = eraseAll s.table (dests destination cidrs) := by
  induction cidrs generalizing s with
  | nil => rfl
  | cons cidr cidrs ih =>
    calc (deleteRoutes destination s (cidr :: cidrs)).table
        = eraseAll (deleteRouteCidr destination s cidr).table (dests destination cidrs) := ih _
      _ = eraseAll s.table (dests destination (cidr :: cidrs)) := by
        rw [deleteRouteCidr_table, eraseAll_eraseAll, dests_cons destination cidr cidrs]

theorem deleteRoutes_deleted (cidrs : List Text) (d : δ) :
    d ∈ (deleteRoutes destination s cidrs).deleted ↔
      d ∈ s.deleted ∨ d ∈ dests destination cidrs ∧ s.table d ≠ none := by
  induction cidrs generalizing s with
  | nil => simp [deleteRoutes, dests]
  | cons cidr cidrs ih =>
    have hstep : d ∈ (deleteRoutes destination s (cidr :: cidrs)).deleted ↔
        d ∈ (deleteRouteCidr destination s cidr).deleted ∨
          d ∈ dests destination cidrs ∧ (deleteRouteCidr destination s cidr).table d ≠ none :=
      ih _
    rw [hstep, deleteRouteCidr_deleted, deleteRouteCidr_table, eraseAll_apply,
      dests_cons destination cidr cidrs, List.mem_append]
    by_cases hd : d ∈ dests destination [cidr]
    · simp [hd]
    · simp [hd]

theorem deleteRoutes_record (cidrs : List Text) :
    (deleteRoutes destination s cidrs).record = s.record := by
  induction cidrs generalizing s with
  | nil => rfl
  | cons cidr cidrs ih => exact (ih _).trans (deleteRouteCidr_record destination s cidr)

end Deletions

section Additions

variable (failure : Text → Option Text) (target : List Text) (s : RouteState δ)

/-- The state with the additions made where there was no route. -/
def withAdditions (s : RouteState δ) (ps : List (δ × List Text)) : RouteState δ :=
  { s with table := insertAll s.table ps }

theorem withAdditions_append (ps qs : List (δ × List Text)) :
    withAdditions (withAdditions s ps) qs = withAdditions s (ps ++ qs) := by
  unfold withAdditions
  rw [insertAll_append]

omit [DecidableEq δ] in
theorem additions_cons (cidr : Text) (cidrs : List Text) :
    additions destination target (cidr :: cidrs) =
      additions destination target [cidr] ++ additions destination target cidrs := by
  unfold additions
  rw [dests_cons destination cidr cidrs, List.map_append]

theorem addRouteCidr_of_addable {cidr : Text} (h : addable destination failure cidr) :
    addRouteCidr destination (failure cidr) cidr target s =
      (.ok (), withAdditions s (additions destination target [cidr])) := by
  simp only [addable, Bool.decide_and, Bool.and_eq_true, decide_eq_true_eq] at h
  obtain ⟨hf, hd⟩ := h
  obtain ⟨d, hd⟩ := Option.isSome_iff_exists.mp hd
  have hps : additions destination target [cidr] = [(d, target)] := by
    simp [additions, dests, hd]
  rw [hps, hf]
  unfold addRouteCidr
  unfold destOf at hd
  cases hn : normalizeRouteCidr cidr with
  | error e => simp [hn] at hd
  | ok args =>
    rw [hn] at hd
    simp only at hd
    simp only [routeAdd, hd, withAdditions, insertAll, List.foldl_cons, List.foldl_nil, insertNew]
    split_ifs <;> rfl

theorem addRouteCidr_of_not_addable {cidr : Text} (h : ¬ addable destination failure cidr) :
    ∃ e, addRouteCidr destination (failure cidr) cidr target s = (.error e, s) := by
  unfold addRouteCidr
  cases hn : normalizeRouteCidr cidr with
  | error e => exact ⟨e, rfl⟩
  | ok args =>
    cases hf : failure cidr with
    | some message => exact ⟨_, rfl⟩
    | none =>
      have hd : destination args = none := by simpa [addable, destOf, hn, hf] using h
      refine ⟨.networkFailed "bad address".toList, ?_⟩
      simp only [routeAdd, hd]

/-- The routes of the loop over the managed routes that have any text. -/
def nonBlank (cidrs : List Text) : List Text := cidrs.filter fun cidr => trim cidr ≠ []

theorem addTunRoutes_of_all (cidrs installed : List Text)
    (h : ∀ cidr ∈ nonBlank cidrs, addable destination failure cidr) :
    addTunRoutes destination failure target cidrs installed s =
      (.ok (installed ++ nonBlank cidrs),
        withAdditions s (additions destination target (nonBlank cidrs))) := by
  induction cidrs generalizing installed s with
  | nil => simp [addTunRoutes, nonBlank, withAdditions, additions, dests, insertAll]
  | cons cidr cidrs ih =>
    unfold addTunRoutes
    split_ifs with hb
    · have hnb : nonBlank (cidr :: cidrs) = nonBlank cidrs := by simp [nonBlank, hb]
      rw [hnb] at h ⊢
      exact ih s installed h
    · have hnb : nonBlank (cidr :: cidrs) = cidr :: nonBlank cidrs := by simp [nonBlank, hb]
      rw [hnb] at h ⊢
      obtain ⟨hc, hcs⟩ := List.forall_mem_cons.mp h
      rw [addRouteCidr_of_addable destination failure target s hc]
      dsimp only
      rw [ih _ _ hcs, withAdditions_append, ← additions_cons, List.append_assoc,
        List.singleton_append]

/-- Where an addition fails, the routes before it are deleted, whether they were added or
found. -/
theorem addTunRoutes_of_failure (cidrs installed : List Text)
    (h : ¬ ∀ cidr ∈ nonBlank cidrs, addable destination failure cidr) :
    ∃ e, addTunRoutes destination failure target cidrs installed s =
      (.error e,
        let before := (nonBlank cidrs).takeWhile (addable destination failure)
        deleteRoutes destination (withAdditions s (additions destination target before))
          (installed ++ before)) := by
  induction cidrs generalizing installed s with
  | nil => simp [nonBlank] at h
  | cons cidr cidrs ih =>
    unfold addTunRoutes
    split_ifs with hb
    · have hnb : nonBlank (cidr :: cidrs) = nonBlank cidrs := by simp [nonBlank, hb]
      rw [hnb] at h ⊢
      exact ih s installed h
    · have hnb : nonBlank (cidr :: cidrs) = cidr :: nonBlank cidrs := by simp [nonBlank, hb]
      rw [hnb] at h ⊢
      by_cases hc : addable destination failure cidr
      · have hcs : ¬ ∀ c ∈ nonBlank cidrs, addable destination failure c := fun hcs =>
          h (List.forall_mem_cons.mpr ⟨hc, hcs⟩)
        rw [addRouteCidr_of_addable destination failure target s hc]
        obtain ⟨e, he⟩ := ih (withAdditions s (additions destination target [cidr]))
          (installed ++ [cidr]) hcs
        refine ⟨e, ?_⟩
        dsimp only at he ⊢
        rw [he, withAdditions_append, ← additions_cons, List.takeWhile_cons_of_pos hc,
          ← List.append_cons]
      · obtain ⟨e, he⟩ := addRouteCidr_of_not_addable destination failure target s hc
        refine ⟨e, ?_⟩
        rw [he, List.takeWhile_cons_of_neg hc]
        simp [additions, dests, withAdditions, insertAll]

theorem addNodeRoutes_eq (cidrs installed : List Text) :
    addNodeRoutes destination failure target cidrs installed s =
      (installed ++ cidrs.filter (addable destination failure),
        withAdditions s
          (additions destination target (cidrs.filter (addable destination failure)))) := by
  induction cidrs generalizing installed s with
  | nil => simp [addNodeRoutes, withAdditions, additions, dests, insertAll]
  | cons cidr cidrs ih =>
    unfold addNodeRoutes
    by_cases hc : addable destination failure cidr
    · rw [addRouteCidr_of_addable destination failure target s hc]
      dsimp only
      rw [ih, withAdditions_append, List.filter_cons_of_pos hc, ← additions_cons,
        List.append_assoc, List.singleton_append]
    · obtain ⟨e, he⟩ := addRouteCidr_of_not_addable destination failure target s hc
      rw [he]
      dsimp only
      rw [ih, List.filter_cons_of_neg hc]

end Additions

/-- The node routes that are added or found: none without a default gateway. -/
def pinned (env : RouteEnv) (nodeRoutes : List Text) : List Text :=
  match env.gateway with
  | .ok _ => nodeRoutes.filter (addable destination env.nodeFailure)
  | .error _ => []

theorem pinNodeRoutes_eq (env : RouteEnv) (nodeRoutes installed : List Text)
    (s : RouteState δ) : ∃ target : List Text, target.length ≤ 1 ∧
      pinNodeRoutes destination env nodeRoutes installed s =
      (installed ++ pinned destination env nodeRoutes,
        withAdditions s (additions destination target (pinned destination env nodeRoutes))) := by
  unfold pinNodeRoutes pinned
  cases env.gateway with
  | error e =>
    refine ⟨[], Nat.zero_le _, ?_⟩
    simp [withAdditions, additions, dests, insertAll]
  | ok gateway =>
    refine ⟨[gateway], le_rfl, ?_⟩
    split_ifs with hn
    · simp [hn, withAdditions, additions, dests, insertAll]
    · exact addNodeRoutes_eq destination env.nodeFailure [gateway] s nodeRoutes installed

section Undone

/-- The table before setup, with what an earlier run may have left on record. -/
def before (table : δ → Option (List Text)) (record : Option (List Text)) : RouteState δ where
  table := table
  record := record
  deleted := []

/-- After setup, whatever it returned, and cleanup, the table is the one before setup, and
no route of that table was deleted on the way. -/
def RoutesUndone (config : RouteConfig) (env : RouteEnv) (table : δ → Option (List Text))
    (record : Option (List Text)) : Prop :=
  let after := cleanupTunRoutes destination
    (setupManagedTunRoutes destination config env (before table record)).2
  after.table = table ∧ ∀ d ∈ after.deleted, table d = none

/-- No route that the record of an earlier run names is there, and of the routes that setup
gets to, none is there before; where the record cannot be written, all of them are. -/
def Undoable (config : RouteConfig) (env : RouteEnv) (table : δ → Option (List Text))
    (record : Option (List Text)) : Prop :=
  (∀ d ∈ dests destination (record.getD []), table d = none) ∧
  (config.setupRoutes → env.resolvers.isOk → ∀ nodeRoutes, nodeRouteCidrs env = .ok nodeRoutes →
    let routes := nonBlank (tunRoutes config env)
    if ∀ cidr ∈ routes, addable destination env.tunFailure cidr then
      let installed := routes ++ pinned destination env nodeRoutes
      if env.write.isOk then ∀ d ∈ dests destination installed, table d = none
      else ∀ d ∈ dests destination installed, table d ≠ none
    else
      ∀ d ∈ dests destination (routes.takeWhile (addable destination env.tunFailure)),
        table d = none)

variable {table : δ → Option (List Text)} {record : Option (List Text)}

/-- A run that ends with everything erased that it touched. -/
private theorem undone_iff_absent {s : RouteState δ} {ds : List δ}
    (ht : s.table = eraseAll table ds) (hd : ∀ d ∈ s.deleted, d ∈ ds) :
    (s.table = table ∧ ∀ d ∈ s.deleted, table d = none) ↔ ∀ d ∈ ds, table d = none := by
  rw [ht, eraseAll_eq_self]
  constructor
  · exact And.left
  · intro h
    exact ⟨h, fun d hs => h d (hd d hs)⟩

/-- A run that ends without a record of what it added. -/
private theorem undone_iff_present {s : RouteState δ} {ds : List δ} {ps : List (δ × List Text)}
    (ht : s.table = insertAll (eraseAll table ds) ps)
    (hd : ∀ d, d ∈ s.deleted ↔ d ∈ ds ∧ table d ≠ none) :
    (s.table = table ∧ ∀ d ∈ s.deleted, table d = none) ↔
      (∀ d ∈ ds, table d = none) ∧ ∀ d ∈ ps.map Prod.fst, table d ≠ none := by
  have hdel : (∀ d ∈ s.deleted, table d = none) ↔ ∀ d ∈ ds, table d = none := by
    constructor
    · intro h d hds
      by_contra hn
      exact hn (h d ((hd d).mpr ⟨hds, hn⟩))
    · intro h d hs
      exact h d ((hd d).mp hs).1
  rw [hdel, ht, and_comm]
  refine and_congr_right fun h => ?_
  rw [eraseAll_eq_self.mpr h, insertAll_eq_self]

variable (table record) in
/-- What `cleanup_tun_routes` leaves of an earlier run. -/
private theorem cleanup_before :
    (cleanupTunRoutes destination (before table record)).table =
      eraseAll table (dests destination (record.getD [])) ∧
    (cleanupTunRoutes destination (before table record)).record = none ∧
    ∀ d, d ∈ (cleanupTunRoutes destination (before table record)).deleted ↔
      d ∈ dests destination (record.getD []) ∧ table d ≠ none := by
  refine ⟨deleteRoutes_table destination _ _, rfl, fun d => ?_⟩
  refine (deleteRoutes_deleted destination _ _ d).trans ?_
  simp [before]

private theorem cleanup_of_no_record {s : RouteState δ} (h : s.record = none) :
    cleanupTunRoutes destination s = s := by
  cases s
  subst h
  rfl

/-- The state after setup and cleanup, where setup ended in `s`. -/
private def Undone (table : δ → Option (List Text)) (s : RouteState δ) : Prop :=
  (cleanupTunRoutes destination s).table = table ∧
    ∀ d ∈ (cleanupTunRoutes destination s).deleted, table d = none

private theorem undone_cleaned :
    Undone destination table (cleanupTunRoutes destination (before table record)) ↔
    ∀ d ∈ dests destination (record.getD []), table d = none := by
  obtain ⟨ht, hr, hd⟩ := cleanup_before destination table record
  unfold Undone
  rw [cleanup_of_no_record destination hr]
  exact undone_iff_absent ht fun d hdd => ((hd d).mp hdd).1

variable {config : RouteConfig} {env : RouteEnv} {nodeRoutes : List Text}

variable (table record) in
private theorem setup_rolled_back (hs : config.setupRoutes) (hres : env.resolvers.isOk)
    (hnode : nodeRouteCidrs env = .ok nodeRoutes)
    (hall : ¬ ∀ cidr ∈ nonBlank (tunRoutes config env),
      addable destination env.tunFailure cidr) :
    ∃ e ps, (ps.map Prod.fst = dests destination ((nonBlank (tunRoutes config env)).takeWhile
        (addable destination env.tunFailure))) ∧
      setupManagedTunRoutes destination config env (before table record) =
        (.error e, deleteRoutes destination
          (withAdditions (cleanupTunRoutes destination (before table record)) ps)
          ((nonBlank (tunRoutes config env)).takeWhile (addable destination env.tunFailure))) := by
  obtain ⟨e, he⟩ := addTunRoutes_of_failure destination env.tunFailure
    ["-interface".toList, env.tunName] (cleanupTunRoutes destination (before table record))
    (tunRoutes config env) [] hall
  refine ⟨e, _, additions_fst destination ["-interface".toList, env.tunName] _, ?_⟩
  unfold setupManagedTunRoutes
  cases hr : env.resolvers with
  | error e' => simp [hr, Except.isOk, Except.toBool] at hres
  | ok v =>
    simp only [hs, not_true_eq_false, if_false, hnode, he, List.nil_append]

variable (table record) in
private theorem setup_added (hs : config.setupRoutes) (hres : env.resolvers.isOk)
    (hnode : nodeRouteCidrs env = .ok nodeRoutes)
    (hall : ∀ cidr ∈ nonBlank (tunRoutes config env), addable destination env.tunFailure cidr) :
    ∃ ps, (ps.map Prod.fst = dests destination (nonBlank (tunRoutes config env) ++
        pinned destination env nodeRoutes)) ∧
      setupManagedTunRoutes destination config env (before table record) =
        let s := withAdditions (cleanupTunRoutes destination (before table record)) ps
        match env.write with
        | .error e => (.error e, s)
        | .ok _ => (.ok (), { s with
            record := some (nonBlank (tunRoutes config env) ++
              pinned destination env nodeRoutes) }) := by
  have ht := addTunRoutes_of_all destination env.tunFailure
    ["-interface".toList, env.tunName] (cleanupTunRoutes destination (before table record))
    (tunRoutes config env) [] hall
  obtain ⟨target, -, hp⟩ := pinNodeRoutes_eq destination env nodeRoutes
    (nonBlank (tunRoutes config env)) (withAdditions
      (cleanupTunRoutes destination (before table record))
      (additions destination ["-interface".toList, env.tunName] (nonBlank (tunRoutes config env))))
  refine ⟨additions destination ["-interface".toList, env.tunName]
      (nonBlank (tunRoutes config env)) ++
    additions destination target (pinned destination env nodeRoutes), ?_, ?_⟩
  · rw [List.map_append, additions_fst, additions_fst]
    unfold dests
    rw [List.filterMap_append]
  · unfold setupManagedTunRoutes
    cases hr : env.resolvers with
    | error e' => simp [hr, Except.isOk, Except.toBool] at hres
    | ok v =>
      cases env.write with
      | error e =>
        simp only [hs, not_true_eq_false, if_false, hnode, ht, List.nil_append, hp,
          withAdditions_append]
      | ok w =>
        simp only [hs, not_true_eq_false, if_false, hnode, ht, List.nil_append, hp,
          withAdditions_append]

private theorem undone_rolled_back {ps : List (δ × List Text)} {cidrs : List Text}
    (hps : ps.map Prod.fst = dests destination cidrs) :
    Undone destination table (deleteRoutes destination
      (withAdditions (cleanupTunRoutes destination (before table record)) ps) cidrs) ↔
    (∀ d ∈ dests destination (record.getD []), table d = none) ∧
      ∀ d ∈ dests destination cidrs, table d = none := by
  obtain ⟨ht, hr, hd⟩ := cleanup_before destination table record
  have hrec : (deleteRoutes destination (withAdditions
      (cleanupTunRoutes destination (before table record)) ps) cidrs).record = none :=
    (deleteRoutes_record destination _ cidrs).trans hr
  unfold Undone
  rw [cleanup_of_no_record destination hrec, ← List.forall_mem_append]
  refine undone_iff_absent ?_ ?_
  · rw [deleteRoutes_table]
    unfold withAdditions
    rw [← hps, eraseAll_insertAll, ht, eraseAll_eraseAll]
  · intro d hdd
    rw [deleteRoutes_deleted] at hdd
    obtain hdd | ⟨hdd, -⟩ := hdd
    · exact List.mem_append_left _ ((hd d).mp hdd).1
    · exact List.mem_append_right _ hdd

private theorem undone_written {ps : List (δ × List Text)} {cidrs : List Text}
    (hps : ps.map Prod.fst = dests destination cidrs) :
    Undone destination table
      { withAdditions (cleanupTunRoutes destination (before table record)) ps with
        record := some cidrs } ↔
    (∀ d ∈ dests destination (record.getD []), table d = none) ∧
      ∀ d ∈ dests destination cidrs, table d = none := by
  obtain ⟨ht, hr, hd⟩ := cleanup_before destination table record
  unfold Undone
  rw [← List.forall_mem_append]
  refine undone_iff_absent ?_ ?_
  · refine (deleteRoutes_table destination _ cidrs).trans ?_
    unfold withAdditions
    rw [← hps, eraseAll_insertAll, ht, eraseAll_eraseAll]
  · intro d hdd
    obtain hdd | ⟨hdd, -⟩ := (deleteRoutes_deleted destination _ cidrs d).mp hdd
    · exact List.mem_append_left _ ((hd d).mp hdd).1
    · exact List.mem_append_right _ hdd

private theorem undone_unwritten {ps : List (δ × List Text)} {cidrs : List Text}
    (hps : ps.map Prod.fst = dests destination cidrs) :
    Undone destination table
      (withAdditions (cleanupTunRoutes destination (before table record)) ps) ↔
    (∀ d ∈ dests destination (record.getD []), table d = none) ∧
      ∀ d ∈ dests destination cidrs, table d ≠ none := by
  obtain ⟨ht, hr, hd⟩ := cleanup_before destination table record
  have hrec : (withAdditions (cleanupTunRoutes destination (before table record)) ps).record =
      none := hr
  unfold Undone
  rw [cleanup_of_no_record destination hrec, ← hps]
  refine undone_iff_present ?_ hd
  unfold withAdditions
  rw [ht]

/-- Setup and cleanup leave the routing table as it was, and delete no route of it, exactly
under `Undoable`. -/
theorem routesUndone_iff (config : RouteConfig) (env : RouteEnv)
    (table : δ → Option (List Text)) (record : Option (List Text)) :
    RoutesUndone destination config env table record ↔
      Undoable destination config env table record := by
  change Undone destination table (setupManagedTunRoutes destination config env
    (before table record)).2 ↔ _
  unfold Undoable
  by_cases hs : config.setupRoutes
  · by_cases hres : env.resolvers.isOk
    · cases hnode : nodeRouteCidrs env with
      | error e =>
        have hset : (setupManagedTunRoutes destination config env (before table record)).2 =
            cleanupTunRoutes destination (before table record) := by
          unfold setupManagedTunRoutes
          cases env.resolvers <;> simp [hs, hnode]
        rw [hset, undone_cleaned]
        simp
      | ok nodeRoutes =>
        simp only [hs, hres, forall_true_left, Except.ok.injEq, forall_eq']
        by_cases hall : ∀ cidr ∈ nonBlank (tunRoutes config env),
            addable destination env.tunFailure cidr
        · obtain ⟨ps, hps, hset⟩ := setup_added destination table record
            hs hres hnode hall
          rw [hset, if_pos hall]
          cases hw : env.write with
          | error e => exact undone_unwritten destination hps
          | ok v => exact undone_written destination hps
        · obtain ⟨e, ps, hps, hset⟩ := setup_rolled_back destination table record
            hs hres hnode hall
          rw [hset, if_neg hall]
          exact undone_rolled_back destination hps
    · have hset : (setupManagedTunRoutes destination config env (before table record)).2 =
          cleanupTunRoutes destination (before table record) := by
        unfold setupManagedTunRoutes
        cases hr : env.resolvers with
        | error e => simp [hs]
        | ok v => simp [hr, Except.isOk, Except.toBool] at hres
      rw [hset, undone_cleaned]
      simp [hres]
  · have hset : (setupManagedTunRoutes destination config env (before table record)).2 =
        before table record := by
      unfold setupManagedTunRoutes
      simp [hs]
    obtain ⟨ht, -, hd⟩ := cleanup_before destination table record
    rw [hset]
    refine (undone_iff_absent ht fun d hdd => ((hd d).mp hdd).1).trans ?_
    simp [hs]

end Undone

section Examples

private def lan : List Text := ["-net".toList, "10.0.0.0/8".toList]

private def lanConfig : RouteConfig where
  setupRoutes := true
  managedRouteCidrs := ["10.0.0.0/8".toList]
  dnsAddr := []

private def quietEnv (write : Except AtrError Unit) : RouteEnv where
  tunName := "utun5".toList
  fakeDns := false
  resolvers := .ok ()
  dnsGateway := .ok "192.168.1.1".toList
  endpoints := .ok []
  lookup _ := []
  gateway := .ok "192.168.1.1".toList
  tunFailure _ := none
  nodeFailure _ := none
  write := write

/-- A route that was there before is recorded as installed and deleted by the cleanup; and a
route that was added survives the cleanup where the record could not be written. -/
theorem routes_not_undone :
    ¬ RoutesUndone some lanConfig (quietEnv (.ok ()))
      (fun d => if d = lan then some ["192.168.1.1".toList] else none) none ∧
    ¬ RoutesUndone some lanConfig (quietEnv (.error (.networkFailed "disk full".toList)))
      (fun _ => none) none := by
  constructor
  · rintro ⟨h, -⟩
    have hlan := congrFun h lan
    revert hlan
    decide
  · rintro ⟨h, -⟩
    have hlan := congrFun h lan
    revert hlan
    decide

end Examples

end NulConnect.Macos
