import NulConnect.FakeDns.PoolRuns
import NulConnect.FakeDns.Wire

/-! How long an address that was answered goes on standing for its name, against the lifetime of
the answer. -/
namespace NulConnect.FakeDns
open Net Transition Ring

/-- A query that comes at a time, in nanoseconds. -/
structure TimedQuery extends Action where
  time : ℕ

/-- The query gets an address of the pool. -/
def TimedQuery.Allocates (q : TimedQuery) : Prop :=
  q.question.qclass = classIn ∧ q.policy.isManagedTcpDomain q.question.name ∧
    q.question.qtype = typeA ∧ q.policy.routedStaticIp q.question.name = none

instance (q : TimedQuery) : Decidable q.Allocates := by
  unfold TimedQuery.Allocates
  infer_instance

/-- The pool and its fresh allocations after a query. -/
def served (p : FakeIpPool × Allocations) (q : TimedQuery) : FakeIpPool × Allocations :=
  ((decide q.policy p.1 q.question).2,
    if q.Allocates then p.2.record p.1 q.question.name else p.2)

def servedAll (p : FakeIpPool × Allocations) (queries : List TimedQuery) :
    FakeIpPool × Allocations :=
  queries.foldl served p

/-- The queries that come while the answer to `q` may be cached. -/
def TimedQuery.lifetime (q : TimedQuery) (rest : List TimedQuery) : List TimedQuery :=
  rest.takeWhile fun r => r.time ≤ q.time + answerTtlSecs.toNat * 10 ^ 9

/-- The server answers `q` with an address of the pool. -/
def TimedQuery.AnsweredFromPool (q : TimedQuery) (pool : FakeIpPool) (ip : Ipv4Addr) : Prop :=
  q.policy.routedStaticIp q.question.name = none ∧
    (decide q.policy pool q.question).1 = .answer [ip]

/-- Fewer distinct names are queried during the lifetime of the answer than the pool has
addresses. -/
def FewNames (q : TimedQuery) (rest : List TimedQuery) : Prop :=
  ((q :: q.lifetime rest).map fun r => r.question.name).toFinset.card < fakePoolSize

/-- An address answered after the queries `past` stands for its name at every time of its
lifetime, where only few names are queried. -/
def NotReassigned (past : List TimedQuery) (q : TimedQuery) (rest : List TimedQuery) : Prop :=
  let before := servedAll (.empty, []) past
  ∀ ip, q.AnsweredFromPool before.1 ip → FewNames q rest →
    ∀ later, later <+: q.lifetime rest →
      (servedAll (served before q) later).1.domainFor ip = some (normalize q.question.name)

/-- The names that were given a mapping, the last one first: a name is given a new one where it is
not among the last ones, as many as the pool has addresses. -/
def mapped (names : List Text) (q : TimedQuery) : List Text :=
  if q.Allocates ∧ normalize q.question.name ∉ names.take fakePoolSize then
    normalize q.question.name :: names
  else names

def mappedAll (names : List Text) (queries : List TimedQuery) : List Text :=
  queries.foldl mapped names

/-- Since the mapping of the name was made, fewer mappings have been made by the end of the
lifetime than the pool has addresses. -/
def Spared (past : List TimedQuery) (q : TimedQuery) (rest : List TimedQuery) : Prop :=
  let after := mapped (mappedAll [] past) q
  q.Allocates → FewNames q rest →
    after.idxOf (normalize q.question.name) +
      ((mappedAll after (q.lifetime rest)).length - after.length) < fakePoolSize

section Served

variable {p : FakeIpPool × Allocations} {q : TimedQuery}

theorem decide_allocates (h : q.Allocates) :
    decide q.policy p.1 q.question =
      (.answer [(p.1.allocate q.question.name).1], (p.1.allocate q.question.name).2) := by
  obtain ⟨hclass, hmanaged, htype, hstatic⟩ := h
  simp [decide, hclass, hmanaged, htype, hstatic]

theorem decide_pool (h : ¬ q.Allocates) : (decide q.policy p.1 q.question).2 = p.1 := by
  unfold decide
  split_ifs with hout htype
  · rfl
  · cases hstatic : q.policy.routedStaticIp q.question.name with
    | some ip => rfl
    | none =>
      push Not at hout
      exact absurd ⟨hout.1, hout.2, htype, hstatic⟩ h
  · rfl

theorem TimedQuery.AnsweredFromPool.allocates {pool : FakeIpPool} {ip : Ipv4Addr}
    (h : q.AnsweredFromPool pool ip) : q.Allocates ∧ ip = (pool.allocate q.question.name).1 := by
  obtain ⟨hstatic, hanswer⟩ := h
  have hall : q.Allocates := by
    unfold decide at hanswer
    split_ifs at hanswer with hout htype
    push Not at hout
    exact ⟨hout.1, hout.2, htype, hstatic⟩
  rw [decide_allocates (p := (pool, [])) hall] at hanswer
  exact ⟨hall, by simpa using hanswer.symm⟩

theorem answeredFromPool_of_allocates (p : FakeIpPool × Allocations) (h : q.Allocates) :
    q.AnsweredFromPool p.1 (p.1.allocate q.question.name).1 := by
  refine ⟨h.2.2.2, ?_⟩
  rw [decide_allocates h]

theorem served_of_not_allocates (h : ¬ q.Allocates) : served p q = p := by
  rw [served, if_neg h, decide_pool h]

theorem served_of_allocates (h : q.Allocates) : served p q =
    ((p.1.allocate q.question.name).2, p.2.record p.1 q.question.name) := by
  rw [served, if_pos h, decide_allocates h]

/-- A query adds at most one allocation. -/
theorem served_history (p : FakeIpPool × Allocations) (q : TimedQuery) :
    (served p q).2 = p.2 ∨ ∃ entry, (served p q).2 = entry :: p.2 := by
  by_cases h : q.Allocates
  · rw [served_of_allocates h]
    unfold Allocations.record
    split_ifs
    · exact Or.inr ⟨_, rfl⟩
    · exact Or.inl rfl
  · rw [served_of_not_allocates h]
    exact Or.inl rfl

theorem inOrder_served (h : p.1.InOrder p.2) (q : TimedQuery) :
    (served p q).1.InOrder (served p q).2 := by
  by_cases ha : q.Allocates
  · rw [served_of_allocates ha]
    exact h.allocate q.question.name
  · rw [served_of_not_allocates ha]
    exact h

theorem inOrder_servedAll (h : p.1.InOrder p.2) (queries : List TimedQuery) :
    (servedAll p queries).1.InOrder (servedAll p queries).2 := by
  induction queries generalizing p with
  | nil => exact h
  | cons q queries ih => exact ih (inOrder_served h q)

/-- The history grows at its head. -/
theorem servedAll_history (p : FakeIpPool × Allocations) (queries : List TimedQuery) :
    p.2 <:+ (servedAll p queries).2 := by
  induction queries generalizing p with
  | nil => exact List.suffix_refl _
  | cons q queries ih =>
    have hq : p.2 <:+ (served p q).2 := by
      rcases served_history p q with hsame | ⟨entry, hentry⟩
      · rw [hsame]
      · rw [hentry]
        exact List.suffix_cons _ _
    exact hq.trans (ih (served p q))

/-- Among the beginnings of a list of queries there is one with every number of allocations up to
that of the whole. -/
theorem exists_prefix_allocating (p : FakeIpPool × Allocations) (queries : List TimedQuery) {n : ℕ}
    (hlow : p.2.length ≤ n) (hhigh : n ≤ (servedAll p queries).2.length) :
    ∃ later, later <+: queries ∧ (servedAll p later).2.length = n := by
  induction queries generalizing p with
  | nil => exact ⟨[], List.prefix_refl _, le_antisymm hlow hhigh⟩
  | cons q queries ih =>
    by_cases hn : p.2.length = n
    · exact ⟨[], List.nil_prefix, hn⟩
    · have hstep : (served p q).2.length ≤ n := by
        rcases served_history p q with hsame | ⟨entry, hentry⟩
        · rw [hsame]
          exact hlow
        · rw [hentry, List.length_cons]
          omega
      obtain ⟨later, hpre, hlen⟩ := ih (served p q) hstep hhigh
      exact ⟨q :: later, List.cons_prefix_cons.mpr ⟨rfl, hpre⟩, hlen⟩

end Served

section Place

variable {p : FakeIpPool × Allocations} {q : TimedQuery} {domain : Text} {ip : Ipv4Addr} {a : ℕ}

/-- How many allocations have followed that of a name. -/
theorem idxOf_of_entry (h : p.1.InOrder p.2) (ha : a < fakePoolSize)
    (hentry : (p.2.map Prod.fst)[a]? = some domain) : (p.2.map Prod.fst).idxOf domain = a := by
  set names := p.2.map Prod.fst with hnames
  have hlt : a < names.length := (List.getElem?_eq_some_iff.mp hentry).choose
  have hget : names[a] = domain := (List.getElem?_eq_some_iff.mp hentry).choose_spec
  have htake : a < (names.take (fakePoolSize + 1)).length := by
    rw [List.length_take]
    omega
  have hat : (names.take (fakePoolSize + 1))[a] = domain := by
    rw [List.getElem_take]
    exact hget
  have hidx := h.distinct.idxOf_getElem a htake
  rw [hat] at hidx
  have hmem : domain ∈ names.take (fakePoolSize + 1) := hat ▸ List.getElem_mem htake
  calc names.idxOf domain
      = (names.take (fakePoolSize + 1) ++ names.drop (fakePoolSize + 1)).idxOf domain := by
        rw [List.take_append_drop]
    _ = (names.take (fakePoolSize + 1)).idxOf domain := List.idxOf_append_of_mem hmem
    _ = a := hidx

/-- An address that is answered is that of the name's entry in the history. -/
theorem entry_of_answered (h : p.1.InOrder p.2) (ha : q.Allocates) :
    ∃ a < fakePoolSize, (served p q).2[a]? =
      some (normalize q.question.name, (p.1.allocate q.question.name).1) := by
  rw [served_of_allocates ha]
  unfold Allocations.record
  split_ifs with hd
  · exact ⟨0, by decide, rfl⟩
  · obtain ⟨slot, hslot⟩ := Option.ne_none_iff_exists'.mp hd
    obtain ⟨a, halt, hof, hname⟩ := h.entry_of_live hslot
    rw [List.getElem?_map, Option.map_eq_some_iff] at hname
    obtain ⟨⟨name, ip⟩, hentry, hname⟩ := hname
    have hip : ip = slotIp (slotOf fakePoolSize p.1.next a) := h.address a _ halt hentry
    have hn : name = normalize q.question.name := hname
    refine ⟨a, halt, ?_⟩
    rw [FakeIpPool.allocate_known hslot, hentry, hn, hip, hof]

/-- An entry is found so much further back as the history has grown. -/
theorem entry_servedAll {entry : Text × Ipv4Addr} (hentry : p.2[a]? = some entry)
    (queries : List TimedQuery) :
    (servedAll p queries).2[a + ((servedAll p queries).2.length - p.2.length)]? = some entry := by
  obtain ⟨new, hnew⟩ := servedAll_history p queries
  rw [← hnew, List.length_append, Nat.add_sub_cancel, Nat.add_comm, List.getElem?_append_right
    (Nat.le_add_right _ _), Nat.add_sub_cancel_left]
  exact hentry

theorem length_servedAll_mono (p : FakeIpPool × Allocations) {later queries : List TimedQuery}
    (h : later <+: queries) :
    (servedAll p later).2.length ≤ (servedAll p queries).2.length := by
  obtain ⟨more, rfl⟩ := h
  have happ : servedAll p (later ++ more) = servedAll (servedAll p later) more := List.foldl_append
  rw [happ]
  exact (servedAll_history _ _).length_le

/-- The names of the history are decided by the queries alone. -/
theorem names_served (h : p.1.InOrder p.2) (q : TimedQuery) :
    (served p q).2.map Prod.fst = mapped (p.2.map Prod.fst) q := by
  by_cases ha : q.Allocates
  · have hlive : p.1.byDomain (normalize q.question.name) = none ↔
        normalize q.question.name ∉ (p.2.map Prod.fst).take fakePoolSize := by
      constructor
      · exact h.not_recent_of_fresh
      · intro hnot
        by_contra hd
        obtain ⟨slot, hslot⟩ := Option.ne_none_iff_exists'.mp hd
        obtain ⟨a, halt, -, hentry⟩ := h.entry_of_live hslot
        rw [← List.getElem?_take_of_lt halt] at hentry
        exact hnot (List.mem_of_getElem? hentry)
    rw [served_of_allocates ha, mapped]
    show (p.2.record p.1 q.question.name).map Prod.fst = _
    rw [Allocations.record]
    by_cases hd : p.1.byDomain (normalize q.question.name) = none
    · rw [if_pos hd, if_pos ⟨ha, hlive.mp hd⟩]
      rfl
    · rw [if_neg hd, if_neg fun hboth => hd (hlive.mpr hboth.2)]
  · rw [served_of_not_allocates ha, mapped, if_neg fun hboth => ha hboth.1]

theorem names_servedAll (h : p.1.InOrder p.2) (queries : List TimedQuery) :
    (servedAll p queries).2.map Prod.fst = mappedAll (p.2.map Prod.fst) queries := by
  induction queries generalizing p with
  | nil => rfl
  | cons q queries ih =>
    have htail := ih (inOrder_served h q)
    rw [names_served h q] at htail
    exact htail

/-- An evicted name has lost its address. -/
theorem domainFor_ne_of_evicted (h : p.1.InOrder p.2)
    (hentry : p.2[fakePoolSize]? = some (domain, ip)) : p.1.domainFor ip ≠ some domain := by
  have hgone := h.evicted hentry
  intro hip
  unfold FakeIpPool.domainFor at hip
  split_ifs at hip
  rw [(h.valid.inverse _ _).mpr hip] at hgone
  cases hgone

end Place

/-- What the address of an answer comes to, in the place of its name in the history. -/
theorem kept_iff {p : FakeIpPool × Allocations} {q : TimedQuery} (hp : p.1.InOrder p.2)
    (hq : q.Allocates) (queries : List TimedQuery) :
    (∀ later, later <+: queries → (servedAll (served p q) later).1.domainFor
      (p.1.allocate q.question.name).1 = some (normalize q.question.name)) ↔
    ((served p q).2.map Prod.fst).idxOf (normalize q.question.name) +
      ((servedAll (served p q) queries).2.length - (served p q).2.length) < fakePoolSize := by
  have hafter := inOrder_served hp q
  obtain ⟨a, ha, hentry⟩ := entry_of_answered hp hq
  set after := served p q
  have hidx : (after.2.map Prod.fst).idxOf (normalize q.question.name) = a := by
    apply idxOf_of_entry hafter ha
    rw [List.getElem?_map, hentry]
    rfl
  rw [hidx]
  constructor
  · intro hall
    by_contra hover
    -- At some time of the interval just as many mappings have been made as there are addresses.
    obtain ⟨later, hpre, hlen⟩ := exists_prefix_allocating after queries
      (n := after.2.length + (fakePoolSize - a)) (by omega) (by omega)
    have hpool := inOrder_servedAll hafter later
    have hlast := entry_servedAll hentry later
    rw [hlen, Nat.add_sub_cancel_left, Nat.add_sub_cancel' ha.le] at hlast
    exact domainFor_ne_of_evicted hpool hlast (hall later hpre)
  · intro hfew later hpre
    have hpool := inOrder_servedAll hafter later
    have hgrown := length_servedAll_mono after hpre
    have hplace : a + ((servedAll after later).2.length - after.2.length) < fakePoolSize := by omega
    exact (hpool.survives hplace (entry_servedAll hentry later)).1

/-- The same after a history of queries, in the names of the queries alone. -/
theorem kept_iff_names (past rest : List TimedQuery) {q : TimedQuery} (hq : q.Allocates) :
    (∀ later, later <+: q.lifetime rest →
      (servedAll (served (servedAll (.empty, []) past) q) later).1.domainFor
        ((servedAll (.empty, []) past).1.allocate q.question.name).1 =
          some (normalize q.question.name)) ↔
    (mapped (mappedAll [] past) q).idxOf (normalize q.question.name) +
      ((mappedAll (mapped (mappedAll [] past) q) (q.lifetime rest)).length -
        (mapped (mappedAll [] past) q).length) < fakePoolSize := by
  have hbefore := inOrder_servedAll (p := (.empty, [])) FakeIpPool.inOrder_empty past
  have hafter := inOrder_served hbefore q
  have hpast : (servedAll (.empty, []) past).2.map Prod.fst = mappedAll [] past :=
    names_servedAll (p := (.empty, [])) FakeIpPool.inOrder_empty past
  have hnames := names_served hbefore q
  have hrest := names_servedAll hafter (q.lifetime rest)
  rw [hpast] at hnames
  rw [hnames] at hrest
  have hlen := congrArg List.length hnames
  have hlenRest := congrArg List.length hrest
  rw [List.length_map] at hlen hlenRest
  have hkept := kept_iff hbefore hq (q.lifetime rest)
  rw [hnames, hlen, hlenRest] at hkept
  exact hkept

theorem spared_of_notReassigned {past : List TimedQuery} {q : TimedQuery} {rest : List TimedQuery}
    (h : NotReassigned past q rest) : Spared past q rest := by
  intro hall hfew
  have hanswer := answeredFromPool_of_allocates (servedAll (.empty, []) past) hall
  exact (kept_iff_names past rest hall).mp (h _ hanswer hfew)

theorem notReassigned_iff_spared (past : List TimedQuery) (q : TimedQuery)
    (rest : List TimedQuery) : NotReassigned past q rest ↔ Spared past q rest := by
  constructor
  · exact spared_of_notReassigned
  · intro hspared ip hanswer hfew
    obtain ⟨hall, hip⟩ := hanswer.allocates
    rw [hip]
    exact (kept_iff_names past rest hall).mpr (hspared hall hfew)

section New

variable {q : TimedQuery}

/-- Names that come after that of `q` are each given one mapping while it stands. -/
theorem mappedAll_new {domain : Text} (old : List Text) {seen : Finset Text}
    (hseen : seen.card < fakePoolSize) :
    ∀ (queries : List TimedQuery) (new : List Text), (new ++ [domain]).Nodup →
      (∀ name ∈ new ++ [domain], name ∈ seen) →
      (∀ r ∈ queries, normalize r.question.name ∈ seen) →
      ∃ more, mappedAll (new ++ domain :: old) queries = more ++ domain :: old ∧
        more.length < fakePoolSize := by
  intro queries
  induction queries with
  | nil =>
    intro new hnodup hsub _
    refine ⟨new, rfl, ?_⟩
    have hcard : (new ++ [domain]).toFinset.card ≤ seen.card :=
      Finset.card_le_card fun name hname => hsub name (List.mem_toFinset.mp hname)
    rw [List.toFinset_card_of_nodup hnodup, List.length_append, List.length_singleton] at hcard
    omega
  | cons r queries ih =>
    intro new hnodup hsub hqueries
    have hrest : ∀ r ∈ queries, normalize r.question.name ∈ seen := fun r hr =>
      hqueries r (List.mem_cons_of_mem _ hr)
    show ∃ more, mappedAll (mapped (new ++ domain :: old) r) queries = _ ∧ _
    by_cases hgiven : r.Allocates ∧
        normalize r.question.name ∉ (new ++ domain :: old).take fakePoolSize
    · have hshort : (new ++ [domain]).length ≤ fakePoolSize := by
        have hcard : (new ++ [domain]).toFinset.card ≤ seen.card :=
          Finset.card_le_card fun name hname => hsub name (List.mem_toFinset.mp hname)
        rw [List.toFinset_card_of_nodup hnodup] at hcard
        omega
      have hfresh : normalize r.question.name ∉ new ++ [domain] := by
        intro hmem
        have hpre : new ++ [domain] <+: new ++ domain :: old := ⟨old, by simp⟩
        exact hgiven.2 ((List.prefix_take_iff.mpr ⟨hpre, hshort⟩).subset hmem)
      rw [mapped, if_pos hgiven]
      apply ih (normalize r.question.name :: new) _ _ hrest
      · exact List.nodup_cons.mpr ⟨hfresh, hnodup⟩
      · intro name hname
        rcases List.mem_cons.mp hname with rfl | hold
        · exact hqueries r List.mem_cons_self
        · exact hsub name hold
    · rw [mapped, if_neg hgiven]
      exact ih new hnodup hsub hrest

/-- A mapping that is new outlives its answer. -/
theorem spared_of_new (past : List TimedQuery) (rest : List TimedQuery)
    (hnew : normalize q.question.name ∉ (mappedAll [] past).take fakePoolSize) :
    Spared past q rest := by
  intro hall hfew
  set after := mapped (mappedAll [] past) q
  have hafter : after = normalize q.question.name :: mappedAll [] past := if_pos ⟨hall, hnew⟩
  set seen : Finset Text :=
    ((q :: q.lifetime rest).map fun r => r.question.name).toFinset.image normalize with hseen
  have hcard : seen.card < fakePoolSize := lt_of_le_of_lt Finset.card_image_le hfew
  have hmem : ∀ r ∈ q :: q.lifetime rest, normalize r.question.name ∈ seen := fun r hr =>
    Finset.mem_image_of_mem _ (List.mem_toFinset.mpr (List.mem_map_of_mem hr))
  obtain ⟨more, hmore, hlt⟩ := mappedAll_new (mappedAll [] past) hcard (q.lifetime rest) []
    (List.nodup_singleton (normalize q.question.name))
    (fun name hname => List.mem_singleton.mp hname ▸ hmem q List.mem_cons_self)
    (fun r hr => hmem r (List.mem_cons_of_mem _ hr))
  have hlater : mappedAll after (q.lifetime rest) =
      more ++ normalize q.question.name :: mappedAll [] past := by
    rw [hafter]
    exact hmore
  rw [hlater, hafter, List.idxOf_cons_self, List.length_append]
  omega

end New

section Reused

private def nameOf (i : ℕ) : Text := List.replicate (i + 1) 'a'

private def ask (i time : ℕ) : TimedQuery where
  policy := { isManagedTcpDomain := fun _ => true, routedStaticIp := fun _ => none }
  question := { name := nameOf i, qtype := typeA, qclass := classIn }
  time := time

private theorem ask_allocates (i time : ℕ) : (ask i time).Allocates := ⟨rfl, rfl, rfl, rfl⟩

private theorem normalize_nameOf (i : ℕ) : normalize (nameOf i) = nameOf i := by
  have hkeep : (nameOf i).rdropWhile (· == '.') = nameOf i := by
    rw [List.rdropWhile_eq_self_iff]
    intro hne
    have hlast : (nameOf i).getLast hne = 'a' := List.eq_of_mem_replicate (List.getLast_mem hne)
    rw [hlast]
    decide
  rw [normalize, hkeep, nameOf, List.map_replicate]
  rfl

private theorem nameOf_injective {i j : ℕ} (h : nameOf i = nameOf j) : i = j := by
  have hlen := congrArg List.length h
  simpa [nameOf] using hlen

private theorem nameOf_not_mem (n : ℕ) : nameOf n ∉ ((List.range n).map nameOf).reverse := by
  rw [List.mem_reverse, List.mem_map]
  rintro ⟨i, hi, heq⟩
  have hin : i = n := nameOf_injective heq
  rw [hin] at hi
  exact List.not_mem_range_self hi

private theorem mapped_ask_new {names : List Text} {n : ℕ} (time : ℕ) (h : nameOf n ∉ names) :
    mapped names (ask n time) = nameOf n :: names := by
  have hnew : normalize (nameOf n) ∉ names.take fakePoolSize := by
    rw [normalize_nameOf]
    exact fun hmem => h (List.mem_of_mem_take hmem)
  rw [mapped, if_pos ⟨ask_allocates n time, hnew⟩]
  exact congrArg (· :: names) (normalize_nameOf n)

private def firstAsks (n : ℕ) : List TimedQuery := (List.range n).map fun i => ask i i

private theorem mappedAll_firstAsks (n : ℕ) :
    mappedAll [] (firstAsks n) = ((List.range n).map nameOf).reverse := by
  induction n with
  | zero => rfl
  | succ n ih =>
    have hsplit : firstAsks (n + 1) = firstAsks n ++ [ask n n] := by
      rw [firstAsks, List.range_succ, List.map_append]
      rfl
    have hlast : mappedAll [] (firstAsks (n + 1)) =
        mapped (mappedAll [] (firstAsks n)) (ask n n) := by
      rw [hsplit, mappedAll, List.foldl_append]
      rfl
    rw [hlast, ih, mapped_ask_new n (nameOf_not_mem n), List.range_succ, List.map_append,
      List.reverse_append]
    rfl

/-- The oldest of as many names as there are addresses is asked for again, and then a new one. -/
private theorem reassigned_of_size {n : ℕ} (hn : fakePoolSize = n) (hsize : 2 < n) :
    ¬ NotReassigned (firstAsks n) (ask 0 n) [ask n (n + 1)] := by
  intro hnot
  have h := spared_of_notReassigned hnot
  unfold Spared at h
  rw [mappedAll_firstAsks] at h
  set names := ((List.range n).map nameOf).reverse with hnames
  have hlen : names.length = n := by
    rw [hnames, List.length_reverse, List.length_map, List.length_range]
  have hnodup : names.Nodup := by
    rw [hnames, List.nodup_reverse]
    exact List.nodup_range.map fun _ _ => nameOf_injective
  -- The first name is just still there, and is the next to go.
  have hlast : n - 1 < names.length := by omega
  have hfirst : names[n - 1] = nameOf 0 := by
    simp [hnames]
  have hidx : names.idxOf (nameOf 0) = n - 1 := by
    rw [← hfirst]
    exact hnodup.idxOf_getElem _ _
  have hknown : mapped names (ask 0 n) = names := by
    apply if_neg
    rintro ⟨-, hnot⟩
    apply hnot
    have hmem : nameOf 0 ∈ names := hfirst ▸ List.getElem_mem _
    rw [hn, List.take_of_length_le hlen.le]
    show normalize (nameOf 0) ∈ names
    rwa [normalize_nameOf]
  have hlife : (ask 0 n).lifetime [ask n (n + 1)] = [ask n (n + 1)] := by
    apply List.takeWhile_cons_of_pos
    simp [ask, answerTtlSecs]
  have hfew : FewNames (ask 0 n) [ask n (n + 1)] := by
    rw [FewNames, hlife, hn]
    exact lt_of_le_of_lt (List.toFinset_card_le _) hsize
  have hplace := h (ask_allocates 0 n) hfew
  rw [hknown, hlife] at hplace
  have hlater : mappedAll names [ask n (n + 1)] = nameOf n :: names :=
    mapped_ask_new (n + 1) (nameOf_not_mem n)
  have hname : normalize (ask 0 n).question.name = nameOf 0 := normalize_nameOf 0
  rw [hlater, hname, hidx, List.length_cons, hn] at hplace
  omega

theorem reused_mapping_reassigned :
    ¬ NotReassigned (firstAsks fakePoolSize) (ask 0 fakePoolSize)
      [ask fakePoolSize (fakePoolSize + 1)] :=
  reassigned_of_size rfl (by decide)

end Reused

end NulConnect.FakeDns
