import NulConnect.Macos.RouteUndo
import NulConnect.Net.AddrText
import NulConnect.Net.SortDedup
import NulConnect.Routing.Lookup

/-! When the node routes of `setup_managed_tun_routes` keep the gateway nodes out of the tunnel. -/
namespace NulConnect.Macos
open Net Routing Transition.Table

section Texts

variable {s t : Text}

theorem trim_eq_self (h : ∀ c ∈ s, ¬ isWhitespace c) : trim s = s := by
  unfold trim trimMatches
  have hdrop : s.dropWhile isWhitespace = s := by
    rw [List.dropWhile_eq_self_iff]
    intro hl
    exact h _ (List.getElem_mem hl)
  rw [hdrop, List.rdropWhile_eq_self_iff]
  intro hne
  exact h _ (List.getLast_mem hne)

theorem splitOnce_append {c : Char} (h : c ∉ s) : splitOnce c (s ++ c :: t) = some (s, t) := by
  induction s with
  | nil => simp [splitOnce]
  | cons x s ih =>
    obtain ⟨hx, hs⟩ := List.ne_and_not_mem_of_not_mem_cons h
    rw [List.cons_append, splitOnce, if_neg hx.symm, ih hs]
    rfl

theorem not_isWhitespace_of_isDigit {c : Char} (h : c.isDigit) : ¬ isWhitespace c := by
  simp only [Char.isDigit, Bool.and_eq_true, decide_eq_true_eq, UInt32.le_iff_toNat_le] at h
  have hlo : 48 ≤ c.toNat := h.1
  have hhi : c.toNat ≤ 57 := h.2
  simp only [isWhitespace, Bool.or_eq_true, Bool.and_eq_true, decide_eq_true_eq, beq_iff_eq]
  omega

/-- The route text of a single address is a host route. -/
theorem normalizeRouteCidr_toText (ip : Ipv4Addr) :
    normalizeRouteCidr (ip.toText ++ "/32".toList) = .ok ["-host".toList, ip.toText] := by
  have hlen : ∀ c ∈ "/32".toList, ¬ isWhitespace c := by
    have hall : "/32".toList.all (fun c => ¬ isWhitespace c) = true := by decide
    simpa using hall
  have hwhite : ∀ c ∈ ip.toText ++ "/32".toList, ¬ isWhitespace c := by
    intro c hc
    obtain hc | hc := List.mem_append.mp hc
    · obtain hd | rfl := isDigit_or_dot_of_mem_toText hc
      · exact not_isWhitespace_of_isDigit hd
      · decide
    · exact hlen c hc
  have hslash : '/' ∉ ip.toText := by
    intro hc
    obtain hd | hd := isDigit_or_dot_of_mem_toText hc
    · revert hd
      decide
    · revert hd
      decide
  have hsplit : splitOnce '/' (ip.toText ++ "/32".toList) = some (ip.toText, "32".toList) :=
    splitOnce_append hslash
  unfold normalizeRouteCidr
  simp only [trim_eq_self hwhite, hsplit, if_true]

theorem normalizeRouteCidr_of_blank {cidr : Text} (h : trim cidr = []) :
    ∃ e, normalizeRouteCidr cidr = .error e := by
  unfold normalizeRouteCidr
  rw [h]
  exact ⟨_, rfl⟩

end Texts

/-- The IPv4 addresses of the gateway nodes, each of which the resource names with its port. -/
def nodeAddresses (env : RouteEnv) : List Ipv4Addr :=
  match env.endpoints with
  | .error _ => []
  | .ok endpoints => (endpoints.filterMap endpointHost).flatMap (resolveEndpointIpv4s env.lookup)

/-- The texts of the managed routes, of the fake address range and of the resolver. -/
def managedTexts (config : RouteConfig) (env : RouteEnv) : List Text :=
  config.managedRouteCidrs ++ (if env.fakeDns then [fakeIpCidr] else []) ++
    if shouldRouteDnsViaTun env.dnsGateway config.dnsAddr then
      [trim config.dnsAddr ++ "/32".toList]
    else []

/-- No route into the tunnel is selected for the address. A table has one route for each
destination: the one that was there first. -/
def Direct (tunName : Text) (table : Network 32 → Option (List Text)) (ip : Ipv4Addr) : Prop :=
  ∀ route : Network 32 × List Text, Selected (fun r a => r.1.Covers a) (fun r => r.1.length) Eq
    {r | table r.1 = some r.2} ip route → route.2 ≠ ["-interface".toList, tunName]

variable (destination : List Text → Option (Network 32))

/-- The setup went through: every addition it attempted was reported as successful, and there is
a default gateway. -/
structure Installed (config : RouteConfig) (env : RouteEnv) (nodeRoutes : List Text) : Prop where
  setup_routes : config.setupRoutes
  resolvers : env.resolvers = .ok ()
  node_routes : nodeRouteCidrs env = .ok nodeRoutes
  gateway : ∃ gateway, env.gateway = .ok gateway
  tun_added : ∀ cidr ∈ nonBlank (tunRoutes config env), addable destination env.tunFailure cidr
  node_added : ∀ cidr ∈ nodeRoutes, addable destination env.nodeFailure cidr

/-- What the table has for the address alone once the routes on record are deleted is not a
route into the tunnel, and where it has none, no managed route text names the address alone. -/
def PinFree (config : RouteConfig) (env : RouteEnv) (s : RouteState (Network 32))
    (ip : Ipv4Addr) : Prop :=
  let found := eraseAll s.table (dests destination (s.record.getD [])) (.host ip)
  found ≠ some ["-interface".toList, env.tunName] ∧
    (found = none → ∀ cidr ∈ managedTexts config env, destOf destination cidr ≠ some (.host ip))

section Table

variable {δ : Type*} [DecidableEq δ] {table : δ → Option (List Text)} {d : δ}

/-- What was there stays, and what was not there gets the target of the additions. -/
theorem insertAll_additions (dest : List Text → Option δ) (target : List Text)
    (cidrs : List Text) : insertAll table (additions dest target cidrs) d =
      if table d = none ∧ d ∈ dests dest cidrs then some target else table d := by
  unfold additions
  exact insertAll_const

end Table

section Pins

variable {destination} {config : RouteConfig} {env : RouteEnv} {nodeRoutes : List Text}
  {ip : Ipv4Addr}

theorem mem_dests {cidrs : List Text} {d : Network 32} :
    d ∈ dests destination cidrs ↔ ∃ cidr ∈ cidrs, destOf destination cidr = some d :=
  List.mem_filterMap

theorem mem_dests_tunRoutes {d : Network 32} :
    d ∈ dests destination (nonBlank (tunRoutes config env)) ↔
      ∃ cidr ∈ managedTexts config env, destOf destination cidr = some d := by
  have hmem : ∀ cidr, cidr ∈ tunRoutes config env ↔ cidr ∈ managedTexts config env :=
    fun cidr => mem_sortDedup
  rw [mem_dests]
  unfold nonBlank
  simp only [List.mem_filter, decide_eq_true_eq, hmem]
  constructor
  · rintro ⟨cidr, ⟨hc, -⟩, hd⟩
    exact ⟨cidr, hc, hd⟩
  · rintro ⟨cidr, hc, hd⟩
    refine ⟨cidr, ⟨hc, fun hblank => ?_⟩, hd⟩
    obtain ⟨e, he⟩ := normalizeRouteCidr_of_blank hblank
    unfold destOf at hd
    rw [he] at hd
    cases hd

theorem destOf_toText (hdest : destination ["-host".toList, ip.toText] = some (.host ip)) :
    destOf destination (ip.toText ++ "/32".toList) = some (.host ip) := by
  unfold destOf
  rw [normalizeRouteCidr_toText]
  exact hdest

theorem mem_nodeRoutes (h : nodeRouteCidrs env = .ok nodeRoutes)
    (hip : ip ∈ nodeAddresses env) : ip.toText ++ "/32".toList ∈ nodeRoutes := by
  unfold nodeRouteCidrs at h
  unfold nodeAddresses at hip
  cases hend : env.endpoints with
  | error e =>
    rw [hend] at hip
    cases hip
  | ok endpoints =>
    rw [hend] at h hip
    cases h
    obtain ⟨host, hhost, hip⟩ := List.mem_flatMap.mp hip
    exact mem_sortDedup.mpr
      (List.mem_flatMap.mpr ⟨host, hhost, List.mem_map.mpr ⟨ip, hip, rfl⟩⟩)

/-- The table after the setup: first come the routes into the tunnel, then the node routes. -/
theorem Installed.table_eq (h : Installed destination config env nodeRoutes)
    (hne : nodeRoutes ≠ []) (s : RouteState (Network 32)) :
    ∃ gateway, (setupManagedTunRoutes destination config env s).2.table =
      insertAll (insertAll (eraseAll s.table (dests destination (s.record.getD [])))
        (additions destination ["-interface".toList, env.tunName]
          (nonBlank (tunRoutes config env))))
        (additions destination [gateway] nodeRoutes) := by
  obtain ⟨gateway, hg⟩ := h.gateway
  refine ⟨gateway, ?_⟩
  have htun := addTunRoutes_of_all destination env.tunFailure
    ["-interface".toList, env.tunName] (cleanupTunRoutes destination s) (tunRoutes config env) []
    h.tun_added
  have hfilter : nodeRoutes.filter (addable destination env.nodeFailure) = nodeRoutes :=
    List.filter_eq_self.mpr h.node_added
  have hclean : (cleanupTunRoutes destination s).table =
      eraseAll s.table (dests destination (s.record.getD [])) := deleteRoutes_table destination s _
  unfold setupManagedTunRoutes pinNodeRoutes
  simp only [h.setup_routes, not_true_eq_false, if_false, h.resolvers, h.node_routes, htun, hne, hg,
    addNodeRoutes_eq, hfilter]
  rw [← hclean]
  cases env.write with
  | error e => rfl
  | ok v => rfl

/-- A route for the address alone is the one selected. -/
theorem direct_iff_of_host {tunName : Text} {table : Network 32 → Option (List Text)}
    {target : List Text} (h : table (.host ip) = some target) :
    Direct tunName table ip ↔ target ≠ ["-interface".toList, tunName] := by
  have hsel : ∀ r ∈ {r : Network 32 × List Text | table r.1 = some r.2}, r.1.Covers ip →
      r.1.length < 32 ∨ r = (.host ip, target) := by
    rintro ⟨n, x⟩ hr hcover
    obtain hlt | heq := n.le.lt_or_eq
    · exact .inl hlt
    · have hn : n = .host ip := Network.eq_of_covers hcover Network.host_covers heq
      subst hn
      have hx : some x = some target := hr.symm.trans h
      cases hx
      exact .inr rfl
  constructor
  · intro hd
    refine hd (.host ip, target) ⟨h, Network.host_covers, fun r hr hcover => ?_⟩
    obtain hlt | rfl := hsel r hr hcover
    · exact .inl hlt
    · exact .inr ⟨rfl, rfl⟩
  · rintro hne r ⟨hr, hcover, hbest⟩
    obtain hlt | rfl := hsel r hr hcover
    · obtain hlt' | ⟨-, heq⟩ := hbest (.host ip, target) h Network.host_covers
      · have : (Network.host ip).length = 32 := rfl
        dsimp only at hlt'
        omega
      · rw [heq]
        exact hne
    · exact hne

/-- After the setup no route into the tunnel is selected for the address of a node exactly if
its host route was free for it. -/
theorem Installed.direct_iff (h : Installed destination config env nodeRoutes)
    (s : RouteState (Network 32)) (hip : ip ∈ nodeAddresses env)
    (hdest : destination ["-host".toList, ip.toText] = some (.host ip)) :
    Direct env.tunName (setupManagedTunRoutes destination config env s).2.table ip ↔
      PinFree destination config env s ip := by
  have hnode := mem_nodeRoutes h.node_routes hip
  obtain ⟨gateway, htable⟩ := h.table_eq (List.ne_nil_of_mem hnode) s
  have hpin : Network.host ip ∈ dests destination nodeRoutes :=
    mem_dests.mpr ⟨_, hnode, destOf_toText hdest⟩
  have hval := congrFun htable (.host ip)
  rw [insertAll_additions, insertAll_additions] at hval
  unfold PinFree
  cases hfound : eraseAll s.table (dests destination (s.record.getD [])) (.host ip) with
  | some target =>
    have hsome : (setupManagedTunRoutes destination config env s).2.table (.host ip) =
        some target := by simpa [hfound] using hval
    rw [direct_iff_of_host hsome]
    simp
  | none =>
    by_cases hm : Network.host ip ∈ dests destination (nonBlank (tunRoutes config env))
    · have hsome : (setupManagedTunRoutes destination config env s).2.table (.host ip) =
          some ["-interface".toList, env.tunName] := by simpa [hfound, hm] using hval
      obtain ⟨cidr, hc, hd⟩ := mem_dests_tunRoutes.mp hm
      rw [direct_iff_of_host hsome]
      constructor
      · exact fun hne => absurd rfl hne
      · rintro ⟨-, hfree⟩
        exact absurd hd (hfree rfl cidr hc)
    · have hsome : (setupManagedTunRoutes destination config env s).2.table (.host ip) =
          some [gateway] := by simpa [hfound, hm, hpin] using hval
      have hfree : ∀ cidr ∈ managedTexts config env,
          destOf destination cidr ≠ some (.host ip) := fun cidr hc hd =>
        hm (mem_dests_tunRoutes.mpr ⟨cidr, hc, hd⟩)
      rw [direct_iff_of_host hsome]
      constructor
      · exact fun _ => ⟨Option.some_ne_none _ |>.symm, fun _ => hfree⟩
      · intro _
        simp

end Pins

end NulConnect.Macos
