import NulConnect.Macos.Config
import NulConnect.Macos.NodeRoutes
import NulConnect.Macos.ResolverOwnership

/-! What a configuration that the helper accepts can put into `/etc/resolver` and among the
arguments of `/sbin/route`. -/
namespace NulConnect.Macos
open Net

/-- The marker, one line with a name server and at most one with a port. -/
def ResolverLines (contents : Text) : Prop :=
  ∃ (address : Text) (ports : List ℕ),
    (∀ c ∈ address, isAddressChar c ∨ c = '%') ∧ ports.length ≤ 1 ∧
    contents.splitOn '\n' = [resolverMarker, "nameserver ".toList ++ address] ++
      ports.map (fun port => "port ".toList ++ Nat.toDigits 10 port) ++ [[]]

/-- An IPv4 address in dotted form, alone or with a prefix length of at most 32. -/
def RouteArg (arg : Text) : Prop :=
  ∃ ip : Ipv4Addr, arg = ip.toText ∨
    ∃ pfx n, arg = ip.toText ++ '/' :: pfx ∧ parseU8 pfx = some n ∧ n ≤ 32

/-- Whatever the state of the machine, the configuration reaches direct children of
`/etc/resolver` only, fills them with the lines of a resolver file, and names addresses to
`/sbin/route`. -/
structure Confined (config : HelperConfig) : Prop where
  names : ∀ env fakeDns (s : ResolverState),
    let after := (s.configureScopedDnsResolvers env config.managedDomains config.dnsAddr fakeDns).2
    (∀ name ∈ after.written, SafeName name) ∧ ∀ name ∈ after.recorded, SafeName name
  contents : ∀ env fakeDns (s : ResolverState),
    let after := (s.configureScopedDnsResolvers env config.managedDomains config.dnsAddr fakeDns).2
    ∀ name ∈ after.written, after.files name =
      (env.write name).leaves (toUtf8 (resolverContents config.dnsAddr fakeDns))
  lines : ∀ fakeDns, ResolverLines (resolverContents config.dnsAddr fakeDns)
  routes : ∀ env, ∀ cidr ∈ tunRoutes config.toRouteConfig env, ∃ flag arg,
    normalizeRouteCidr cidr = .ok [flag, arg] ∧ (flag = "-host".toList ∨ flag = "-net".toList) ∧
      RouteArg arg ∧ arg.head? ≠ some '-'

theorem splitOnce_eq_some {c : Char} {s front rest : Text}
    (h : splitOnce c s = some (front, rest)) : s = front ++ c :: rest := by
  induction s generalizing front with
  | nil => cases h
  | cons x s ih =>
    rw [splitOnce] at h
    split at h
    · rename_i hx
      subst hx
      obtain ⟨rfl, rfl⟩ := Prod.mk.inj (Option.some.inj h)
      rfl
    · obtain ⟨⟨front', rest'⟩, hs, heq⟩ := Option.map_eq_some_iff.mp h
      obtain ⟨rfl, rfl⟩ := Prod.mk.inj heq
      rw [ih hs, List.cons_append]

section Lines

theorem mem_isValidDnsServer {server : Text} (h : isValidDnsServer server) :
    ∀ c ∈ server, isAddressChar c ∨ c = '%' := by
  intro c hc
  rw [isValidDnsServer] at h
  cases hsplit : splitOnce '%' server with
  | none =>
    rw [hsplit] at h
    cases hkind : ipKind server with
    | none => simp [hkind] at h
    | some kind => exact Or.inl (isAddressChar_of_ipKind hkind c hc)
  | some p =>
    obtain ⟨address, zone⟩ := p
    rw [hsplit] at h
    rw [splitOnce_eq_some hsplit] at hc
    cases hkind : ipKind address with
    | none => simp [hkind] at h
    | some kind =>
      rcases List.mem_append.mp hc with hc | hc
      · exact Or.inl (isAddressChar_of_ipKind hkind c hc)
      rcases List.mem_cons.mp hc with hc | hc
      · exact Or.inr hc
      -- Only an IPv6 address has a zone.
      cases kind with
      | v4 => simp [hkind] at h
      | v6 =>
        have hzone : ∀ c ∈ zone, c.isAlphanum := by
          simp [hkind] at h
          exact h.2
        simp [isAddressChar, hzone c hc]

theorem not_newline_of_isAddressChar {s : Text} (h : ∀ c ∈ s, isAddressChar c ∨ c = '%') :
    '\n' ∉ s := by
  intro hmem
  have hno : ¬ (isAddressChar '\n' ∨ '\n' = '%') := by decide
  exact hno (h _ hmem)

theorem splitOn_resolverLines {address : Text} {ports : List ℕ}
    (haddress : ∀ c ∈ address, isAddressChar c ∨ c = '%') :
    (['\n'].intercalate ([resolverMarker, "nameserver ".toList ++ address] ++
      ports.map (fun port => "port ".toList ++ Nat.toDigits 10 port) ++ [[]])).splitOn '\n' =
    [resolverMarker, "nameserver ".toList ++ address] ++
      ports.map (fun port => "port ".toList ++ Nat.toDigits 10 port) ++ [[]] := by
  apply List.splitOn_intercalate
  · intro l hl
    have hcases : l = resolverMarker ∨ l = "nameserver ".toList ++ address ∨
        (∃ port, l = "port ".toList ++ Nat.toDigits 10 port) ∨ l = [] := by
      simp only [List.mem_append, List.mem_cons, List.mem_map, List.not_mem_nil, or_false] at hl
      rcases hl with ((rfl | rfl) | ⟨port, -, rfl⟩) | rfl
      · exact .inl rfl
      · exact .inr (.inl rfl)
      · exact .inr (.inr (.inl ⟨port, rfl⟩))
      · exact .inr (.inr (.inr rfl))
    rcases hcases with rfl | rfl | ⟨port, rfl⟩ | rfl
    · decide
    · rw [List.mem_append, not_or]
      exact ⟨by decide, not_newline_of_isAddressChar haddress⟩
    · rw [List.mem_append, not_or]
      refine ⟨by decide, fun hmem => ?_⟩
      have hdigit := Nat.isDigit_of_mem_toDigits (b := 10) (by decide) (by decide) hmem
      exact absurd hdigit (by decide)
    · exact List.not_mem_nil
  · simp

/-- The address that a resolver file names, and its port where it has one. -/
def nameserver (server : Text) : Option SocketAddr → Text × List ℕ
  | some addr => (addr.ip.toText, [addr.port.toNat])
  | none => (trim server, [])

theorem resolverContents_eq (server : Text) (fakeDns : Option SocketAddr) :
    resolverContents server fakeDns =
      ['\n'].intercalate ([resolverMarker, "nameserver ".toList ++ (nameserver server fakeDns).1] ++
        (nameserver server fakeDns).2.map (fun port => "port ".toList ++ Nat.toDigits 10 port) ++
        [[]]) := by
  cases fakeDns <;> simp [resolverContents, nameserver, List.intercalate, List.intersperse]

theorem isAddressChar_nameserver {dnsAddr : Text}
    (h : trim dnsAddr = [] ∨ isValidDnsServer (trim dnsAddr)) (fakeDns : Option SocketAddr) :
    ∀ c ∈ (nameserver dnsAddr fakeDns).1, isAddressChar c ∨ c = '%' := by
  cases fakeDns with
  | none =>
    cases h with
    | inl hnil => simp [nameserver, hnil]
    | inr hvalid => exact mem_isValidDnsServer hvalid
  | some addr =>
    intro c hc
    cases isDigit_or_dot_of_mem_toText hc with
    | inl hdigit => exact Or.inl (isAddressChar_of_isDigit hdigit)
    | inr hdot => exact Or.inl (by rw [hdot]; decide)

theorem resolverLines {dnsAddr : Text} (h : trim dnsAddr = [] ∨ isValidDnsServer (trim dnsAddr))
    (fakeDns : Option SocketAddr) : ResolverLines (resolverContents dnsAddr fakeDns) := by
  have haddress := isAddressChar_nameserver h fakeDns
  refine ⟨(nameserver dnsAddr fakeDns).1, (nameserver dnsAddr fakeDns).2, haddress, ?_, ?_⟩
  · cases fakeDns <;> simp [nameserver]
  · rw [resolverContents_eq]
    exact splitOn_resolverLines haddress

end Lines

section Routes

theorem RouteArg.head_ne {arg : Text} (h : RouteArg arg) : arg.head? ≠ some '-' := by
  obtain ⟨ip, h⟩ := h
  have hmem : '-' ∉ ip.toText := by
    intro hmem
    rcases isDigit_or_dot_of_mem_toText hmem with hd | hd
    · exact absurd hd (by decide)
    · exact absurd hd (by decide)
  intro hhead
  rcases h with rfl | ⟨pfx, n, rfl, -, -⟩
  · exact hmem (List.mem_of_mem_head? hhead)
  · rw [List.head?_append] at hhead
    cases htext : ip.toText.head? with
    | none => simp [htext] at hhead
    | some c =>
      rw [htext, Option.some_or] at hhead
      rw [Option.some.inj hhead] at htext
      exact hmem (List.mem_of_mem_head? htext)

theorem routeArg_of_parseIpv4Cidr {cidr : Text} (h : (parseIpv4Cidr cidr).isSome) :
    ∃ flag arg, normalizeRouteCidr cidr = .ok [flag, arg] ∧
      (flag = "-host".toList ∨ flag = "-net".toList) ∧ RouteArg arg := by
  obtain ⟨parsed, h⟩ := Option.isSome_iff_exists.mp h
  simp only [parseIpv4Cidr, Option.pure_def, Option.bind_eq_bind, Option.bind_eq_some_iff,
    Option.filter_eq_some_iff, Option.some.injEq, Prod.exists] at h
  obtain ⟨addr, pfx, hsplit, ip, hip, n, ⟨hn, hle⟩, -⟩ := h
  have haddr := Ipv4Addr.parse_eq_some hip
  by_cases hpfx : pfx = "32".toList
  · refine ⟨"-host".toList, addr, ?_, Or.inl rfl, ip, Or.inl haddr⟩
    simp [normalizeRouteCidr, hsplit, hpfx]
  · refine ⟨"-net".toList, trim cidr, ?_, Or.inr rfl, ip,
      Or.inr ⟨pfx, n, ?_, hn, by simpa using hle⟩⟩
    · rw [normalizeRouteCidr, hsplit]
      exact if_neg hpfx
    · rw [splitOnce_eq_some hsplit, haddr]

theorem routeArg_of_mem_tunRoutes {config : RouteConfig} {env : RouteEnv}
    (hmanaged : ∀ cidr ∈ config.managedRouteCidrs, (parseIpv4Cidr cidr).isSome) {cidr : Text}
    (h : cidr ∈ tunRoutes config env) : ∃ flag arg, normalizeRouteCidr cidr = .ok [flag, arg] ∧
      (flag = "-host".toList ∨ flag = "-net".toList) ∧ RouteArg arg := by
  rw [tunRoutes, mem_sortDedup, List.mem_append, List.mem_append] at h
  rcases h with (h | h) | h
  · exact routeArg_of_parseIpv4Cidr (hmanaged cidr h)
  · have hfake : cidr = fakeIpCidr := by
      split at h
      · exact List.mem_singleton.mp h
      · cases h
    rw [hfake]
    exact routeArg_of_parseIpv4Cidr (by decide +kernel)
  · split at h
    · rename_i hdns
      obtain rfl := List.mem_singleton.mp h
      rw [shouldRouteDnsViaTun] at hdns
      cases hip : Ipv4Addr.parse (trim config.dnsAddr) with
      | none => simp [hip] at hdns
      | some ip =>
        rw [Ipv4Addr.parse_eq_some hip]
        exact ⟨_, _, normalizeRouteCidr_toText ip, Or.inl rfl, ip, Or.inl rfl⟩
    · cases h

end Routes

theorem validateHelperConfig_ok {config : HelperConfig} (h : validateHelperConfig config = .ok ()) :
    (trim config.dnsAddr = [] ∨ isValidDnsServer (trim config.dnsAddr)) ∧
      ∀ cidr ∈ config.managedRouteCidrs, (parseIpv4Cidr cidr).isSome := by
  rw [validateHelperConfig] at h
  split at h
  · cases h
  rename_i hdns
  split at h
  · cases h
  rename_i hroutes
  constructor
  · by_contra hno
    rw [not_or] at hno
    exact hdns hno
  · intro cidr hcidr
    have hsome := List.find?_eq_none.mp hroutes cidr hcidr
    simpa [Option.isSome_iff_ne_none] using hsome

theorem confined_of_valid {config : HelperConfig} (h : validateHelperConfig config = .ok ()) :
    Confined config := by
  obtain ⟨hdns, hroutes⟩ := validateHelperConfig_ok h
  constructor
  · intro env fakeDns s after
    have hspec := s.configureScopedDnsResolvers_spec env config.managedDomains config.dnsAddr
      fakeDns
    have hpending : ∀ name ∈ s.pending config.managedDomains config.dnsAddr, SafeName name :=
      fun name hname => normalizedResolverDomains_safe (List.mem_of_mem_filter hname)
    constructor
    · intro name hname
      rw [hspec.written] at hname
      obtain ⟨bytes, hleaves⟩ := ResolverState.mem_reached.mp hname
      exact hpending name (ResolverState.mem_pending_of_leaves hleaves)
    · intro name hname
      by_cases hc : s.Complete env config.managedDomains config.dnsAddr
      · rw [ResolverState.recorded_of_complete (hspec.complete hc)] at hname
        exact hpending name hname
      · rw [hspec.stopped hc] at hname
        cases hname
  · intro env fakeDns s after name hname
    have hspec := s.configureScopedDnsResolvers_spec env config.managedDomains config.dnsAddr
      fakeDns
    rw [hspec.written] at hname
    rw [hspec.files, if_pos hname]
  · exact resolverLines hdns
  · intro env cidr hcidr
    obtain ⟨flag, arg, hnorm, hflag, harg⟩ := routeArg_of_mem_tunRoutes hroutes hcidr
    exact ⟨flag, arg, hnorm, hflag, harg, harg.head_ne⟩

theorem confined_zone : Confined {
    setupRoutes := true
    managedRouteCidrs := [" 10.0.0.0/+8".toList]
    dnsAddr := "fe80::1%en0".toList
    resourceBytes := []
    serviceHost := []
    tunName := none
    managedDomains := ["*.example.org".toList, "../passwd".toList]
    mtu := 1400
    exitOnFatalError := false
    fakeIp := false } :=
  confined_of_valid (by decide +kernel)

end NulConnect.Macos
