import NulConnect.Macos.ClientInput

/-! The readiness check of the managed routes: `route_probe_address` and
`tun_route_ready_for_cidr`, on the table that `setup_managed_tun_routes` has left. -/
namespace NulConnect.Macos
open Net Routing Transition.Table

/-- `parse::<u32>`. -/
def parseU32 (s : Text) : Option ℕ :=
  let digits := match s with
    | '+' :: rest => rest
    | _ => s
  if digits ≠ [] ∧ digits.all Char.isDigit ∧ Nat.ofDigitChars 10 digits 0 < 2 ^ 32 then
    some (Nat.ofDigitChars 10 digits 0)
  else none

/-- The address that stands for a prefix. -/
def probeAddress (address : Ipv4Addr) (pfx : ℕ) : Ipv4Addr :=
  let mask : BitVec 32 := if pfx = 0 then 0 else BitVec.allOnes 32 <<< (32 - pfx)
  let network := address &&& mask
  let broadcast := network ||| ~~~mask
  if 31 ≤ pfx then address
  else
    -- `saturating_add`
    let candidate := if network = BitVec.allOnes 32 then network else network + 1
    if candidate < broadcast then candidate else network

def routeProbeAddress (cidr : Text) : Except AtrError Text :=
  let trimmed := trim cidr
  match splitOnce '/' trimmed with
  | none => .error (.invalidArgument ("invalid CIDR route: ".toList ++ trimmed))
  | some (addr, pfx) =>
    match (addr.splitOn '.').mapM parseU8 with
    | some [a, b, c, d] =>
      match parseU32 pfx with
      | none => .error (.invalidArgument ("invalid CIDR prefix: ".toList ++ trimmed))
      | some pfx =>
        if 32 < pfx then .error (.invalidArgument ("invalid CIDR prefix: ".toList ++ trimmed))
        else
          let address := Ipv4Addr.ofOctets (.ofNat 8 a) (.ofNat 8 b) (.ofNat 8 c) (.ofNat 8 d)
          .ok (probeAddress address pfx).toText
    | _ => .error (.invalidArgument ("invalid IPv4 route: ".toList ++ trimmed))

/-- `/sbin/route -n get` finds the interface of the tunnel. -/
def tunRouteReadyForCidr (table : Network 32 → Option (List Text)) (tunName cidr : Text) : Bool :=
  match routeProbeAddress cidr with
  | .error _ => false
  | .ok probe =>
    match Ipv4Addr.parse probe with
    | none => false
    | some ip => longestMatch table ip = some ["-interface".toList, tunName]

/-- The prefixes that `wait_for_tun_setup` waits for. -/
def pendingRoutes (config : RouteConfig) (env : RouteEnv) : List Text :=
  config.managedRouteCidrs ++ if env.fakeDns then [fakeIpCidr] else []

section Parsing

variable {cidr s : Text} {ip : Ipv4Addr}

theorem parseU32_of_parseU8 {n : ℕ} (h : parseU8 s = some n) : parseU32 s = some n := by
  unfold parseU8 at h
  dsimp only at h
  split_ifs at h with hs
  have hlt : _ < 2 ^ 32 := lt_trans hs.2.2 (by norm_num)
  exact (if_pos ⟨hs.1, hs.2.1, hlt⟩).trans h

theorem parseU8_of_parseOctet {b : BitVec 8} (h : Ipv4Addr.parseOctet s = some b) :
    parseU8 s = some b.toNat := by
  unfold Ipv4Addr.parseOctet at h
  split_ifs at h with hs
  obtain ⟨hne, -, hdigits, -, hlt⟩ := hs
  have hb := Option.some.inj h
  have hsome : some (Nat.ofDigitChars 10 s 0) = some b.toNat := by
    rw [← hb, BitVec.toNat_ofNat, Nat.mod_eq_of_lt hlt]
  unfold parseU8
  dsimp only
  split
  · exact absurd (List.all_eq_true.mp hdigits '+' List.mem_cons_self) (by decide)
  · rw [if_pos ⟨hne, hdigits, hlt⟩, hsome]

theorem mapM_parseU8_of_parse (h : Ipv4Addr.parse s = some ip) :
    ∃ a b c d : BitVec 8, (s.splitOn '.').mapM parseU8 =
      some [a.toNat, b.toNat, c.toNat, d.toNat] ∧ ip = Ipv4Addr.ofOctets a b c d := by
  unfold Ipv4Addr.parse at h
  split at h
  · rename_i a b c d hsplit
    simp only [Option.pure_def, Option.bind_eq_bind, Option.bind_eq_some_iff, Option.some.injEq]
      at h
    obtain ⟨a', ha, b', hb, c', hc, d', hd, heq⟩ := h
    refine ⟨a', b', c', d', ?_, heq.symm⟩
    rw [hsplit]
    simp [parseU8_of_parseOctet ha, parseU8_of_parseOctet hb, parseU8_of_parseOctet hc,
      parseU8_of_parseOctet hd]
  · cases h

/-- A prefix that the helper accepts has a probe address. -/
theorem routeProbeAddress_of_parseIpv4Cidr {length : ℕ}
    (h : parseIpv4Cidr cidr = some (ip, length)) :
    routeProbeAddress cidr = .ok (probeAddress ip length).toText ∧ length ≤ 32 := by
  simp only [parseIpv4Cidr, Option.pure_def, Option.bind_eq_bind, Option.bind_eq_some_iff,
    Option.filter_eq_some_iff, Option.some.injEq, Prod.exists, Prod.mk.injEq,
    decide_eq_true_eq] at h
  obtain ⟨addr, pfx, hsplit, ip', hip, n, ⟨hn, hle⟩, hipeq, hneq⟩ := h
  obtain ⟨a, b, c, d, hoctets, hof⟩ := mapM_parseU8_of_parse hip
  rw [← hneq]
  refine ⟨?_, hle⟩
  unfold routeProbeAddress
  simp only [hsplit, hoctets, parseU32_of_parseU8 hn]
  rw [if_neg (by omega)]
  simp only [BitVec.ofNat_toNat, BitVec.setWidth_eq, ← hof, hipeq]

end Parsing

/-- The probe address is one of the prefix. -/
theorem probeAddress_covers (address : Ipv4Addr) {length : ℕ} (h : length ≤ 32) :
    (Network.of address length).Covers (probeAddress address length) := by
  have hmask : (if length = 0 then 0 else BitVec.allOnes 32 <<< (32 - length)) =
      netmask 32 length := by
    split_ifs with hzero
    · rw [hzero]
      decide
    · rfl
  have hmin : min length 32 = length := Nat.min_eq_left h
  unfold Network.Covers Network.of probeAddress
  dsimp only
  rw [hmin, hmask]
  split_ifs with hlong hsaturated hlt hlt
  · rfl
  · exact and_netmask_and_netmask length
  · exact and_netmask_and_netmask length
  · exact succ_and_netmask (by omega)
  · exact and_netmask_and_netmask length

/-- The second address of a prefix, or the address as it is written where there are no more than
two. -/
def secondAddress (address : Ipv4Addr) (length : ℕ) : Ipv4Addr :=
  if 31 ≤ length then address else (address &&& netmask 32 length) + 1

theorem probeAddress_eq (address : Ipv4Addr) (length : ℕ) :
    probeAddress address length = secondAddress address length := by
  have hmask : (if length = 0 then 0 else BitVec.allOnes 32 <<< (32 - length)) =
      netmask 32 length := by
    split_ifs with hzero
    · rw [hzero]
      decide
    · rfl
  unfold probeAddress secondAddress
  dsimp only
  rw [hmask]
  by_cases hlong : 31 ≤ length
  · rw [if_pos hlong, if_pos hlong]
  set network := address &&& netmask 32 length with hnetwork
  have hbit : ∀ i, i < 2 → network.getLsbD i = false := by
    intro i hi
    rw [hnetwork, BitVec.getLsbD_and, getLsbD_netmask]
    simp
    omega
  have hnot : ∀ i, i < 2 → (~~~netmask 32 length).getLsbD i = true := by
    intro i hi
    rw [BitVec.getLsbD_not, getLsbD_netmask]
    simp
    omega
  have hunsaturated : network ≠ BitVec.allOnes 32 := by
    intro h
    have hzero := hbit 0 (by omega)
    rw [h] at hzero
    revert hzero
    decide
  have hadd : network + 1 = network ||| 1#32 := by
    show network + 1#32 = network ||| 1#32
    apply BitVec.add_eq_or_of_and_eq_zero
    apply BitVec.eq_of_getLsbD_eq
    intro i hi
    rw [BitVec.getLsbD_and, BitVec.getLsbD_one]
    by_cases hzero : i = 0
    · rw [hzero, hbit 0 (by omega)]
      simp
    · simp [hzero]
  have hor : network ||| ~~~netmask 32 length = (network + 1) ||| ~~~netmask 32 length := by
    rw [hadd]
    apply BitVec.eq_of_getLsbD_eq
    intro i hi
    simp only [BitVec.getLsbD_or, BitVec.getLsbD_one]
    by_cases hzero : i = 0
    · rw [hzero, hnot 0 (by omega)]
      simp
    · simp [hzero]
  have hle : network + 1 ≤ network ||| ~~~netmask 32 length := by
    rw [hor, BitVec.le_def, BitVec.toNat_or]
    exact Nat.left_le_or
  have hne : network + 1 ≠ network ||| ~~~netmask 32 length := by
    intro h
    have hone := congrArg (fun x => x.getLsbD 1) h
    simp only [hadd, BitVec.getLsbD_or, hbit 1 (by omega), hnot 1 (by omega)] at hone
    revert hone
    decide
  have hlt : network + 1 < network ||| ~~~netmask 32 length := BitVec.lt_of_le_ne hle hne
  rw [if_neg hlong, if_neg hlong, if_neg hunsaturated, if_pos hlt]

/-- What `/sbin/route` makes of the arguments for a host and for a network. -/
structure RouteCommand (destination : List Text → Option (Network 32)) : Prop where
  host : ∀ ip : Ipv4Addr, destination ["-host".toList, ip.toText] = some (.host ip)
  net : ∀ (ip : Ipv4Addr) pfx n, parseU8 pfx = some n → n ≤ 32 →
    destination ["-net".toList, ip.toText ++ '/' :: pfx] = some (.of ip n)

section Setup

variable (destination : List Text → Option (Network 32)) (config : RouteConfig) (env : RouteEnv)
  (s : RouteState (Network 32))

/-- The table without the routes on record. -/
def cleaned : Network 32 → Option (List Text) :=
  eraseAll s.table (dests destination (s.record.getD []))

/-- A route into the tunnel: one found there, or that of a managed prefix. -/
def IntoTun (n : Network 32) : Prop :=
  cleaned destination s n = some ["-interface".toList, env.tunName] ∨
    cleaned destination s n = none ∧
      ∃ cidr ∈ managedTexts config env, destOf destination cidr = some n

/-- A route beside the tunnel: one found there, or that of a node through the physical gateway. -/
def Beside (n : Network 32) : Prop :=
  (∃ target, cleaned destination s n = some target ∧
      target ≠ ["-interface".toList, env.tunName]) ∨
    cleaned destination s n = none ∧
      (∀ cidr ∈ managedTexts config env, destOf destination cidr ≠ some n) ∧
      env.gateway.isOk ∧ ∃ ip ∈ nodeAddresses env,
        env.nodeFailure (ip.toText ++ "/32".toList) = none ∧ n = .host ip

/-- Not all addresses of the prefix have a route of their own beside the tunnel. -/
def Open (n : Network 32) : Prop :=
  ∃ a, n.Covers a ∧ ∀ m, Beside destination config env s m → m.Covers a → m.length ≤ n.length

/-- The check of a prefix finds what setup has installed for it. -/
structure Accepted (table : Network 32 → Option (List Text)) (tunName cidr : Text)
    (n : Network 32) (probe : Ipv4Addr) : Prop where
  address : routeProbeAddress cidr = .ok probe.toText
  inside : n.Covers probe
  route : longestMatch table probe = some ["-interface".toList, tunName]
  ready : tunRouteReadyForCidr table tunName cidr

/-- The check accepts every prefix that is not wholly routed beside the tunnel. -/
def AcceptsInstalled : Prop := ∀ cidr ∈ pendingRoutes config env, ∃ ip length,
  parseIpv4Cidr cidr = some (ip, length) ∧
    (Open destination config env s (.of ip length) → ∃ probe,
      Accepted (setupManagedTunRoutes destination config env s).2.table env.tunName cidr
        (.of ip length) probe)

/-- The second address of every such prefix has no route beside the tunnel that is not outdone by
a longer one into the tunnel. -/
def SecondOpen : Prop := ∀ cidr ∈ pendingRoutes config env, ∀ ip length,
  parseIpv4Cidr cidr = some (ip, length) → Open destination config env s (.of ip length) →
    ∀ m, Beside destination config env s m → m.Covers (secondAddress ip length) →
      ∃ l, IntoTun destination config env s l ∧ l.Covers (secondAddress ip length) ∧
        m.length < l.length

variable {destination config env s}

/-- A setup that returns `Ok` has added the managed routes and then those of the nodes. -/
theorem setup_table_of_ok (hsetup : config.setupRoutes)
    (hok : (setupManagedTunRoutes destination config env s).1 = .ok ()) :
    ∃ nodeRoutes target, nodeRouteCidrs env = .ok nodeRoutes ∧ target.length ≤ 1 ∧
      (setupManagedTunRoutes destination config env s).2.table =
        insertAll (insertAll (cleaned destination s)
          (additions destination ["-interface".toList, env.tunName]
            (nonBlank (tunRoutes config env))))
          (additions destination target (pinned destination env nodeRoutes)) := by
  have hclean : (cleanupTunRoutes destination s).table = cleaned destination s :=
    deleteRoutes_table destination s _
  unfold setupManagedTunRoutes at hok ⊢
  simp only [hsetup, not_true_eq_false, if_false] at hok ⊢
  cases hres : env.resolvers with
  | error err => rw [hres] at hok; cases hok
  | ok done =>
    cases hnodes : nodeRouteCidrs env with
    | error err => rw [hres, hnodes] at hok; cases hok
    | ok nodeRoutes =>
      rw [hres, hnodes] at hok
      dsimp only at hok ⊢
      by_cases hall : ∀ cidr ∈ nonBlank (tunRoutes config env),
          addable destination env.tunFailure cidr
      · have htun := addTunRoutes_of_all destination env.tunFailure
          ["-interface".toList, env.tunName] (cleanupTunRoutes destination s)
          (tunRoutes config env) [] hall
        obtain ⟨target, hlength, hpin⟩ := pinNodeRoutes_eq destination env nodeRoutes
          ([] ++ nonBlank (tunRoutes config env))
          (withAdditions (cleanupTunRoutes destination s)
            (additions destination ["-interface".toList, env.tunName]
              (nonBlank (tunRoutes config env))))
        refine ⟨nodeRoutes, target, rfl, hlength, ?_⟩
        rw [htun]
        dsimp only
        rw [hpin, ← hclean]
        cases env.write with
        | error err => rfl
        | ok done => rfl
      · obtain ⟨err, herr⟩ := addTunRoutes_of_failure destination env.tunFailure
          ["-interface".toList, env.tunName] (cleanupTunRoutes destination s)
          (tunRoutes config env) [] hall
        rw [herr] at hok
        cases hok

theorem destOf_of_parse (hcommand : RouteCommand destination) {cidr : Text} {ip : Ipv4Addr}
    {length : ℕ} (h : parseIpv4Cidr cidr = some (ip, length)) :
    destOf destination cidr = some (.of ip length) := by
  simp only [parseIpv4Cidr, Option.pure_def, Option.bind_eq_bind, Option.bind_eq_some_iff,
    Option.filter_eq_some_iff, Option.some.injEq, Prod.exists, Prod.mk.injEq,
    decide_eq_true_eq] at h
  obtain ⟨addr, pfx, hsplit, ip', hip, n, ⟨hn, hle⟩, hipeq, hneq⟩ := h
  have haddr := Ipv4Addr.parse_eq_some hip
  rw [hipeq] at haddr
  rw [← hneq]
  by_cases hpfx : pfx = "32".toList
  · have hn32 : n = 32 := by
      rw [hpfx] at hn
      exact (Option.some.inj hn).symm
    have hnorm : normalizeRouteCidr cidr = .ok ["-host".toList, ip.toText] := by
      simp [normalizeRouteCidr, hsplit, hpfx, haddr]
    have hhost : Network.of ip n = .host ip :=
      Network.eq_of_covers (Network.of_covers n) Network.host_covers (by rw [hn32]; rfl)
    rw [destOf, hnorm, hhost]
    exact hcommand.host ip
  · have hnorm : normalizeRouteCidr cidr = .ok ["-net".toList, ip.toText ++ '/' :: pfx] := by
      rw [normalizeRouteCidr, hsplit, splitOnce_eq_some hsplit, ← haddr]
      exact if_neg hpfx
    rw [destOf, hnorm]
    exact hcommand.net ip pfx n hn hle

/-- The nodes that get a route of their own. -/
theorem mem_dests_pinned (hcommand : RouteCommand destination) {nodeRoutes : List Text}
    (hnodes : nodeRouteCidrs env = .ok nodeRoutes) {n : Network 32} :
    n ∈ dests destination (pinned destination env nodeRoutes) ↔
      env.gateway.isOk ∧ ∃ ip ∈ nodeAddresses env,
        env.nodeFailure (ip.toText ++ "/32".toList) = none ∧ n = .host ip := by
  have hmem : ∀ cidr, cidr ∈ nodeRoutes ↔ ∃ ip ∈ nodeAddresses env,
      cidr = ip.toText ++ "/32".toList := by
    intro cidr
    unfold nodeRouteCidrs at hnodes
    unfold nodeAddresses
    cases hend : env.endpoints with
    | error err => rw [hend] at hnodes; cases hnodes
    | ok endpoints =>
      rw [hend] at hnodes
      have heq := Except.ok.inj hnodes
      rw [← heq, mem_sortDedup]
      simp only [List.mem_flatMap, List.mem_map]
      constructor
      · intro h
        obtain ⟨host, hhost, ip, hip, hcidr⟩ := h
        exact ⟨ip, ⟨host, hhost, hip⟩, hcidr.symm⟩
      · intro h
        obtain ⟨ip, ⟨host, hhost, hip⟩, hcidr⟩ := h
        exact ⟨host, hhost, ip, hip, hcidr.symm⟩
  unfold pinned
  cases hgateway : env.gateway with
  | error err => simp [dests, Except.isOk, Except.toBool]
  | ok gateway =>
    rw [mem_dests]
    constructor
    · intro h
      obtain ⟨cidr, hcidr, hdest⟩ := h
      obtain ⟨hroute, haddable⟩ := List.mem_filter.mp hcidr
      obtain ⟨ip, hip, heq⟩ := (hmem cidr).mp hroute
      rw [heq, destOf_toText (hcommand.host ip)] at hdest
      simp only [addable, Bool.decide_and, Bool.and_eq_true, decide_eq_true_eq] at haddable
      exact ⟨rfl, ip, hip, heq ▸ haddable.1, (Option.some.inj hdest).symm⟩
    · intro h
      obtain ⟨-, ip, hip, hfailure, heq⟩ := h
      have hdest := destOf_toText (hcommand.host ip)
      refine ⟨ip.toText ++ "/32".toList, List.mem_filter.mpr ⟨(hmem _).mpr ⟨ip, hip, rfl⟩, ?_⟩, ?_⟩
      · rw [addable, hfailure, hdest]
        rfl
      · rw [heq, hdest]

section Table

variable (hcommand : RouteCommand destination) (hsetup : config.setupRoutes)
  (hok : (setupManagedTunRoutes destination config env s).1 = .ok ())

include hcommand hsetup hok

/-- What the table holds for a network after a setup that returned `Ok`. -/
theorem setup_entry (n : Network 32) :
    ((setupManagedTunRoutes destination config env s).2.table n =
      some ["-interface".toList, env.tunName] ↔ IntoTun destination config env s n) ∧
    ((∃ target, (setupManagedTunRoutes destination config env s).2.table n = some target ∧
      target ≠ ["-interface".toList, env.tunName]) ↔ Beside destination config env s n) := by
  obtain ⟨nodeRoutes, target, hnodes, hlength, htable⟩ := setup_table_of_ok hsetup hok
  have hne : target ≠ ["-interface".toList, env.tunName] := by
    intro h
    rw [h] at hlength
    simp at hlength
  have hentry := congrFun htable n
  rw [insertAll_additions, insertAll_additions] at hentry
  have hmanaged : n ∈ dests destination (nonBlank (tunRoutes config env)) ↔
      ∃ cidr ∈ managedTexts config env, destOf destination cidr = some n := mem_dests_tunRoutes
  have hpinned := mem_dests_pinned hcommand hnodes (n := n)
  rw [hentry]
  unfold IntoTun Beside
  rw [← hpinned]
  generalize ["-interface".toList, env.tunName] = tun at hne ⊢
  cases hfound : cleaned destination s n with
  | some found => simp
  | none =>
    by_cases hm : n ∈ dests destination (nonBlank (tunRoutes config env))
    · have hexists := hmanaged.mp hm
      have hnot : ¬ ∀ cidr ∈ managedTexts config env, destOf destination cidr ≠ some n := by
        intro h
        obtain ⟨cidr, hcidr, hdest⟩ := hexists
        exact h cidr hcidr hdest
      simp [hm, hexists, hnot]
    · have hnone : ∀ cidr ∈ managedTexts config env, destOf destination cidr ≠ some n :=
        fun cidr hcidr hdest => hm (hmanaged.mpr ⟨cidr, hcidr, hdest⟩)
      have hnot : ¬ ∃ cidr ∈ managedTexts config env, destOf destination cidr = some n := by
        intro h
        obtain ⟨cidr, hcidr, hdest⟩ := h
        exact hnone cidr hcidr hdest
      by_cases hp : n ∈ dests destination (pinned destination env nodeRoutes)
      · simp only [hm, hp, and_false, if_false, and_self, if_true, Option.some.injEq, hne, hnot,
          reduceCtorEq, or_self, false_and, exists_false, false_or, and_true, true_and, iff_self]
        exact iff_of_true ⟨target, rfl, hne⟩ hnone
      · simp [hm, hp, hnot]

/-- The check of a newly installed prefix looks at its second address alone. -/
theorem accepted_iff {cidr : Text} {ip : Ipv4Addr} {length : ℕ}
    (hparse : parseIpv4Cidr cidr = some (ip, length))
    (hinto : IntoTun destination config env s (.of ip length)) :
    (∃ probe, Accepted (setupManagedTunRoutes destination config env s).2.table env.tunName cidr
      (.of ip length) probe) ↔
      ∀ m, Beside destination config env s m → m.Covers (secondAddress ip length) →
        ∃ l, IntoTun destination config env s l ∧ l.Covers (secondAddress ip length) ∧
          m.length < l.length := by
  set table := (setupManagedTunRoutes destination config env s).2.table with htable
  have hentry := setup_entry hcommand hsetup hok
  obtain ⟨haddress, hle⟩ := routeProbeAddress_of_parseIpv4Cidr hparse
  have hinside := probeAddress_covers ip hle
  rw [probeAddress_eq] at haddress hinside
  have houtdone := longestMatch_eq_iff_outdone hinside ((hentry (.of ip length)).1.mpr hinto)
  have hroute : longestMatch table (secondAddress ip length) =
      some ["-interface".toList, env.tunName] ↔
      ∀ m, Beside destination config env s m → m.Covers (secondAddress ip length) →
        ∃ l, IntoTun destination config env s l ∧ l.Covers (secondAddress ip length) ∧
          m.length < l.length := by
    rw [houtdone]
    constructor
    · intro h m hbeside hcovers
      obtain ⟨l, hl, hx, hlt⟩ := h m hcovers ((hentry m).2.mpr hbeside)
      exact ⟨l, (hentry l).1.mp hx, hl, hlt⟩
    · intro h m hcovers hother
      obtain ⟨l, hx, hl, hlt⟩ := h m ((hentry m).2.mp hother) hcovers
      exact ⟨l, hl, (hentry l).1.mpr hx, hlt⟩
  rw [← hroute]
  constructor
  · intro h
    obtain ⟨probe, haccepted⟩ := h
    have htext := Except.ok.inj (haccepted.address.symm.trans haddress)
    have hsome := congrArg Ipv4Addr.parse htext
    rw [Ipv4Addr.parse_toText, Ipv4Addr.parse_toText] at hsome
    rw [← Option.some.inj hsome]
    exact haccepted.route
  · intro h
    refine ⟨secondAddress ip length, haddress, hinside, h, ?_⟩
    unfold tunRouteReadyForCidr
    rw [haddress]
    dsimp only
    rw [Ipv4Addr.parse_toText]
    exact decide_eq_true h

end Table

/-- After a setup that returned `Ok` with every prefix newly added, the check accepts what it has
installed exactly if no route beside the tunnel takes the second address of a prefix. -/
theorem acceptsInstalled_iff (hcommand : RouteCommand destination) {config : HelperConfig}
    (hvalid : validateHelperConfig config = .ok ()) (hsetup : config.setupRoutes)
    (hok : (setupManagedTunRoutes destination config.toRouteConfig env s).1 = .ok ())
    (hnew : ∀ cidr ∈ pendingRoutes config.toRouteConfig env, ∀ n,
      destOf destination cidr = some n → cleaned destination s n = none) :
    AcceptsInstalled destination config.toRouteConfig env s ↔
      SecondOpen destination config.toRouteConfig env s := by
  have hparses : ∀ cidr ∈ pendingRoutes config.toRouteConfig env,
      ∃ ip length, parseIpv4Cidr cidr = some (ip, length) := by
    intro cidr hcidr
    have hsome : (parseIpv4Cidr cidr).isSome := by
      cases List.mem_append.mp hcidr with
      | inl hmanaged => exact (validateHelperConfig_ok hvalid).2 cidr hmanaged
      | inr hfake =>
        have heq : cidr = fakeIpCidr := by
          split at hfake
          · exact List.mem_singleton.mp hfake
          · cases hfake
        rw [heq]
        decide +kernel
    obtain ⟨parsed, hparsed⟩ := Option.isSome_iff_exists.mp hsome
    exact ⟨parsed.1, parsed.2, hparsed⟩
  have hinto : ∀ cidr ∈ pendingRoutes config.toRouteConfig env, ∀ ip length,
      parseIpv4Cidr cidr = some (ip, length) →
      IntoTun destination config.toRouteConfig env s (.of ip length) := by
    intro cidr hcidr ip length hparse
    have hdest := destOf_of_parse hcommand hparse
    exact Or.inr ⟨hnew cidr hcidr _ hdest, cidr, List.mem_append_left _ hcidr, hdest⟩
  constructor
  · intro h cidr hcidr ip length hparse hopen
    obtain ⟨ip', length', hparse', haccepts⟩ := h cidr hcidr
    rw [hparse'] at hparse
    cases hparse
    exact (accepted_iff hcommand hsetup hok hparse' (hinto cidr hcidr _ _ hparse')).mp
      (haccepts hopen)
  · intro h cidr hcidr
    obtain ⟨ip, length, hparse⟩ := hparses cidr hcidr
    refine ⟨ip, length, hparse, fun hopen => ?_⟩
    exact (accepted_iff hcommand hsetup hok hparse (hinto cidr hcidr _ _ hparse)).mpr
      (h cidr hcidr ip length hparse hopen)

end Setup

section Examples

/-- The route command, on the texts of addresses and of networks. -/
def routeCommand : List Text → Option (Network 32)
  | [kind, addr] =>
    if kind = "-host".toList then (Ipv4Addr.parse addr).map .host
    else
      (splitOnce '/' addr).bind fun p =>
        (Ipv4Addr.parse p.1).bind fun ip => (parseU8 p.2).map fun length => .of ip length
  | _ => none

theorem routeCommand_host (addr : Text) :
    routeCommand ["-host".toList, addr] = (Ipv4Addr.parse addr).map .host := rfl

theorem routeCommand_net (addr : Text) : routeCommand ["-net".toList, addr] =
    (splitOnce '/' addr).bind fun p =>
      (Ipv4Addr.parse p.1).bind fun ip => (parseU8 p.2).map fun length => .of ip length := rfl

theorem routeCommand_documented : RouteCommand routeCommand where
  host ip := by
    rw [routeCommand_host, Ipv4Addr.parse_toText, Option.map_some]
  net ip pfx n hn _ := by
    have hslash : '/' ∉ ip.toText := by
      intro h
      cases isDigit_or_dot_of_mem_toText h with
      | inl hdigit => revert hdigit; decide
      | inr hdot => revert hdot; decide
    rw [routeCommand_net, splitOnce_append hslash, Option.bind_some, Ipv4Addr.parse_toText,
      Option.bind_some, hn, Option.map_some]

/-- One managed prefix. -/
def tenNet : HelperConfig where
  setupRoutes := true
  managedRouteCidrs := ["10.0.0.0/8".toList]
  dnsAddr := []
  resourceBytes := []
  serviceHost := []
  tunName := none
  managedDomains := []
  mtu := 1400
  exitOnFatalError := false
  fakeIp := false

def tenEnv : RouteEnv where
  tunName := "utun5".toList
  fakeDns := false
  resolvers := .ok ()
  dnsGateway := .ok "192.168.1.1".toList
  endpoints := .ok []
  lookup _ := []
  gateway := .ok "192.168.1.1".toList
  tunFailure _ := none
  nodeFailure _ := none
  write := .ok ()

/-- A network of the neighbourhood inside the prefix. -/
def neighbour (third : BitVec 8) : Network 32 := .of (Ipv4Addr.ofOctets 10 0 third 0) 24

def neighbourTable (third : BitVec 8) : RouteState (Network 32) where
  table n := if n = neighbour third then some ["-interface".toList, "en0".toList] else none
  record := none
  deleted := []

theorem tenNet_new (third : BitVec 8) : ∀ cidr ∈ pendingRoutes tenNet.toRouteConfig tenEnv, ∀ n,
    destOf routeCommand cidr = some n → cleaned routeCommand (neighbourTable third) n = none := by
  intro cidr hcidr n hn
  have heq : cidr = "10.0.0.0/8".toList := by
    have hlist : pendingRoutes tenNet.toRouteConfig tenEnv = ["10.0.0.0/8".toList] := rfl
    rw [hlist] at hcidr
    exact List.mem_singleton.mp hcidr
  have hdest : destOf routeCommand "10.0.0.0/8".toList =
      some (.of (Ipv4Addr.ofOctets 10 0 0 0) 8) := by
    decide +kernel
  rw [heq, hdest] at hn
  rw [← Option.some.inj hn]
  apply if_neg
  intro h
  have hlength : 8 = 24 := congrArg Network.length h
  omega

theorem tenNet_parse :
    parseIpv4Cidr "10.0.0.0/8".toList = some (Ipv4Addr.ofOctets 10 0 0 0, 8) := by
  decide +kernel

theorem beside_neighbour {third : BitVec 8} {m : Network 32}
    (h : Beside routeCommand tenNet.toRouteConfig tenEnv (neighbourTable third) m) :
    m = neighbour third := by
  obtain ⟨target, hentry, -⟩ | ⟨-, -, -, ip, hip, -⟩ := h
  · by_contra hne
    have hnone : cleaned routeCommand (neighbourTable third) m = none := if_neg hne
    rw [hnone] at hentry
    cases hentry
  · cases hip

/-- The neighbours do not have 10.1.0.0. -/
theorem tenNet_open {third : BitVec 8}
    (hnot : ¬ (neighbour third).Covers (Ipv4Addr.ofOctets 10 1 0 0)) :
    Open routeCommand tenNet.toRouteConfig tenEnv (neighbourTable third)
      (.of (Ipv4Addr.ofOctets 10 0 0 0) 8) := by
  refine ⟨Ipv4Addr.ofOctets 10 1 0 0, by decide, fun m hbeside hcovers => ?_⟩
  rw [beside_neighbour hbeside] at hcovers
  exact absurd hcovers hnot

/-- The prefix is ready where the neighbours are not at its second address. -/
theorem acceptsInstalled_tenNet :
    AcceptsInstalled routeCommand tenNet.toRouteConfig tenEnv (neighbourTable 5) ∧
      tunRouteReadyForCidr
        (setupManagedTunRoutes routeCommand tenNet.toRouteConfig tenEnv (neighbourTable 5)).2.table
        tenEnv.tunName "10.0.0.0/8".toList := by
  have haccepts := (acceptsInstalled_iff routeCommand_documented (by decide +kernel) rfl (by rfl)
    (tenNet_new 5)).mpr fun cidr hcidr ip length hparse _ m hbeside hcovers => by
      obtain rfl : cidr = "10.0.0.0/8".toList := List.mem_singleton.mp hcidr
      rw [tenNet_parse] at hparse
      cases hparse
      rw [beside_neighbour hbeside] at hcovers
      exact absurd hcovers (by decide)
  obtain ⟨ip, length, hparse, hready⟩ := haccepts "10.0.0.0/8".toList List.mem_cons_self
  rw [tenNet_parse] at hparse
  cases hparse
  obtain ⟨probe, haccepted⟩ := hready (tenNet_open (by decide))
  exact ⟨haccepts, haccepted.ready⟩

theorem neighbours_at_probe : ¬ ∀ (config : HelperConfig) (env : RouteEnv)
    (s : RouteState (Network 32)), validateHelperConfig config = .ok () → config.setupRoutes →
    (setupManagedTunRoutes routeCommand config.toRouteConfig env s).1 = .ok () →
    (∀ cidr ∈ pendingRoutes config.toRouteConfig env, ∀ n,
      destOf routeCommand cidr = some n → cleaned routeCommand s n = none) →
    AcceptsInstalled routeCommand config.toRouteConfig env s := by
  intro hall
  have haccepts := hall tenNet tenEnv (neighbourTable 0) (by decide +kernel) rfl (by rfl)
    (tenNet_new 0)
  obtain ⟨ip, length, hparse, hready⟩ := haccepts "10.0.0.0/8".toList List.mem_cons_self
  rw [tenNet_parse] at hparse
  cases hparse
  obtain ⟨probe, haccepted⟩ := hready (tenNet_open (by decide))
  have hnot : tunRouteReadyForCidr
      (setupManagedTunRoutes routeCommand tenNet.toRouteConfig tenEnv (neighbourTable 0)).2.table
      tenEnv.tunName "10.0.0.0/8".toList = false := by
    decide +kernel
  rw [haccepted.ready] at hnot
  cases hnot

end Examples

end NulConnect.Macos
