import NulConnect.Macos.ClientInput
import NulConnect.Net.Trim

/-! `scoped_dns_ready` on the resolver files that `configure_scoped_dns_resolvers` has written. -/
namespace NulConnect.Macos
open Net

/-- A line without the carriage return of its ending. -/
def stripReturn (line : Text) : Text :=
  if line.getLast? = some '\r' then line.dropLast else line

/-- `str::lines`: what follows the last newline is a line only where there is something. -/
def lines (s : Text) : List Text :=
  let parts := s.splitOn '\n'
  parts.dropLast.map stripReturn ++ parts.getLast?.toList.filter (· ≠ [])

/-- `fs::read_to_string`. -/
def readToString (file : Option (List UInt8)) : Option Text :=
  (file.filter isUtf8).map fromUtf8Lossy

/-- The line that the file of every domain must have. -/
def expectedLine (server : Text) : Option SocketAddr → Text
  | some addr => "nameserver ".toList ++ addr.ip.toText
  | none => "nameserver ".toList ++ trim server

def scopedDnsReady (server : Text) (fakeDns : Option SocketAddr) (s : ResolverState) : Bool :=
  let domains := match s.record with
    | some (.whole domains) => domains
    | _ => []
  if domains = [] then true
  else
    domains.all fun domain =>
      match readToString (s.files domain) with
      | some text => (lines text).any fun line => trim line = expectedLine server fakeDns
      | none => false

section Contents

variable {server : Text} {fakeDns : Option SocketAddr}

theorem isAscii_of_isAddressChar {c : Char} (h : isAddressChar c ∨ c = '%') : c.toNat < 0x80 := by
  rcases h with h | rfl
  · simp only [isAddressChar, Char.isAlphanum, Char.isAlpha, Char.isUpper, Char.isLower,
      Char.isDigit, Bool.or_eq_true, Bool.and_eq_true, decide_eq_true_eq, beq_iff_eq, ge_iff_le,
      UInt32.le_iff_toNat_le] at h
    change ((((65 ≤ c.toNat ∧ c.toNat ≤ 90) ∨ (97 ≤ c.toNat ∧ c.toNat ≤ 122)) ∨
      (48 ≤ c.toNat ∧ c.toNat ≤ 57)) ∨ c = '.') ∨ c = ':' at h
    rcases h with (h | rfl) | rfl
    · omega
    · decide
    · decide
  · decide

theorem not_isWhitespace_of_isAddressChar {c : Char} (h : isAddressChar c ∨ c = '%') :
    isWhitespace c = false := by
  rcases h with h | rfl
  · simp only [isAddressChar, Char.isAlphanum, Bool.or_eq_true, beq_iff_eq] at h
    rcases h with ((halpha | hdigit) | rfl) | rfl
    · exact not_isWhitespace_of_isAlpha halpha
    · exact Bool.eq_false_iff.mpr (not_isWhitespace_of_isDigit hdigit)
    · decide
    · decide
  · decide

theorem isAscii_resolverContents
    (haddress : ∀ c ∈ (nameserver server fakeDns).1, isAddressChar c ∨ c = '%') :
    ∀ c ∈ resolverContents server fakeDns, c.toNat < 0x80 := by
  have hdigits : ∀ port c, c ∈ Nat.toDigits 10 port → c.toNat < 0x80 := by
    intro port c hc
    have hdigit := Nat.isDigit_of_mem_toDigits (b := 10) (by decide) (by decide) hc
    exact isAscii_of_isAddressChar (Or.inl (isAddressChar_of_isDigit hdigit))
  have hfixed : ∀ s : Text, s.all (fun c => c.toNat < 0x80) → ∀ c ∈ s, c.toNat < 0x80 := by
    intro s hs c hc
    exact of_decide_eq_true (List.all_eq_true.mp hs c hc)
  have hmarker := hfixed (resolverMarker ++ "\nnameserver ".toList) (by decide)
  have hport := hfixed "\nport ".toList (by decide)
  have hend := hfixed "\n".toList (by decide)
  cases fakeDns with
  | none =>
    intro c hc
    simp only [resolverContents, List.mem_append] at hc
    rcases hc with (hc | hc) | hc
    · exact hmarker c (List.mem_append.mpr hc)
    · exact isAscii_of_isAddressChar (haddress c hc)
    · exact hend c hc
  | some addr =>
    intro c hc
    simp only [resolverContents, List.mem_append] at hc
    rcases hc with ((((hc | hc) | hc) | hc) | hc) | hc
    · exact hmarker c (List.mem_append_left _ hc)
    · exact hmarker c (List.mem_append_right _ hc)
    · exact isAscii_of_isAddressChar (haddress c hc)
    · exact hport c hc
    · exact hdigits _ c hc
    · exact hend c hc

/-- A resolver file is read back as it was written. -/
theorem readToString_resolverContents
    (haddress : ∀ c ∈ (nameserver server fakeDns).1, isAddressChar c ∨ c = '%') :
    readToString (some (toUtf8 (resolverContents server fakeDns))) =
      some (resolverContents server fakeDns) := by
  have hascii := isAscii_resolverContents haddress
  have hutf8 : isUtf8 (toUtf8 (resolverContents server fakeDns)) :=
    isUtf8_ascii (lt_of_mem_toUtf8_ascii hascii)
  rw [readToString, Option.filter_some, if_pos hutf8, Option.map_some,
    fromUtf8Lossy_toUtf8]

/-- The line with the name server keeps its end under `trim` unless the address is empty. -/
theorem trim_nameserver_iff {address : Text}
    (haddress : ∀ c ∈ address, isAddressChar c ∨ c = '%') :
    trim ("nameserver ".toList ++ address) = "nameserver ".toList ++ address ↔ address ≠ [] := by
  constructor
  · rintro h rfl
    revert h
    decide
  · intro hne
    apply trimMatches_eq_self
    · intro c hc
      have hn : c = 'n' := (Option.some.inj hc).symm
      rw [hn]
      decide
    · intro c hc
      rw [List.getLast?_append_of_ne_nil _ hne] at hc
      exact not_isWhitespace_of_isAddressChar (haddress c (List.mem_of_getLast? hc))

theorem lines_of_splitOn {s : Text} {parts : List Text} (h : s.splitOn '\n' = parts ++ [[]]) :
    lines s = parts.map stripReturn := by
  unfold lines
  rw [h]
  dsimp only
  rw [List.dropLast_concat, List.getLast?_concat]
  simp

theorem lines_resolverContents
    (haddress : ∀ c ∈ (nameserver server fakeDns).1, isAddressChar c ∨ c = '%') :
    lines (resolverContents server fakeDns) =
      ([resolverMarker, "nameserver ".toList ++ (nameserver server fakeDns).1] ++
        (nameserver server fakeDns).2.map fun port =>
          "port ".toList ++ Nat.toDigits 10 port).map stripReturn := by
  apply lines_of_splitOn
  rw [resolverContents_eq, splitOn_resolverLines haddress]

theorem stripReturn_nameserver {address : Text}
    (haddress : ∀ c ∈ address, isAddressChar c ∨ c = '%') :
    stripReturn ("nameserver ".toList ++ address) = "nameserver ".toList ++ address := by
  apply if_neg
  intro hlast
  by_cases hne : address = []
  · rw [hne] at hlast
    revert hlast
    decide
  · rw [List.getLast?_append_of_ne_nil _ hne] at hlast
    have hspace := not_isWhitespace_of_isAddressChar (haddress _ (List.mem_of_getLast? hlast))
    revert hspace
    decide

/-- The expected line is there unless it ends in the blank that `trim` takes off. -/
theorem expected_mem_iff
    (haddress : ∀ c ∈ (nameserver server fakeDns).1, isAddressChar c ∨ c = '%') :
    (lines (resolverContents server fakeDns)).any (fun line =>
      trim line = "nameserver ".toList ++ (nameserver server fakeDns).1) ↔
      (nameserver server fakeDns).1 ≠ [] := by
  rw [List.any_eq_true]
  constructor
  · intro h hnil
    obtain ⟨line, -, hline⟩ := h
    have htrim := of_decide_eq_true hline
    rw [hnil, List.append_nil] at htrim
    have hlast : (trim line).getLast? = some ' ' := by rw [htrim]; rfl
    have hspace := trimMatches_getLast hlast
    revert hspace
    decide
  · intro hne
    refine ⟨"nameserver ".toList ++ (nameserver server fakeDns).1, ?_, ?_⟩
    · rw [lines_resolverContents haddress]
      apply List.mem_map.mpr
      exact ⟨_, by simp, stripReturn_nameserver haddress⟩
    · exact decide_eq_true ((trim_nameserver_iff haddress).mpr hne)

end Contents

theorem toText_ne_nil (ip : Ipv4Addr) : ip.toText ≠ [] := by
  simp [Ipv4Addr.toText, Ipv4Addr.octets, List.intercalate]

theorem expectedLine_eq (server : Text) (fakeDns : Option SocketAddr) :
    expectedLine server fakeDns = "nameserver ".toList ++ (nameserver server fakeDns).1 := by
  cases fakeDns <;> rfl

namespace ResolverState

variable {env : ResolverEnv} {domains : List Text} {server : Text} {fakeDns : Option SocketAddr}
  {s : ResolverState}

/-- A call that returns `Ok` has got to its end. -/
theorem complete_of_ok
    (h : (s.configureScopedDnsResolvers env domains server fakeDns).1 = .ok ()) :
    s.Complete env domains server := by
  unfold configureScopedDnsResolvers at h
  cases hdir : env.createDir with
  | error err =>
    rw [hdir] at h
    cases h
  | ok done =>
    rw [hdir] at h
    dsimp only at h
    set begun : ResolverState := { s.cleanupScopedDnsResolvers with written := [] }
    have hloop : Loop env (toUtf8 (resolverContents server fakeDns)) (s.pending domains server) []
        begun _ :=
      writeResolvers_spec (marker_prefix_contents server fakeDns)
        (normalizedResolverDomains domains) [] begun
    generalize hr : writeResolvers env (toUtf8 (resolverContents server fakeDns))
      (toUtf8 (legacyContents server)) (normalizedResolverDomains domains) [] begun = r at hloop h
    have hall : ∀ d ∈ s.pending domains server, env.write d = .written := by
      by_contra hnot
      obtain ⟨ending, hend⟩ := hloop.ended hnot
      cases r with
      | mk result after =>
        have herr : result = .error ending := hend
        rw [herr] at h
        cases h
    have hok := hloop.finished hall
    cases r with
    | mk result after =>
      have hresult : result = .ok ([] ++ s.pending domains server) := hok
      rw [hresult] at h
      have hrecord : env.recordWrite = .written := by
        dsimp only at h
        unfold writeRecord at h
        cases hw : env.recordWrite with
        | written => rfl
        | fails err left => rw [hw] at h; cases h
        | dies left => rw [hw] at h; cases h
      exact ⟨by rw [hdir]; rfl, hall, hrecord⟩

/-- After a call that returned `Ok` the files are ready, but for a server string that is blank. -/
theorem scopedDnsReady_iff {config : HelperConfig} (hvalid : validateHelperConfig config = .ok ())
    (env : ResolverEnv) (fakeDns : Option SocketAddr) (s : ResolverState)
    (hok : (s.configureScopedDnsResolvers env config.managedDomains config.dnsAddr fakeDns).1 =
      .ok ()) :
    scopedDnsReady config.dnsAddr fakeDns
      (s.configureScopedDnsResolvers env config.managedDomains config.dnsAddr fakeDns).2 ↔
      trim config.dnsAddr ≠ [] ∨ fakeDns.isSome ∨
        s.pending config.managedDomains config.dnsAddr = [] := by
  have hcomplete := complete_of_ok hok
  have hspec := s.configureScopedDnsResolvers_spec env config.managedDomains config.dnsAddr fakeDns
  have haddress := isAddressChar_nameserver (validateHelperConfig_ok hvalid).1 fakeDns
  generalize (s.configureScopedDnsResolvers env config.managedDomains config.dnsAddr fakeDns).2 =
    after at hspec
  have hfile : ∀ name ∈ s.pending config.managedDomains config.dnsAddr,
      readToString (after.files name) = some (resolverContents config.dnsAddr fakeDns) := by
    intro name hname
    have hreached : name ∈ s.reached env config.managedDomains config.dnsAddr fakeDns := by
      rw [reached_of_complete hcomplete]
      exact hname
    rw [hspec.files, if_pos hreached, hcomplete.2.1 name hname]
    exact readToString_resolverContents haddress
  have hline : (nameserver config.dnsAddr fakeDns).1 ≠ [] ↔
      trim config.dnsAddr ≠ [] ∨ fakeDns.isSome := by
    cases fakeDns with
    | none => simp [nameserver]
    | some addr => simp [nameserver, toText_ne_nil]
  unfold scopedDnsReady
  rw [hspec.complete hcomplete]
  dsimp only
  by_cases hnone : s.pending config.managedDomains config.dnsAddr = []
  · simp [hnone]
  · rw [if_neg hnone, expectedLine_eq, List.all_eq_true, ← or_assoc, ← hline,
      or_iff_left hnone, ← expected_mem_iff haddress]
    constructor
    · intro h
      obtain ⟨name, hname⟩ := List.exists_mem_of_ne_nil _ hnone
      have hready := h name hname
      rw [hfile name hname] at hready
      exact hready
    · intro h name hname
      rw [hfile name hname]
      exact h

/-- Two domains, one of which has a file of its own. -/
def oneForeign : ResolverState where
  files name := if name = "corp.example".toList then some [0x23] else none
  record := none
  written := []

def everyWrite : ResolverEnv where
  createDir := .ok ()
  write _ := .written
  recordWrite := .written

def twoDomains (dnsAddr : Text) : HelperConfig where
  setupRoutes := true
  managedRouteCidrs := []
  dnsAddr := dnsAddr
  resourceBytes := []
  serviceHost := []
  tunName := none
  managedDomains := ["corp.example".toList, "example.org".toList]
  mtu := 1400
  exitOnFatalError := false
  fakeIp := false

theorem scopedDnsReady_zone :
    scopedDnsReady " fe80::1%en0 ".toList none
      (oneForeign.configureScopedDnsResolvers everyWrite
        ["corp.example".toList, "example.org".toList] " fe80::1%en0 ".toList none).2 :=
  (scopedDnsReady_iff (show validateHelperConfig (twoDomains " fe80::1%en0 ".toList) = .ok () by
    decide +kernel) everyWrite none oneForeign (by rfl)).mpr (.inl (by decide +kernel))

theorem blank_never_ready : ¬ ∀ (config : HelperConfig) (env : ResolverEnv)
    (fakeDns : Option SocketAddr) (s : ResolverState), validateHelperConfig config = .ok () →
      config.setupRoutes →
      (s.configureScopedDnsResolvers env config.managedDomains config.dnsAddr fakeDns).1 = .ok () →
      scopedDnsReady config.dnsAddr fakeDns
        (s.configureScopedDnsResolvers env config.managedDomains config.dnsAddr fakeDns).2 := by
  intro hall
  have hready := hall (twoDomains []) everyWrite none oneForeign (by decide +kernel) rfl (by rfl)
  revert hready
  decide +kernel

end ResolverState

end NulConnect.Macos
