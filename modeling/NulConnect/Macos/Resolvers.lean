import NulConnect.Error
import NulConnect.Net.Ipv4
import NulConnect.Net.SortDedup
import NulConnect.Net.Trim
import NulConnect.Net.Utf8

/-! The files under `/etc/resolver`: `configure_scoped_dns_resolvers`, with writes that fail or
with the death of the process in between, and `cleanup_scoped_dns_resolvers`. -/
namespace NulConnect.Macos
open Net

/-- The address of the fake DNS server, which listens on a loopback address. -/
structure SocketAddr where
  ip : Ipv4Addr
  port : UInt16

def resolverMarker : Text := "# managed by NulConnect".toList

def resolverContents (server : Text) (fakeDns : Option SocketAddr) : Text :=
  match fakeDns with
  | some addr => resolverMarker ++ "\nnameserver ".toList ++ addr.ip.toText ++ "\nport ".toList ++
      Nat.toDigits 10 addr.port.toNat ++ "\n".toList
  | none => resolverMarker ++ "\nnameserver ".toList ++ trim server ++ "\n".toList

/-- The contents that earlier versions wrote. -/
def legacyContents (server : Text) : Text := "nameserver ".toList ++ trim server ++ "\n".toList

/-- The file name for a managed domain, where there is one. -/
def normalizedResolverDomain (domain : Text) : Option Text :=
  let normalized := (trimMatches (fun ch => ch == '.' || isWhitespace ch) domain).map Char.toLower
  let normalized :=
    if "*.".toList.isPrefixOf normalized then normalized.drop 2 else normalized
  if normalized = [] ∨
      ¬ normalized.all (fun ch => ch.isAlphanum || ch == '.' || ch == '-' || ch == '_') ∨
      normalized = "local".toList then none
  else some normalized

def normalizedResolverDomains (domains : List Text) : List Text :=
  sortDedup (domains.filterMap normalizedResolverDomain)

/-- The record of the files, `tun-scoped-dns.json`. -/
inductive ResolverRecord where
  | whole (domains : List Text)
  | torn
deriving DecidableEq

/-- The files by name, the record, and the names that the last call of
`configure_scoped_dns_resolvers` has written to. -/
structure ResolverState where
  files : Text → Option (List UInt8)
  record : Option ResolverRecord
  written : List Text

/-- What becomes of a write: it goes through, fails or is where the process dies; `left` is how
many bytes get into the file where it is touched at all. -/
inductive WriteOutcome where
  | written
  | fails (err : AtrError) (left : Option ℕ)
  | dies (left : Option ℕ)
deriving DecidableEq

/-- What a write leaves in a file that it touches. -/
def WriteOutcome.leaves (contents : List UInt8) : WriteOutcome → Option (List UInt8)
  | .written => some contents
  | .fails _ left | .dies left => left.map contents.take

/-- How a call ends that does not return `Ok`. -/
inductive Ending where
  | failed (err : AtrError)
  | died

structure ResolverEnv where
  createDir : Except AtrError Unit
  write : Text → WriteOutcome
  recordWrite : WriteOutcome

/-- A file that stays: one that can be read, does not carry the marker and is none of an earlier
version. -/
def keepsExisting (legacy : List UInt8) : Option (List UInt8) → Bool
  | none => false
  | some existing =>
    isUtf8 existing && !(toUtf8 resolverMarker).isPrefixOf existing && existing ≠ legacy

def removable (domain : Text) : Bool :=
  !domain.contains '/' && domain ≠ ".".toList && domain ≠ "..".toList

namespace ResolverState

/-- The files that `cleanup_scoped_dns_resolvers` removes. -/
def recorded (s : ResolverState) : List Text :=
  match s.record with
  | some (.whole domains) => domains.filter removable
  | _ => []

def cleanupScopedDnsResolvers (s : ResolverState) : ResolverState :=
  { s with
    files := s.recorded.foldl (fun files domain => Function.update files domain none) s.files
    record := none }

/-- The recovery of a new process, where it finds the record or other `leftovers`. -/
def recoverTunLeftovers (leftovers : Bool) (s : ResolverState) : ResolverState :=
  if leftovers || s.record.isSome then s.cleanupScopedDnsResolvers else s

def writeFile (s : ResolverState) (domain : Text) (contents : List UInt8)
    (outcome : WriteOutcome) : ResolverState :=
  match outcome.leaves contents with
  | none => s
  | some bytes => { s with
      files := Function.update s.files domain (some bytes)
      written := s.written ++ [domain] }

/-- The loop over the domains. -/
def writeResolvers (env : ResolverEnv) (contents legacy : List UInt8) :
    List Text → List Text → ResolverState → Except Ending (List Text) × ResolverState
  | [], installed, s => (.ok installed, s)
  | domain :: rest, installed, s =>
    if keepsExisting legacy (s.files domain) then
      writeResolvers env contents legacy rest installed s
    else
      let s := s.writeFile domain contents (env.write domain)
      match env.write domain with
      | .written => writeResolvers env contents legacy rest (installed ++ [domain]) s
      | .fails err _ => (.error (.failed err), s)
      | .dies _ => (.error .died, s)

def writeRecord (env : ResolverEnv) (installed : List Text) (s : ResolverState) :
    Except Ending Unit × ResolverState :=
  match env.recordWrite with
  | .written => (.ok (), { s with record := some (.whole installed) })
  | .fails err left =>
    (.error (.failed err), { s with record := if left.isSome then some .torn else s.record })
  | .dies left => (.error .died, { s with record := if left.isSome then some .torn else s.record })

def configureScopedDnsResolvers (env : ResolverEnv) (domains : List Text) (server : Text)
    (fakeDns : Option SocketAddr) (s : ResolverState) : Except Ending Unit × ResolverState :=
  let s := { s.cleanupScopedDnsResolvers with written := [] }
  match env.createDir with
  | .error err => (.error (.failed err), s)
  | .ok _ =>
    match writeResolvers env (toUtf8 (resolverContents server fakeDns))
        (toUtf8 (legacyContents server)) (normalizedResolverDomains domains) [] s with
    | (.error ending, s) => (.error ending, s)
    | (.ok installed, s) => writeRecord env installed s

end ResolverState

/-- The characters of a file name. -/
def isNameChar (ch : Char) : Bool :=
  ch.isLower || ch.isDigit || ch == '.' || ch == '-' || ch == '_'

/-- The name of a direct child of a directory, in lower case. -/
structure SafeName (name : Text) : Prop where
  nonempty : name ≠ []
  current : name ≠ ".".toList
  parent : name ≠ "..".toList
  chars : ∀ ch ∈ name, isNameChar ch

theorem isNameChar_toLower {ch : Char}
    (h : (ch.toLower.isAlphanum || ch.toLower == '.' || ch.toLower == '-' ||
      ch.toLower == '_') = true) : isNameChar ch.toLower := by
  have hup : ch.toLower.isUpper = false := Char.isUpper_toLower_eq_false ch
  simpa [isNameChar, Char.isAlphanum, Char.isAlpha, hup] using h

/-- A name that does not end in a dot is neither the directory nor its parent. -/
theorem safeName_of_getLast {name : Text} (hne : name ≠ []) (hlast : name.getLast? ≠ some '.')
    (hchars : ∀ ch ∈ name, isNameChar ch) : SafeName name where
  nonempty := hne
  current := fun h => hlast (h ▸ rfl)
  parent := fun h => hlast (h ▸ rfl)
  chars := hchars

/-- What is trimmed off a domain. -/
def isEdge (ch : Char) : Bool := ch == '.' || isWhitespace ch

/-- What a domain may consist of. -/
def isDomainChar (ch : Char) : Bool := ch.isAlphanum || ch == '.' || ch == '-' || ch == '_'

section Normalized

variable {domain name : Text}

/-- What `strip_prefix` leaves of a text. -/
theorem strip_wildcard {low : Text} :
    (if "*.".toList.isPrefixOf low then low.drop 2 else low) = name ↔
      low = "*.".toList ++ name ∨ ¬ "*.".toList <+: low ∧ low = name := by
  by_cases hp : "*.".toList <+: low
  · rw [if_pos (List.isPrefixOf_iff_prefix.mpr hp)]
    obtain ⟨rest, rfl⟩ := hp
    simp
  · have hne : low ≠ "*.".toList ++ name := fun h => hp (h ▸ List.prefix_append _ _)
    rw [if_neg (mt List.isPrefixOf_iff_prefix.mp hp), or_iff_right hne, and_iff_right hp]

/-- A name is what is left of the domain, without a prefix for all its subdomains. -/
theorem normalizedResolverDomain_eq_some : normalizedResolverDomain domain = some name ↔
    ((trimMatches isEdge domain).map Char.toLower = "*.".toList ++ name ∨
      ¬ "*.".toList <+: (trimMatches isEdge domain).map Char.toLower ∧
        (trimMatches isEdge domain).map Char.toLower = name) ∧
    name ≠ [] ∧ (∀ ch ∈ name, isDomainChar ch) ∧ name ≠ "local".toList := by
  rw [← strip_wildcard]
  set low := (trimMatches isEdge domain).map Char.toLower
  set left := if "*.".toList.isPrefixOf low then low.drop 2 else low
  change (if left = [] ∨ ¬ left.all isDomainChar ∨ left = "local".toList then none else some left) =
    some name ↔ _
  rw [Option.ite_none_left_eq_some]
  constructor
  · rintro ⟨hok, hname⟩
    obtain rfl := Option.some.inj hname
    push Not at hok
    exact ⟨rfl, hok.1, List.all_eq_true.mp hok.2.1, hok.2.2⟩
  · rintro ⟨rfl, hne, hall, hlocal⟩
    refine ⟨?_, rfl⟩
    push Not
    exact ⟨hne, List.all_eq_true.mpr hall, hlocal⟩

/-- What is left of the domain is its end, so it does not end in a dot either. -/
theorem getLast_normalizedResolverDomain (h : normalizedResolverDomain domain = some name) :
    name.getLast? ≠ some '.' := by
  intro hlast
  obtain ⟨hleft, hne, -, -⟩ := normalizedResolverDomain_eq_some.mp h
  have hend : ((trimMatches isEdge domain).map Char.toLower).getLast? = some '.' := by
    cases hleft with
    | inl hwild => rw [hwild, List.getLast?_append_of_ne_nil _ hne, hlast]
    | inr hwhole => rw [hwhole.2, hlast]
  rw [List.getLast?_map, Option.map_eq_some_iff] at hend
  obtain ⟨ch, hch, hdot⟩ := hend
  have hp : isEdge ch = false := trimMatches_getLast hch
  rw [(toLower_eq_iff (by decide)).mp hdot] at hp
  cases hp

theorem exists_toLower_of_mem (h : normalizedResolverDomain domain = some name) :
    ∀ ch ∈ name, ∃ c : Char, c.toLower = ch := by
  intro ch hch
  have hmem : ch ∈ (trimMatches isEdge domain).map Char.toLower := by
    cases (normalizedResolverDomain_eq_some.mp h).1 with
    | inl hwild =>
      rw [hwild]
      exact List.mem_append_right _ hch
    | inr hwhole => rwa [hwhole.2]
  obtain ⟨c, -, hc⟩ := List.mem_map.mp hmem
  exact ⟨c, hc⟩

theorem normalizedResolverDomain_safe (h : normalizedResolverDomain domain = some name) :
    SafeName name := by
  obtain ⟨-, hne, hall, -⟩ := normalizedResolverDomain_eq_some.mp h
  apply safeName_of_getLast hne (getLast_normalizedResolverDomain h)
  intro ch hch
  obtain ⟨c, rfl⟩ := exists_toLower_of_mem h ch hch
  exact isNameChar_toLower (hall _ hch)

end Normalized

theorem normalizedResolverDomains_safe {domains : List Text} {name : Text}
    (h : name ∈ normalizedResolverDomains domains) : SafeName name := by
  rw [normalizedResolverDomains, mem_sortDedup, List.mem_filterMap] at h
  obtain ⟨domain, -, hdomain⟩ := h
  exact normalizedResolverDomain_safe hdomain

end NulConnect.Macos
