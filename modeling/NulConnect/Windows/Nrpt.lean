import NulConnect.Net.AddrText
import NulConnect.Net.SortDedup
import NulConnect.Net.Trim
import NulConnect.Net.Utf16

/-! The rule for name resolution: `nrpt_namespaces`, its encoding for the registry, and
`apply_nrpt` and `clear_nrpt`. -/
namespace NulConnect.Windows
open Net

/-- `trim_start_matches("*.")`. -/
def trimWildcards : Text → Text
  | '*' :: '.' :: rest => trimWildcards rest
  | s => s

def isEdge (c : Char) : Bool := c == '.' || isWhitespace c

def trimmedDomain (domain : Text) : Text := trimMatches isEdge (trimWildcards (trim domain))

/-- The namespace for a managed domain, where there is one. -/
def nrptNamespace (domain : Text) : Option Text :=
  let domain := (trimmedDomain domain).map Char.toLower
  if domain = [] ∨ (Ipv4Addr.parse domain).isSome ∨ domain.contains ':' then none
  else if domain.any fun c => isWhitespace c || c == '/' || c == '\\' then none
  else some domain

def nrptNamespaces (domains : List Text) : List Text :=
  sortDedup ((domains.filterMap nrptNamespace).flatMap fun domain => [domain, '.' :: domain])

def multiSz (values : List Text) : List UInt8 := utf16Bytes (multiSzUnits values)

inductive RegKind where
  | dword
  | sz
  | multiSz
deriving DecidableEq

structure RegValue where
  name : Text
  kind : RegKind
  data : List UInt8
deriving DecidableEq

/-- What the key of the rule holds. -/
def nrptValues (names : List Text) (dnsServer : Ipv4Addr) : List RegValue :=
  [⟨"Version".toList, .dword, [2, 0, 0, 0]⟩,
    ⟨"Name".toList, .multiSz, multiSz names⟩,
    ⟨"GenericDNSServers".toList, .sz, utf16Bytes (encodeUtf16 dnsServer.toText ++ [0])⟩,
    ⟨"ConfigOptions".toList, .dword, [8, 0, 0, 0]⟩,
    ⟨"IPSECCARestriction".toList, .sz, utf16Bytes [0]⟩]

/-- The key of the rule under the local table and under the policies, with the values written to
it, and whether there is a policy table. -/
structure NrptRules where
  localRule : Option (List RegValue)
  policyRule : Option (List RegValue)
  policyActive : Bool
deriving DecidableEq

/-- What the registry says to `apply_nrpt`. -/
structure NrptEnv where
  createKey : Option Text
  setValue : RegValue → Option Text

def clearNrpt (rules : NrptRules) : NrptRules :=
  { rules with localRule := none, policyRule := none }

def NrptRules.put (rules : NrptRules) (values : List RegValue) : NrptRules :=
  if rules.policyActive then { rules with policyRule := some values }
  else { rules with localRule := some values }

/-- The values one after another, up to the first that cannot be written. -/
def setValues (failure : RegValue → Option Text) :
    List RegValue → List RegValue → Except Text Unit × List RegValue
  | written, [] => (.ok (), written)
  | written, value :: rest =>
    match failure value with
    | some err => (.error err, written)
    | none => setValues failure (written ++ [value]) rest

def applyNrpt (env : NrptEnv) (domains : List Text) (dnsServer : Ipv4Addr) (rules : NrptRules) :
    Except Text ℕ × NrptRules :=
  let rules := clearNrpt rules
  let names := nrptNamespaces domains
  if names = [] then (.ok 0, rules)
  else
    match env.createKey with
    | some err => (.error err, rules)
    | none =>
      match setValues env.setValue [] (nrptValues names dnsServer) with
      | (.error err, written) => (.error err, rules.put written)
      | (.ok _, written) => (.ok names.length, rules.put written)

/-- The encoded list says what was encoded: a list that rises strictly, holds a name exactly with
its suffix entry, and nothing that does not come from one of the domains. -/
structure SurvivesEncoding (domains : List Text) : Prop where
  decodes : decodeMultiSz (multiSz (nrptNamespaces domains)) = some (nrptNamespaces domains)
  rises : ∀ names, decodeMultiSz (multiSz (nrptNamespaces domains)) = some names →
    names.Pairwise (· < ·)
  suffixes : ∀ names, decodeMultiSz (multiSz (nrptNamespaces domains)) = some names →
    ∀ name : Text, name.head? ≠ some '.' → (name ∈ names ↔ '.' :: name ∈ names)
  derived : ∀ names, decodeMultiSz (multiSz (nrptNamespaces domains)) = some names →
    ∀ name ∈ names, ∃ domain ∈ domains, ∃ namespc, nrptNamespace domain = some namespc ∧
      (name = namespc ∨ name = '.' :: namespc)

variable {domains : List Text} {domain name s : Text}

theorem mem_trimWildcards {c : Char} (hstar : c ≠ '*') (hdot : c ≠ '.') :
    c ∈ trimWildcards s ↔ c ∈ s := by
  fun_induction trimWildcards s with
  | case1 rest ih => simp [ih, hstar, hdot]
  | case2 s h => rfl

/-- Characters that are neither white space nor of a wildcard stay. -/
theorem mem_trimmedDomain {c : Char} (hspace : isWhitespace c = false) (hstar : c ≠ '*')
    (hdot : c ≠ '.') : c ∈ trimmedDomain domain ↔ c ∈ domain := by
  have hedge : isEdge c = false := by simp [isEdge, hspace, hdot]
  rw [trimmedDomain, mem_trimMatches_of_not hedge, mem_trimWildcards hstar hdot, trim,
    mem_trimMatches_of_not hspace]

theorem mem_map_toLower {c : Char} (hc : c.isAlpha = false) :
    c ∈ s.map Char.toLower ↔ c ∈ s := by
  constructor
  · intro h
    obtain ⟨d, hd, hlow⟩ := List.mem_map.mp h
    rw [toLower_eq_iff hc] at hlow
    rwa [← hlow]
  · intro h
    exact List.mem_map.mpr ⟨c, h, (toLower_eq_iff hc).mpr rfl⟩

theorem nrptNamespace_eq_some {namespc : Text} (h : nrptNamespace domain = some namespc) :
    namespc = (trimmedDomain domain).map Char.toLower ∧ namespc ≠ [] := by
  unfold nrptNamespace at h
  dsimp only at h
  split_ifs at h with hrefused hchars
  have heq := Option.some.inj h
  rw [heq] at hrefused
  exact ⟨heq.symm, fun hnil => hrefused (Or.inl hnil)⟩

theorem nrptNamespace_head {namespc : Text} (h : nrptNamespace domain = some namespc) :
    namespc.head? ≠ some '.' := by
  intro hdot
  rw [(nrptNamespace_eq_some h).1, List.head?_map] at hdot
  obtain ⟨c, hc, hlow⟩ := Option.map_eq_some_iff.mp hdot
  have hedge := trimMatches_head hc
  rw [toLower_eq_iff (by decide)] at hlow
  rw [hlow] at hedge
  revert hedge
  decide

theorem mem_nrptNamespaces : name ∈ nrptNamespaces domains ↔
    ∃ domain ∈ domains, ∃ namespc, nrptNamespace domain = some namespc ∧
      (name = namespc ∨ name = '.' :: namespc) := by
  unfold nrptNamespaces
  rw [mem_sortDedup, List.mem_flatMap]
  constructor
  · intro h
    obtain ⟨namespc, hmem, hname⟩ := h
    obtain ⟨domain, hdomain, hnamespace⟩ := List.mem_filterMap.mp hmem
    have hcases : name = namespc ∨ name = '.' :: namespc := by simpa using hname
    exact ⟨domain, hdomain, namespc, hnamespace, hcases⟩
  · intro h
    obtain ⟨domain, hdomain, namespc, hnamespace, hname⟩ := h
    have hmem := List.mem_filterMap.mpr ⟨domain, hdomain, hnamespace⟩
    exact ⟨namespc, hmem, by simpa using hname⟩

theorem ne_nil_of_mem_nrptNamespaces (h : name ∈ nrptNamespaces domains) : name ≠ [] := by
  obtain ⟨domain, -, namespc, hnamespace, hname⟩ := mem_nrptNamespaces.mp h
  cases hname with
  | inl hsame => rw [hsame]; exact (nrptNamespace_eq_some hnamespace).2
  | inr hsuffix => rw [hsuffix]; exact List.cons_ne_nil _ _

theorem mem_nrptNamespaces_suffix (hname : name.head? ≠ some '.') :
    name ∈ nrptNamespaces domains ↔ '.' :: name ∈ nrptNamespaces domains := by
  simp only [mem_nrptNamespaces]
  constructor
  · intro h
    obtain ⟨domain, hdomain, namespc, hnamespace, hsame | hsuffix⟩ := h
    · exact ⟨domain, hdomain, namespc, hnamespace, Or.inr (congrArg _ hsame)⟩
    · exact absurd (congrArg List.head? hsuffix) hname
  · intro h
    obtain ⟨domain, hdomain, namespc, hnamespace, hsame | hsuffix⟩ := h
    · exact absurd (congrArg List.head? hsame).symm (nrptNamespace_head hnamespace)
    · exact ⟨domain, hdomain, namespc, hnamespace, Or.inl (List.cons.inj hsuffix).2⟩

theorem nul_notMem_toText (ip : Ipv4Addr) : '\x00' ∉ ip.toText := by
  intro h
  cases isDigit_or_dot_of_mem_toText h with
  | inl hdigit => revert hdigit; decide
  | inr hdot => revert hdot; decide

/-- A character that keeps a domain from having a namespace. -/
def isRefused (c : Char) : Bool := isWhitespace c || c == ':' || c == '/' || c == '\\'

theorem isRefused_toLower (c : Char) : isRefused c.toLower = isRefused c := by
  have hbeq : ∀ d : Char, d.isAlpha = false → (c.toLower == d) = (c == d) := by
    intro d hd
    rw [Bool.eq_iff_iff, beq_iff_eq, beq_iff_eq, toLower_eq_iff hd]
  rw [isRefused, isRefused, isWhitespace_toLower, hbeq ':' (by decide), hbeq '/' (by decide),
    hbeq '\\' (by decide)]

/-- A domain with a zero character has a namespace unless the filter finds another character. -/
theorem nul_mem_nrptNamespace_iff :
    (∃ namespc, nrptNamespace domain = some namespc ∧ '\x00' ∈ namespc) ↔
      '\x00' ∈ domain ∧ (trimmedDomain domain).any isRefused = false := by
  set low := (trimmedDomain domain).map Char.toLower with hlow
  have hnul : '\x00' ∈ low ↔ '\x00' ∈ domain := by
    rw [hlow, mem_map_toLower (by decide), mem_trimmedDomain (by decide) (by decide) (by decide)]
  have hany : low.any isRefused = (trimmedDomain domain).any isRefused := by
    rw [hlow, List.any_map]
    exact congrArg _ (funext isRefused_toLower)
  have hsplit : low.any isRefused =
      (low.contains ':' || low.any fun c => isWhitespace c || c == '/' || c == '\\') := by
    rw [Bool.eq_iff_iff]
    simp only [isRefused, List.any_eq_true, Bool.or_eq_true, beq_iff_eq, List.contains_iff_mem]
    constructor
    · intro h
      obtain ⟨c, hc, ((hspace | hcolon) | hslash) | hback⟩ := h
      · exact Or.inr ⟨c, hc, Or.inl (Or.inl hspace)⟩
      · exact Or.inl (hcolon ▸ hc)
      · exact Or.inr ⟨c, hc, Or.inl (Or.inr hslash)⟩
      · exact Or.inr ⟨c, hc, Or.inr hback⟩
    · intro h
      obtain hcolon | ⟨c, hc, (hspace | hslash) | hback⟩ := h
      · exact ⟨':', hcolon, Or.inl (Or.inl (Or.inr rfl))⟩
      · exact ⟨c, hc, Or.inl (Or.inl (Or.inl hspace))⟩
      · exact ⟨c, hc, Or.inl (Or.inr hslash)⟩
      · exact ⟨c, hc, Or.inr hback⟩
  rw [← hany, hsplit, Bool.or_eq_false_iff, ← hnul]
  constructor
  · intro h
    obtain ⟨namespc, hnamespace, hmem⟩ := h
    have hsame := (nrptNamespace_eq_some hnamespace).1
    unfold nrptNamespace at hnamespace
    dsimp only at hnamespace
    rw [← hlow] at hnamespace hsame
    split_ifs at hnamespace with hrefused hchars
    have hcolon : ¬ low.contains ':' := fun hc => hrefused (Or.inr (Or.inr hc))
    exact ⟨hsame ▸ hmem, Bool.eq_false_iff.mpr hcolon, Bool.eq_false_iff.mpr hchars⟩
  · intro h
    obtain ⟨hmem, hcolon, hchars⟩ := h
    have hne : low ≠ [] := List.ne_nil_of_mem hmem
    have hparse : ¬ (Ipv4Addr.parse low).isSome := by
      intro hsome
      obtain ⟨ip, hip⟩ := Option.isSome_iff_exists.mp hsome
      exact nul_notMem_toText ip (Ipv4Addr.parse_eq_some hip ▸ hmem)
    refine ⟨low, ?_, hmem⟩
    unfold nrptNamespace
    dsimp only
    rw [← hlow, hcolon, hchars, if_neg (by simp [hne, hparse]), if_neg Bool.false_ne_true]

theorem nul_notMem_iff : (∀ name ∈ nrptNamespaces domains, '\x00' ∉ name) ↔
    ∀ domain ∈ domains, '\x00' ∈ domain → (trimmedDomain domain).any isRefused := by
  constructor
  · intro h domain hdomain hnul
    by_contra hany
    have hexists := nul_mem_nrptNamespace_iff.mpr ⟨hnul, Bool.eq_false_iff.mpr hany⟩
    obtain ⟨namespc, hnamespace, hmem⟩ := hexists
    have hname : namespc ∈ nrptNamespaces domains :=
      mem_nrptNamespaces.mpr ⟨domain, hdomain, namespc, hnamespace, Or.inl rfl⟩
    exact h namespc hname hmem
  · intro h name hname hnul
    obtain ⟨domain, hdomain, namespc, hnamespace, hcases⟩ := mem_nrptNamespaces.mp hname
    have hmem : '\x00' ∈ namespc := by
      cases hcases with
      | inl hsame => exact hsame ▸ hnul
      | inr hsuffix =>
        rw [hsuffix, List.mem_cons] at hnul
        exact hnul.resolve_left (by decide)
    have hfree := nul_mem_nrptNamespace_iff.mp ⟨namespc, hnamespace, hmem⟩
    rw [h domain hdomain hfree.1] at hfree
    cases hfree.2

/-- Exactly the zero character, which the filter lets through, breaks the encoding. -/
theorem survivesEncoding_iff (domains : List Text) : SurvivesEncoding domains ↔
    ∀ domain ∈ domains, '\x00' ∈ domain → (trimmedDomain domain).any isRefused := by
  have hdecode := decodeMultiSz_eq_some_iff fun name (hname : name ∈ nrptNamespaces domains) =>
    ne_nil_of_mem_nrptNamespaces hname
  constructor
  · intro h
    exact nul_notMem_iff.mp (hdecode.mp h.decodes)
  · intro h
    have hdecodes : decodeMultiSz (multiSz (nrptNamespaces domains)) =
        some (nrptNamespaces domains) := hdecode.mpr (nul_notMem_iff.mpr h)
    constructor
    · exact hdecodes
    · intro names hnames
      rw [hdecodes] at hnames
      rw [← Option.some.inj hnames]
      exact pairwise_lt_sortDedup _
    · intro names hnames name hname
      rw [hdecodes] at hnames
      rw [← Option.some.inj hnames]
      exact mem_nrptNamespaces_suffix hname
    · intro names hnames name hname
      rw [hdecodes] at hnames
      rw [← Option.some.inj hnames] at hname
      exact mem_nrptNamespaces.mp hname

/-- Two names instead of one. -/
theorem splits_at_nul : ¬ SurvivesEncoding ["a\x00b".toList] := by
  intro h
  have hnames : decodeMultiSz (multiSz (nrptNamespaces ["a\x00b".toList])) =
      some [".a".toList, "b".toList, "a".toList, "b".toList] := by decide
  have hsame := h.decodes.symm.trans hnames
  revert hsame
  decide

end NulConnect.Windows
