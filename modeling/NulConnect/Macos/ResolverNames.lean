import Mathlib.Logic.Relation
import NulConnect.Macos.ResolverOwnership

/-! The names of the resolver files against the domains that they stand for: which spellings of a
domain there are, and when all of them give one name that can be seen. -/
namespace NulConnect.Macos
open Net

/-- One spelling of a domain in place of another. -/
inductive Respelled : Text → Text → Prop where
  | letters {a b : Text} (h : a.map Char.toLower = b.map Char.toLower) : Respelled a b
  | edges {front back : Text} (hf : ∀ ch ∈ front, isEdge ch) (hb : ∀ ch ∈ back, isEdge ch)
      (a : Text) : Respelled (front ++ a ++ back) a
  | wildcard (a : Text) : Respelled ("*.".toList ++ a) a

/-- Two spellings of one domain: they differ in the case of letters, in whitespace and dots
around them and in prefixes for all subdomains. -/
def SameDomain : Text → Text → Prop := Relation.EqvGen Respelled

/-- A text without the beginning that makes no difference. -/
def stripFront : Text → Text
  | [] => []
  | [ch] => if isEdge ch || ch == '*' then [] else [ch]
  | ch :: next :: rest =>
    if isEdge ch then stripFront (next :: rest)
    else if ch = '*' ∧ next = '.' then stripFront rest
    else ch :: next :: rest

/-- The domain that a text is a spelling of. -/
def bare (s : Text) : Text := stripFront ((s.rdropWhile isEdge).map Char.toLower)

section Spellings

variable {a b s front back : Text} {ch : Char}

theorem isEdge_toLower (ch : Char) : isEdge ch.toLower = isEdge ch := by
  have hdot : (ch.toLower == '.') = (ch == '.') := by
    rw [Bool.eq_iff_iff, beq_iff_eq, beq_iff_eq]
    exact toLower_eq_iff (by decide)
  unfold isEdge
  rw [hdot, isWhitespace_toLower]

theorem stripFront_cons (h : isEdge ch) : stripFront (ch :: s) = stripFront s := by
  cases s with
  | nil => simp [stripFront, h]
  | cons next rest => rw [stripFront, if_pos h]

theorem stripFront_append (h : ∀ ch ∈ front, isEdge ch) :
    stripFront (front ++ s) = stripFront s := by
  induction front with
  | nil => rfl
  | cons ch front ih =>
    rw [List.cons_append, stripFront_cons (h ch List.mem_cons_self)]
    exact ih fun c hc => h c (List.mem_cons_of_mem ch hc)

theorem stripFront_wildcard (s : Text) : stripFront ("*.".toList ++ s) = stripFront s := rfl

/-- Nothing is stripped off a text that begins with something else. -/
theorem stripFront_eq_self (hfirst : ∀ ch, s.head? = some ch → isEdge ch = false)
    (hstar : '*' ∉ s) : stripFront s = s := by
  match s with
  | [] => rfl
  | [ch] =>
    have hne : ch ≠ '*' := fun h => hstar (h ▸ List.mem_singleton_self ch)
    simp [stripFront, hfirst ch rfl, hne]
  | ch :: next :: rest =>
    have hne : ch ≠ '*' := fun h => hstar (h ▸ List.mem_cons_self)
    simp [stripFront, hfirst ch rfl, hne]

theorem rdropWhile_map_toLower (s : Text) :
    (s.map Char.toLower).rdropWhile isEdge = (s.rdropWhile isEdge).map Char.toLower := by
  have hp : isEdge ∘ Char.toLower = isEdge := funext isEdge_toLower
  unfold List.rdropWhile
  rw [← List.map_reverse, List.dropWhile_map, hp, List.map_reverse]

theorem bare_letters (h : a.map Char.toLower = b.map Char.toLower) : bare a = bare b := by
  unfold bare
  rw [← rdropWhile_map_toLower, ← rdropWhile_map_toLower, h]

/-- What comes first makes no difference where nothing is left of it, alone or before more. -/
theorem bare_append (hnil : bare front = [])
    (hstrip : ∀ s, stripFront (front.map Char.toLower ++ s) = stripFront s) (a : Text) :
    bare (front ++ a) = bare a := by
  unfold bare at hnil ⊢
  rw [rdropWhile_append]
  by_cases ha : a.all isEdge
  · have hgone : a.rdropWhile isEdge = [] := by
      rw [List.rdropWhile_eq_nil_iff]
      exact List.all_eq_true.mp ha
    rw [if_pos ha, hnil, hgone]
    rfl
  · rw [if_neg ha, List.map_append, hstrip]

theorem bare_edges (hf : ∀ ch ∈ front, isEdge ch) (hb : ∀ ch ∈ back, isEdge ch) (a : Text) :
    bare (front ++ a ++ back) = bare a := by
  have hback : bare (front ++ a ++ back) = bare (front ++ a) := by
    unfold bare
    rw [rdropWhile_append, if_pos (List.all_eq_true.mpr hb)]
  have hgone : front.rdropWhile isEdge = [] := by
    rw [List.rdropWhile_eq_nil_iff]
    exact hf
  have hnil : bare front = [] := by
    unfold bare
    rw [hgone]
    rfl
  rw [hback]
  apply bare_append hnil
  intro s
  apply stripFront_append
  intro ch hch
  obtain ⟨c, hc, rfl⟩ := List.mem_map.mp hch
  rw [isEdge_toLower]
  exact hf c hc

theorem bare_wildcard (a : Text) : bare ("*.".toList ++ a) = bare a := by
  have hlow : "*.".toList.map Char.toLower = "*.".toList := by decide
  apply bare_append (by decide)
  rw [hlow]
  exact stripFront_wildcard

/-- All spellings of a domain are of one domain. -/
theorem bare_eq_of_sameDomain (h : SameDomain a b) : bare a = bare b := by
  induction h with
  | rel a b hr =>
    cases hr with
    | letters h => exact bare_letters h
    | edges hf hb => exact bare_edges hf hb b
    | wildcard => exact bare_wildcard b
  | refl a => rfl
  | symm a b _ ih => exact ih.symm
  | trans a b c _ _ ih ih' => exact ih.trans ih'

end Spellings

/-- A spelling with a prefix for all subdomains and then another dot. -/
def Hiding (domain : Text) : Prop :=
  ∃ rest, trimMatches isEdge domain = "*..".toList ++ rest ∧ ∀ ch ∈ rest, isDomainChar ch

/-- The names are in a form of their own: normal, sorted, without a dot at either end, and one for
each domain; and no file is written under a name that hides it. -/
structure Canonical (domains : List Text) : Prop where
  idempotent : normalizedResolverDomains (normalizedResolverDomains domains) =
    normalizedResolverDomains domains
  sorted : (normalizedResolverDomains domains).Pairwise (· ≤ ·)
  distinct : (normalizedResolverDomains domains).Nodup
  ends : ∀ name ∈ normalizedResolverDomains domains,
    name.head? ≠ some '.' ∧ name.getLast? ≠ some '.'
  oneFile : ∀ a ∈ domains, ∀ b ∈ domains, SameDomain a b →
    (normalizedResolverDomains [a, b]).length ≤ 1
  visible : ∀ (env : ResolverEnv) (server : Text) (fakeDns : Option SocketAddr)
    (s : ResolverState),
    ∀ name ∈ (s.configureScopedDnsResolvers env domains server fakeDns).2.written,
      name.head? ≠ some '.'

section Names

variable {domain name : Text} {domains : List Text}

theorem isDomainChar_toLower (ch : Char) : isDomainChar ch.toLower = isDomainChar ch := by
  by_cases hch : ch.isAlpha
  · have hlow : ch.toLower.isAlpha := by rwa [Char.isAlpha_toLower_eq_isAlpha]
    simp [isDomainChar, Char.isAlphanum, hch, hlow]
  · have hup : ¬ ch.isUpper := fun hup => hch (by simp [Char.isAlpha, hup])
    rw [Char.toLower_eq_of_not_isUpper hup]

theorem star_not_mem (h : ∀ ch ∈ name, isDomainChar ch) : '*' ∉ name := by
  intro hstar
  have hch := h '*' hstar
  revert hch
  decide

/-- A hiding spelling gives a name, and the name begins with a dot. -/
theorem exists_hidden (h : Hiding domain) :
    ∃ name, normalizedResolverDomain domain = some name ∧ name.head? = some '.' := by
  obtain ⟨rest, htrim, hrest⟩ := h
  refine ⟨'.' :: rest.map Char.toLower, ?_, rfl⟩
  apply normalizedResolverDomain_eq_some.mpr
  rw [htrim, List.map_append]
  refine ⟨Or.inl rfl, List.cons_ne_nil _ _, ?_, ?_⟩
  · intro ch hch
    obtain rfl | hmem := List.mem_cons.mp hch
    · decide
    · obtain ⟨c, hc, rfl⟩ := List.mem_map.mp hmem
      rw [isDomainChar_toLower]
      exact hrest c hc
  · intro hlocal
    cases hlocal

/-- A name that begins with a dot comes from a hiding spelling. -/
theorem hiding_of_hidden (h : normalizedResolverDomain domain = some name)
    (hdot : name.head? = some '.') : Hiding domain := by
  obtain ⟨hleft, -, hall, -⟩ := normalizedResolverDomain_eq_some.mp h
  obtain ⟨low, rfl⟩ := List.head?_eq_some_iff.mp hdot
  have hchars : ∀ rest : Text, rest.map Char.toLower = low → ∀ ch ∈ rest, isDomainChar ch := by
    rintro rest rfl ch hch
    rw [← isDomainChar_toLower]
    exact hall _ (List.mem_cons_of_mem _ (List.mem_map_of_mem hch))
  have hpoint {ch d : Char} (hd : d.isAlpha = false) (hlow : ch.toLower = d) : ch = d :=
    (toLower_eq_iff hd).mp hlow
  cases hleft with
  | inl hwild =>
    obtain ⟨star, tail, htrim, hstar, htail⟩ := List.map_eq_cons_iff.mp hwild
    obtain ⟨dot, tail, rfl, hdot₁, htail⟩ := List.map_eq_cons_iff.mp htail
    obtain ⟨dot', rest, rfl, hdot₂, hrest⟩ := List.map_eq_cons_iff.mp htail
    obtain rfl := hpoint (by decide) hstar
    obtain rfl := hpoint (by decide) hdot₁
    obtain rfl := hpoint (by decide) hdot₂
    exact ⟨rest, htrim, hchars rest hrest⟩
  | inr hwhole =>
    obtain ⟨dot, rest, htrim, hdot₁, -⟩ := List.map_eq_cons_iff.mp hwhole.2
    obtain rfl := hpoint (by decide) hdot₁
    have hedge : isEdge '.' = false := by
      apply trimMatches_head (s := domain)
      rw [htrim, List.head?_cons]
    cases hedge

theorem not_isEdge {ch : Char} (h : isDomainChar ch) (hdot : ch ≠ '.') : isEdge ch = false := by
  have hspace : isWhitespace ch = false := by
    unfold isDomainChar at h
    simp only [Char.isAlphanum, Bool.or_eq_true, beq_iff_eq] at h
    obtain (((halpha | hdigit) | rfl) | rfl) | rfl := h
    · exact not_isWhitespace_of_isAlpha halpha
    · have hrange : 48 ≤ ch.toNat ∧ ch.toNat ≤ 57 := by
        simp only [Char.isDigit, Bool.and_eq_true, decide_eq_true_eq, ge_iff_le,
          UInt32.le_iff_toNat_le] at hdigit
        exact hdigit
      rw [Bool.eq_false_iff]
      simp only [isWhitespace, ne_eq, Bool.or_eq_true, Bool.and_eq_true, decide_eq_true_eq,
        beq_iff_eq]
      omega
    all_goals decide
  simp [isEdge, hdot, hspace]

/-- What a name is that does not begin with a dot. -/
structure Plain (name : Text) : Prop where
  first : ∀ ch, name.head? = some ch → isEdge ch = false
  last : ∀ ch, name.getLast? = some ch → isEdge ch = false
  lower : name.map Char.toLower = name
  noStar : '*' ∉ name

theorem plain_of_visible (h : normalizedResolverDomain domain = some name)
    (hdot : name.head? ≠ some '.') : Plain name := by
  obtain ⟨-, -, hall, -⟩ := normalizedResolverDomain_eq_some.mp h
  constructor
  · intro ch hch
    apply not_isEdge (hall ch (List.mem_of_mem_head? hch))
    rintro rfl
    exact hdot hch
  · intro ch hch
    apply not_isEdge (hall ch (List.mem_of_getLast? hch))
    rintro rfl
    exact getLast_normalizedResolverDomain h hch
  · refine (List.map_congr_left fun ch hch => ?_).trans (List.map_id _)
    obtain ⟨c, rfl⟩ := exists_toLower_of_mem h ch hch
    exact Char.toLower_toLower_eq_toLower c
  · exact star_not_mem hall

/-- Such a name is the domain that it is a spelling of. -/
theorem Plain.bare (h : Plain name) : bare name = name := by
  have hend : name.rdropWhile isEdge = name := by
    rw [List.rdropWhile_eq_self_iff]
    intro hne
    have hlast := h.last _ (List.getLast?_eq_some_getLast hne)
    rw [hlast]
    exact Bool.false_ne_true
  unfold Macos.bare
  rw [hend, h.lower, stripFront_eq_self h.first h.noStar]

/-- It is its own name. -/
theorem Plain.normalized (h : Plain name) (hsome : normalizedResolverDomain domain = some name) :
    normalizedResolverDomain name = some name := by
  obtain ⟨-, hne, hall, hlocal⟩ := normalizedResolverDomain_eq_some.mp hsome
  have htrim : trimMatches isEdge name = name := trimMatches_eq_self h.first h.last
  have hnowild : ¬ "*.".toList <+: name := by
    intro hp
    exact h.noStar (hp.subset List.mem_cons_self)
  apply normalizedResolverDomain_eq_some.mpr
  rw [htrim, h.lower]
  exact ⟨Or.inr ⟨hnowild, rfl⟩, hne, hall, hlocal⟩

/-- A domain and its name are spellings of one domain. -/
theorem sameDomain_normalized (h : normalizedResolverDomain domain = some name) :
    SameDomain domain name := by
  obtain ⟨front, back, hsplit, hfront, hback⟩ := trimMatches_split isEdge domain
  have htrim : SameDomain domain (trimMatches isEdge domain) := by
    apply Relation.EqvGen.rel
    rw [hsplit]
    have hedges := Respelled.edges hfront hback (trimMatches isEdge domain)
    rwa [← hsplit] at hedges ⊢
  have hlower : SameDomain (trimMatches isEdge domain)
      ((trimMatches isEdge domain).map Char.toLower) := by
    apply Relation.EqvGen.rel
    apply Respelled.letters
    rw [List.map_map]
    apply List.map_congr_left
    intro ch _
    exact (Char.toLower_toLower_eq_toLower ch).symm
  apply htrim.trans
  apply hlower.trans
  cases (normalizedResolverDomain_eq_some.mp h).1 with
  | inl hwild =>
    rw [hwild]
    exact .rel _ _ (.wildcard name)
  | inr hwhole =>
    rw [hwhole.2]
    exact .refl _

/-- Where it can be seen, the name is that of the domain however it is spelled. -/
theorem eq_bare_of_visible (h : normalizedResolverDomain domain = some name)
    (hdot : name.head? ≠ some '.') : name = bare domain := by
  rw [bare_eq_of_sameDomain (sameDomain_normalized h)]
  exact (plain_of_visible h hdot).bare.symm

theorem mem_normalizedResolverDomains : name ∈ normalizedResolverDomains domains ↔
    ∃ domain ∈ domains, normalizedResolverDomain domain = some name := by
  rw [normalizedResolverDomains, mem_sortDedup, List.mem_filterMap]

/-- The names are in their form just if no spelling is a hiding one. -/
theorem canonical_iff (domains : List Text) :
    Canonical domains ↔ ∀ domain ∈ domains, ¬ Hiding domain := by
  constructor
  · intro h domain hmem hhiding
    obtain ⟨name, hname, hdot⟩ := exists_hidden hhiding
    exact (h.ends name (mem_normalizedResolverDomains.mpr ⟨domain, hmem, hname⟩)).1 hdot
  · intro h
    have hvisible : ∀ domain ∈ domains, ∀ name, normalizedResolverDomain domain = some name →
        name.head? ≠ some '.' :=
      fun domain hmem name hname hdot => h domain hmem (hiding_of_hidden hname hdot)
    have hlt : ∀ l, (normalizedResolverDomains l).Pairwise (· < ·) :=
      fun l => pairwise_lt_sortDedup _
    constructor
    · have hself : (normalizedResolverDomains domains).filterMap normalizedResolverDomain =
          normalizedResolverDomains domains := by
        refine (List.filterMap_congr fun name hname => ?_).trans List.filterMap_some
        obtain ⟨domain, hmem, hsome⟩ := mem_normalizedResolverDomains.mp hname
        exact (plain_of_visible hsome (hvisible domain hmem name hsome)).normalized hsome
      rw [normalizedResolverDomains, hself]
      exact sortDedup_of_pairwise_lt (hlt domains)
    · exact (hlt domains).imp le_of_lt
    · exact (hlt domains).imp ne_of_lt
    · intro name hname
      obtain ⟨domain, hmem, hsome⟩ := mem_normalizedResolverDomains.mp hname
      exact ⟨hvisible domain hmem name hsome, getLast_normalizedResolverDomain hsome⟩
    · intro a ha b hb hsame
      have hbare : ∀ name ∈ normalizedResolverDomains [a, b], name = bare a := by
        intro name hname
        obtain ⟨domain, hmem, hsome⟩ := mem_normalizedResolverDomains.mp hname
        obtain rfl | rfl : domain = a ∨ domain = b := by simpa using hmem
        · exact eq_bare_of_visible hsome (hvisible domain ha name hsome)
        · rw [bare_eq_of_sameDomain hsame]
          exact eq_bare_of_visible hsome (hvisible domain hb name hsome)
      apply length_le_one (hlt _)
      intro x hx y hy
      rw [hbare x hx, hbare y hy]
    · intro env server fakeDns s name hname
      rw [(s.configureScopedDnsResolvers_spec env domains server fakeDns).written] at hname
      obtain ⟨bytes, hleaves⟩ := ResolverState.mem_reached.mp hname
      have hlisted := List.mem_of_mem_filter (ResolverState.mem_pending_of_leaves hleaves)
      obtain ⟨domain, hmem, hsome⟩ := mem_normalizedResolverDomains.mp hlisted
      exact hvisible domain hmem name hsome

end Names

/-- The second dot of `*..example` is the first character of the name, a second run takes it off,
and the file is another than that of `example`. -/
theorem hidden_wildcard : normalizedResolverDomains ["*..example".toList] = [".example".toList] ∧
    normalizedResolverDomains [".example".toList] = ["example".toList] ∧
    ¬ Canonical ["*..example".toList] := by
  have hfirst : normalizedResolverDomains ["*..example".toList] = [".example".toList] := by
    decide +kernel
  have hsecond : normalizedResolverDomains [".example".toList] = ["example".toList] := by
    decide +kernel
  refine ⟨hfirst, hsecond, fun h => ?_⟩
  have hsame := h.idempotent
  rw [hfirst, hsecond] at hsame
  revert hsame
  decide

end NulConnect.Macos
