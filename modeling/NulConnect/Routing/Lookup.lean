import Mathlib.Tactic

/-! Lookups by longest prefix: netmasks, prefixes, and which of the routes that cover an address
a table selects for it. -/
namespace NulConnect.Routing

/-- The mask of the first `length` bits. -/
def netmask (w length : ℕ) : BitVec w := BitVec.allOnes w <<< (w - length)

/-- A network of addresses with a common head. -/
structure Network (w : ℕ) where
  address : BitVec w
  length : ℕ
  le : length ≤ w
  masked : address &&& netmask w length = address
deriving DecidableEq

section Netmask

variable {w : ℕ} {a : BitVec w}

@[simp] theorem netmask_self : netmask w w = BitVec.allOnes w := by
  unfold netmask
  rw [Nat.sub_self, BitVec.shiftLeft_zero]

theorem and_netmask_self : a &&& netmask w w = a := by
  rw [netmask_self, BitVec.and_allOnes]

/-- Masking twice is masking once. -/
theorem and_netmask_and_netmask (length : ℕ) :
    a &&& netmask w length &&& netmask w length = a &&& netmask w length := by
  rw [BitVec.and_assoc, BitVec.and_self]

theorem getLsbD_netmask (length i : ℕ) :
    (netmask w length).getLsbD i = (decide (i < w) && decide (w - length ≤ i)) := by
  simp only [netmask, BitVec.getLsbD_shiftLeft, BitVec.getLsbD_allOnes]
  by_cases h : i < w <;> by_cases h' : i < w - length <;> simp [h, h'] <;> omega

/-- The address after the first one of a network is in the network, where there are two. -/
theorem succ_and_netmask {length : ℕ} (h : length < w) :
    (a &&& netmask w length) + 1 &&& netmask w length = a &&& netmask w length := by
  have hlow : decide (w - length ≤ 0) = false := decide_eq_false (by omega)
  have hdisjoint : (a &&& netmask w length) &&& 1#w = 0#w := by
    apply BitVec.eq_of_getLsbD_eq
    intro i hi
    rw [BitVec.getLsbD_and, BitVec.getLsbD_and, getLsbD_netmask, BitVec.getLsbD_one]
    by_cases hzero : i = 0
    · rw [hzero, hlow]
      simp
    · simp [hzero]
  have hadd : (a &&& netmask w length) + 1#w = (a &&& netmask w length) ||| 1#w :=
    BitVec.add_eq_or_of_and_eq_zero _ _ hdisjoint
  rw [show (1 : BitVec w) = 1#w from rfl, hadd]
  apply BitVec.eq_of_getLsbD_eq
  intro i hi
  simp only [BitVec.getLsbD_and, BitVec.getLsbD_or, getLsbD_netmask, BitVec.getLsbD_one]
  by_cases hzero : i = 0
  · rw [hzero, hlow]
    simp
  · simp [hzero]

namespace Network

def Covers (n : Network w) (a : BitVec w) : Prop := a &&& netmask w n.length = n.address

instance (n : Network w) (a : BitVec w) : Decidable (n.Covers a) :=
  inferInstanceAs (Decidable (_ = _))

/-- The network of a single address. -/
def host (a : BitVec w) : Network w where
  address := a
  length := w
  le := le_rfl
  masked := and_netmask_self

theorem host_covers : (host a).Covers a := and_netmask_self

/-- Of the networks that cover an address, each length has one. -/
theorem eq_of_covers {m n : Network w} (hm : m.Covers a) (hn : n.Covers a)
    (h : m.length = n.length) : m = n := by
  obtain ⟨x, k, hk, hx⟩ := m
  obtain ⟨y, l, hl, hy⟩ := n
  dsimp only at h
  subst h
  have hxy : x = y := hm.symm.trans hn
  subst hxy
  rfl

/-- The network of a length that holds an address. -/
def of (a : BitVec w) (length : ℕ) : Network w where
  address := a &&& netmask w (min length w)
  length := min length w
  le := Nat.min_le_right _ _
  masked := and_netmask_and_netmask _

theorem of_covers (length : ℕ) : (of a length).Covers a := rfl

theorem Covers.eq_of {n : Network w} (h : n.Covers a) : n = of a n.length :=
  eq_of_covers h (of_covers n.length) (Nat.min_eq_left n.le).symm

end Network

end Netmask

section Selected

variable {ρ α : Type*} (covers : ρ → α → Prop) (length : ρ → ℕ) (beats : ρ → ρ → Prop)

/-- The table takes the route for an address: no covering route is longer, and it beats those
that are as long. -/
def Selected (table : Set ρ) (a : α) (r : ρ) : Prop :=
  r ∈ table ∧ covers r a ∧ ∀ r' ∈ table, covers r' a →
    length r' < length r ∨ length r' = length r ∧ beats r r'

variable {covers length} {table : Set ρ} {a : α} {bad p : ρ → Prop} {r : ρ}

/-- Among the routes of a kind there is a longest. -/
theorem exists_longest (hbound : ∃ b, ∀ r ∈ table, length r ≤ b) (hr : r ∈ table) (hp : p r) :
    ∃ top ∈ table, p top ∧ ∀ r' ∈ table, p r' → length r' ≤ length top := by
  obtain ⟨b, hb⟩ := hbound
  have hfin : (length '' {r ∈ table | p r}).Finite := by
    refine (Set.finite_Iic b).subset ?_
    rintro n ⟨r, ⟨hr, -⟩, rfl⟩
    exact hb r hr
  obtain ⟨-, ⟨top, ⟨htop, hptop⟩, rfl⟩, hmax⟩ :=
    Set.exists_max_image _ id hfin ⟨length r, r, ⟨hr, hp⟩, rfl⟩
  exact ⟨top, htop, hptop, fun r' hr' hp' => hmax _ ⟨r', ⟨hr', hp'⟩, rfl⟩⟩

/-- Where bad routes win the ties, no bad route is selected exactly if every bad route that
covers the address is outdone by a good one. -/
theorem not_selected_bad_iff (hbound : ∃ b, ∀ r ∈ table, length r ≤ b) :
    (∀ r, Selected covers length (fun r r' => bad r ∨ ¬ bad r') table a r → ¬ bad r) ↔
      ∀ r ∈ table, bad r → covers r a →
        ∃ r' ∈ table, ¬ bad r' ∧ covers r' a ∧ length r < length r' := by
  constructor
  · intro h r hr hbad hcover
    by_contra hnone
    push Not at hnone
    -- the longest of the bad routes would be selected
    obtain ⟨top, htop, ⟨htbad, htcover⟩, hmax⟩ :=
      exists_longest (p := fun r => bad r ∧ covers r a) hbound hr ⟨hbad, hcover⟩
    refine h top ⟨htop, htcover, fun r' hr' hc' => ?_⟩ htbad
    have hle : length r' ≤ length top := by
      by_cases hb' : bad r'
      · exact hmax r' hr' ⟨hb', hc'⟩
      · exact (hnone r' hr' hb' hc').trans (hmax r hr ⟨hbad, hcover⟩)
    obtain hlt | heq := hle.lt_or_eq
    · exact .inl hlt
    · exact .inr ⟨heq, .inl htbad⟩
  · rintro h r ⟨hr, hcover, hbest⟩ hbad
    obtain ⟨r', hr', -, hc', hlt⟩ := h r hr hbad hcover
    obtain hlt' | ⟨heq, -⟩ := hbest r' hr' hc'
    · omega
    · omega

end Selected

section LongestMatch

variable {w : ℕ} {τ : Type*} {table : Network w → Option τ} {a : BitVec w} {x : τ}

/-- What the table has for the longest of the networks of at most a length that hold the
address. -/
def longestUpTo (table : Network w → Option τ) (a : BitVec w) : ℕ → Option τ
  | 0 => table (.of a 0)
  | length + 1 => (table (.of a (length + 1))).or (longestUpTo table a length)

/-- The longest match of a table with one entry for each network. -/
def longestMatch (table : Network w → Option τ) (a : BitVec w) : Option τ := longestUpTo table a w

theorem longestUpTo_eq_some {k : ℕ} : longestUpTo table a k = some x ↔
    ∃ j ≤ k, table (.of a j) = some x ∧ ∀ i, j < i → i ≤ k → table (.of a i) = none := by
  induction k with
  | zero =>
    constructor
    · intro h
      exact ⟨0, le_rfl, h, fun i hi hle => by omega⟩
    · intro h
      obtain ⟨j, hj, hx, -⟩ := h
      have hzero : j = 0 := by omega
      rwa [hzero] at hx
  | succ k ih =>
    rw [longestUpTo, Option.or_eq_some_iff, ih]
    constructor
    · intro h
      obtain hx | ⟨hnone, j, hj, hx, hlonger⟩ := h
      · exact ⟨k + 1, le_rfl, hx, fun i hi hle => by omega⟩
      · refine ⟨j, by omega, hx, fun i hi hle => ?_⟩
        obtain rfl | hlt := hle.eq_or_lt
        · exact hnone
        · exact hlonger i hi (by omega)
    · intro h
      obtain ⟨j, hj, hx, hlonger⟩ := h
      obtain rfl | hlt := hj.eq_or_lt
      · exact Or.inl hx
      · exact Or.inr ⟨hlonger (k + 1) hlt le_rfl, j, by omega, hx,
          fun i hi hle => hlonger i hi (by omega)⟩

/-- The match is the entry of a network that holds the address, and no longer one has an entry. -/
theorem longestMatch_eq_some : longestMatch table a = some x ↔
    ∃ n : Network w, n.Covers a ∧ table n = some x ∧
      ∀ m : Network w, m.Covers a → table m ≠ none → m.length ≤ n.length := by
  rw [longestMatch, longestUpTo_eq_some]
  constructor
  · intro h
    obtain ⟨j, hj, hx, hlonger⟩ := h
    have hlength : (Network.of a j).length = j := Nat.min_eq_left hj
    refine ⟨.of a j, Network.of_covers j, hx, fun m hm hentry => ?_⟩
    rw [hlength]
    by_contra hlt
    have hnone := hlonger m.length (by omega) m.le
    rw [← hm.eq_of] at hnone
    exact hentry hnone
  · intro h
    obtain ⟨n, hn, hx, hlonger⟩ := h
    rw [hn.eq_of] at hx
    refine ⟨n.length, n.le, hx, fun i hi hle => ?_⟩
    by_contra hentry
    have hshort := hlonger (.of a i) (Network.of_covers i) hentry
    have hlength : (Network.of a i).length = i := Nat.min_eq_left hle
    omega

/-- Where an entry `x` is in question at all, it is the match exactly if every other entry for the
address is outdone by a longer `x`. -/
theorem longestMatch_eq_iff_outdone {n : Network w} (hn : n.Covers a) (hx : table n = some x) :
    longestMatch table a = some x ↔
      ∀ m : Network w, m.Covers a → (∃ y, table m = some y ∧ y ≠ x) →
        ∃ l : Network w, l.Covers a ∧ table l = some x ∧ m.length < l.length := by
  rw [longestMatch_eq_some]
  constructor
  · intro h m hm hother
    obtain ⟨top, htop, htable, hlonger⟩ := h
    obtain ⟨y, hy, hne⟩ := hother
    have hle := hlonger m hm (by rw [hy]; exact Option.some_ne_none y)
    refine ⟨top, htop, htable, lt_of_le_of_ne hle fun hlength => ?_⟩
    have hsame : m = top := Network.eq_of_covers hm htop hlength
    rw [hsame, htable] at hy
    exact hne (Option.some.inj hy).symm
  · intro h
    -- the longest of the networks that have `x`
    have hbound : ∃ b, ∀ m ∈ {m : Network w | m.Covers a ∧ table m = some x}, m.length ≤ b :=
      ⟨w, fun m _ => m.le⟩
    obtain ⟨top, ⟨htop, htable⟩, -, hmax⟩ := exists_longest (p := fun _ => True) hbound
      (show n ∈ {m : Network w | m.Covers a ∧ table m = some x} from ⟨hn, hx⟩) trivial
    refine ⟨top, htop, htable, fun m hm hentry => ?_⟩
    obtain ⟨y, hy⟩ := Option.ne_none_iff_exists'.mp hentry
    by_cases hyx : y = x
    · exact hmax m ⟨hm, hyx ▸ hy⟩ trivial
    · obtain ⟨l, hl, hlx, hlt⟩ := h m hm ⟨y, hy, hyx⟩
      have hle := hmax l ⟨hl, hlx⟩ trivial
      omega

end LongestMatch

end NulConnect.Routing
