import NulConnect.Transition.System
import NulConnect.Transition.Ring
import NulConnect.FakeDns.Pool

/-! The pool over whole runs: it holds the domains of its last allocations, and a new one
takes the place of the oldest. -/
namespace NulConnect.FakeDns
open Net Transition Ring

/-- Calls of `allocate` on a fresh pool. -/
def poolSystem : System FakeIpPool Text where
  init pool := pool = .empty
  step pool domain := some (pool.allocate domain).2

/-- The fresh allocations, the last one first. -/
abbrev Allocations := List (Text × Ipv4Addr)

def Allocations.record (history : Allocations) (pool : FakeIpPool) (domain : Text) : Allocations :=
  if pool.byDomain (normalize domain) = none then
    (normalize domain, (pool.allocate domain).1) :: history
  else history

/-- The pool together with its history. -/
def allocations : System (FakeIpPool × Allocations) Text :=
  poolSystem.observe [] Allocations.record

namespace FakeIpPool

variable {pool : FakeIpPool} {history : Allocations} {domain : Text}

structure InOrder (pool : FakeIpPool) (history : Allocations) : Prop where
  valid : pool.Valid
  recent : Recent fakePoolSize pool.next pool.slots (history.map Prod.fst)
  /-- The last domains and the one that has just left are different. -/
  distinct : ((history.map Prod.fst).take (fakePoolSize + 1)).Nodup
  address : ∀ a q, a < fakePoolSize → history[a]? = some q →
    q.2 = slotIp (slotOf fakePoolSize pool.next a)

theorem inOrder_empty : empty.InOrder [] where
  valid := valid_empty
  recent := recent_empty
  distinct := .nil
  address _ _ _ h := by cases h

namespace InOrder

theorem slot_of_entry (h : pool.InOrder history) {a : ℕ} {q : Text × Ipv4Addr}
    (ha : a < fakePoolSize) (hq : history[a]? = some q) :
    pool.slots (slotOf fakePoolSize pool.next a) = some q.1 := by
  rw [h.recent a ha, List.getElem?_map, hq]
  rfl

/-- A domain that is live is one of the last allocations. -/
theorem entry_of_live (h : pool.InOrder history) {slot : ℕ}
    (hd : pool.byDomain domain = some slot) : ∃ a < fakePoolSize,
      slotOf fakePoolSize pool.next a = slot ∧ (history.map Prod.fst)[a]? = some domain := by
  have hs := (h.valid.inverse _ _).mp hd
  exact h.recent.exists_getElem? h.valid.next (h.valid.slots slot (by simp [hs])) hs

theorem not_recent_of_fresh (h : pool.InOrder history) (hd : pool.byDomain domain = none) :
    domain ∉ (history.map Prod.fst).take fakePoolSize := by
  intro hmem
  obtain ⟨a, ha⟩ := List.mem_iff_getElem?.mp hmem
  rw [List.getElem?_take] at ha
  split_ifs at ha with hlt
  have hs := (h.recent a hlt).trans ha
  simp [(h.valid.inverse _ _).mpr hs] at hd

theorem allocate (h : pool.InOrder history) (domain : Text) :
    (pool.allocate domain).2.InOrder (history.record pool domain) := by
  unfold Allocations.record
  split_ifs with hd
  · have hv := h.valid.allocate domain
    rw [allocate_fresh hd] at hv ⊢
    refine ⟨hv, h.recent.push h.valid.next _, ?_, fun a q ha hq => ?_⟩
    · have hsub := (List.take_sublist_take_left (l := history.map Prod.fst)
        (Nat.le_succ fakePoolSize)).nodup h.distinct
      exact List.nodup_cons.mpr ⟨h.not_recent_of_fresh hd, hsub⟩
    · cases a with
      | zero =>
        obtain rfl := Option.some.inj hq
        simp only [slotOf_zero h.valid.next]
      | succ a =>
        dsimp only
        rw [slotOf_succ h.valid.next ha]
        exact h.address a q (by omega) hq
  · obtain ⟨slot, hs⟩ := Option.ne_none_iff_exists'.mp hd
    rw [allocate_known hs]
    exact h

/-- A mapping is there until the whole range has been handed out after it. -/
theorem survives (h : pool.InOrder history) {a : ℕ} {ip : Ipv4Addr} (ha : a < fakePoolSize)
    (hq : history[a]? = some (domain, ip)) : pool.domainFor ip = some domain ∧
      ∃ slot, pool.byDomain domain = some slot ∧ slotIp slot = ip := by
  have hs := h.slot_of_entry ha hq
  have hip : ip = slotIp (slotOf fakePoolSize pool.next a) := h.address a _ ha hq
  have hlt := h.valid.slots (slotOf fakePoolSize pool.next a) (by simp [hs])
  refine ⟨?_, _, (h.valid.inverse _ _).mpr hs, hip.symm⟩
  rw [hip, domainFor_slotIp hlt, hs]

theorem evicted (h : pool.InOrder history) {ip : Ipv4Addr}
    (hq : history[fakePoolSize]? = some (domain, ip)) : pool.byDomain domain = none := by
  by_contra hd
  obtain ⟨slot, hs⟩ := Option.ne_none_iff_exists'.mp hd
  obtain ⟨a, ha, -, he⟩ := h.entry_of_live hs
  have hlast : (history.map Prod.fst)[fakePoolSize]? = some domain := by
    rw [List.getElem?_map, hq]
    rfl
  have hlen : fakePoolSize < (history.map Prod.fst).length :=
    (List.getElem?_eq_some_iff.mp hlast).choose
  have hidx : a = fakePoolSize := by
    have hlt : a < ((history.map Prod.fst).take (fakePoolSize + 1)).length := by
      rw [List.length_take]
      omega
    refine (List.getElem?_inj hlt h.distinct).mp ?_
    rw [List.getElem?_take_of_lt (by omega), List.getElem?_take_of_lt (by omega), he, hlast]
  omega

/-- Where there is an item that is the oldest there is room for, all slots are taken. -/
theorem full_of_oldest (h : pool.InOrder history) {q : Text × Ipv4Addr}
    (hq : history[fakePoolSize - 1]? = some q) {slot : ℕ} (hs : slot < fakePoolSize) :
    pool.slots slot ≠ none := by
  obtain ⟨a, ha, rfl⟩ := exists_slotOf h.valid.next hs
  have hlen : fakePoolSize - 1 < history.length := (List.getElem?_eq_some_iff.mp hq).choose
  rw [h.recent a ha, List.getElem?_map, List.getElem?_eq_getElem (by omega)]
  simp

/-- A fresh allocation removes at most the mapping allocated longest ago. -/
theorem replaced (h : pool.InOrder history) (hd : pool.byDomain (normalize domain) = none)
    {other : Text} (hne : other ≠ normalize domain) :
    (pool.allocate domain).2.byDomain other = pool.byDomain other ∨
      (pool.allocate domain).2.byDomain other = none ∧
        (∀ slot < fakePoolSize, pool.slots slot ≠ none) ∧
        ∃ ip, history[fakePoolSize - 1]? = some (other, ip) := by
  rw [allocate_fresh hd]
  dsimp only
  rw [Function.update_of_ne hne]
  cases hs : pool.slots pool.next with
  | none => exact .inl rfl
  | some previous =>
    by_cases ho : other = previous
    · subst other
      have hsize : 0 < fakePoolSize := by decide
      have hlast := h.recent (fakePoolSize - 1) (by omega)
      rw [slotOf_last h.valid.next, hs, List.getElem?_map] at hlast
      obtain ⟨q, hq, rfl⟩ := Option.map_eq_some_iff.mp hlast.symm
      exact .inr ⟨by simp, fun slot => h.full_of_oldest hq, q.2, hq⟩
    · exact .inl (by simp [ho])

end InOrder

theorem inOrder_of_reachable {p : FakeIpPool × Allocations} (h : allocations.Reachable p) :
    p.1.InOrder p.2 := by
  refine h.invariant (I := fun q => q.1.InOrder q.2) ?_ ?_
  · rintro ⟨pool, history⟩ ⟨rfl, rfl⟩
    exact inOrder_empty
  · intro p domain q _ hp _ hq
    obtain ⟨ht, hw⟩ := System.observe_step.mp hq
    rw [hw, ← Option.some.inj ht]
    exact hp.allocate domain

/-- What a caller can rely on. -/
structure Dependable (p : FakeIpPool × Allocations) : Prop where
  inverse : ∀ domain slot, p.1.byDomain domain = some slot ↔ p.1.slots slot = some domain
  next : p.1.next < fakePoolSize
  inRange : ∀ slot, slot = p.1.next ∨ p.1.slots slot ≠ none →
    slot < fakePoolSize ∧ contains (slotIp slot)
  answer : ∀ domain, contains (p.1.allocate domain).1 ∧
    (p.1.allocate domain).2.domainFor (p.1.allocate domain).1 = some (normalize domain)
  separate : ∀ domain other slot slot', p.1.byDomain domain = some slot →
    p.1.byDomain other = some slot' → domain ≠ other → slotIp slot ≠ slotIp slot'
  known : ∀ domain, p.1.byDomain (normalize domain) ≠ none → (p.1.allocate domain).2 = p.1
  fresh : ∀ domain other, p.1.byDomain (normalize domain) = none → other ≠ normalize domain →
    (p.1.allocate domain).2.byDomain other = p.1.byDomain other ∨
      (p.1.allocate domain).2.byDomain other = none ∧
        (∀ slot < fakePoolSize, p.1.slots slot ≠ none) ∧
        ∃ ip, p.2[fakePoolSize - 1]? = some (other, ip)
  /-- Fewer than `fakePoolSize` fresh allocations have followed. -/
  survives : ∀ a domain ip, p.2[a]? = some (domain, ip) → a < fakePoolSize →
    p.1.domainFor ip = some domain ∧ ∃ slot, p.1.byDomain domain = some slot ∧ slotIp slot = ip
  /-- Just as many have. -/
  evicted : ∀ domain ip, p.2[fakePoolSize]? = some (domain, ip) →
    p.1.byDomain domain = none ∧ p.1.domainFor ip ≠ some domain

theorem Valid.contains_allocate (hv : Valid pool) (domain : Text) :
    contains (pool.allocate domain).1 := by
  cases hd : pool.byDomain (normalize domain) with
  | some slot =>
    have hs := (hv.inverse _ _).mp hd
    rw [allocate_known hd]
    exact contains_slotIp (hv.slots slot (by simp [hs]))
  | none =>
    rw [allocate_fresh hd]
    exact contains_slotIp hv.next

/-- Different domains that are live have different addresses. -/
theorem Valid.slotIp_ne (hv : Valid pool) {other : Text} {slot slot' : ℕ}
    (hd : pool.byDomain domain = some slot) (ho : pool.byDomain other = some slot')
    (hne : domain ≠ other) : slotIp slot ≠ slotIp slot' := by
  have hs := (hv.inverse _ _).mp hd
  have hs' := (hv.inverse _ _).mp ho
  intro he
  have heq : slot = slot' := by
    rw [← slotIp_sub (hv.slots slot (by simp [hs])), he,
      slotIp_sub (hv.slots slot' (by simp [hs']))]
  subst slot'
  exact hne (Option.some.inj (hs.symm.trans hs'))

theorem dependable_of_reachable {p : FakeIpPool × Allocations} (h : allocations.Reachable p) :
    Dependable p := by
  have hp := inOrder_of_reachable h
  have hv := hp.valid
  refine ⟨hv.inverse, hv.next, fun slot hs => ?_, fun domain => ?_, fun _ _ _ _ => hv.slotIp_ne,
    fun domain hd => ?_, fun _ _ hd hne => hp.replaced hd hne, fun _ _ _ hq ha => hp.survives ha hq,
    fun domain ip hq => ?_⟩
  · have hlt : slot < fakePoolSize := by
      obtain rfl | hs := hs
      · exact hv.next
      · exact hv.slots slot hs
    exact ⟨hlt, contains_slotIp hlt⟩
  · exact ⟨hv.contains_allocate domain, domainFor_allocate hv domain⟩
  · obtain ⟨slot, hs⟩ := Option.ne_none_iff_exists'.mp hd
    rw [allocate_known hs]
  · have hd := hp.evicted hq
    refine ⟨hd, fun hip => ?_⟩
    unfold domainFor at hip
    split_ifs at hip
    simp [(hv.inverse _ _).mpr hip] at hd

theorem dependable_twoNames : ∃ p : FakeIpPool × Allocations,
    p.2.map Prod.fst = [['b'], ['a']] ∧ Dependable p := by
  have h0 : allocations.Reachable (.empty, []) := .init ⟨rfl, rfl⟩
  have hr := System.Reachable.run h0 [['a'], ['B', '.'], ['A']] rfl
  exact ⟨_, rfl, dependable_of_reachable hr⟩

end FakeIpPool

end NulConnect.FakeDns
