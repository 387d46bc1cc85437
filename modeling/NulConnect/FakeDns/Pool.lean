import NulConnect.Net.Ipv4
import NulConnect.Transition.Bimap

/-! `FakeIpPool`: the fake addresses and the domains they stand for. -/
namespace NulConnect.FakeDns
open Net Transition

def fakeFirst : Ipv4Addr := Ipv4Addr.ofOctets 198 19 0 2

def fakeLast : Ipv4Addr := Ipv4Addr.ofOctets 198 19 255 254

def fakePoolSize : ℕ := (fakeLast - fakeFirst + 1).toNat

/-- `PoolInner`; `slots` has `fakePoolSize` entries. -/
structure FakeIpPool where
  slots : ℕ → Option Text
  byDomain : Text → Option ℕ
  next : ℕ

namespace FakeIpPool

def empty : FakeIpPool where
  slots _ := none
  byDomain _ := none
  next := 0

def contains (ip : Ipv4Addr) : Bool := fakeFirst ≤ ip ∧ ip ≤ fakeLast

end FakeIpPool

def slotIp (slot : ℕ) : Ipv4Addr := fakeFirst + BitVec.ofNat 32 slot

/-- `trim_end_matches('.')`, then ASCII lower case. -/
def normalize (domain : Text) : Text := (domain.rdropWhile (· == '.')).map Char.toLower

namespace FakeIpPool

def allocate (pool : FakeIpPool) (domain : Text) : Ipv4Addr × FakeIpPool :=
  let domain := normalize domain
  match pool.byDomain domain with
  | some slot => (slotIp slot, pool)
  | none =>
    let slot := pool.next
    let byDomain := match pool.slots slot with
      | some previous => Function.update pool.byDomain previous none
      | none => pool.byDomain
    (slotIp slot,
      { slots := Function.update pool.slots slot (some domain)
        byDomain := Function.update byDomain domain (some slot)
        next := (slot + 1) % fakePoolSize })

def domainFor (pool : FakeIpPool) (ip : Ipv4Addr) : Option Text :=
  if contains ip then pool.slots (ip - fakeFirst).toNat else none

/-- The two maps are inverse to each other, and every slot in use is one of the vector. -/
structure Valid (pool : FakeIpPool) : Prop where
  inverse : Inverse pool.byDomain pool.slots
  next : pool.next < fakePoolSize
  slots : ∀ slot, pool.slots slot ≠ none → slot < fakePoolSize

theorem valid_empty : Valid empty where
  inverse := Inverse.empty
  next := by decide
  slots _ h := absurd rfl h

variable {pool : FakeIpPool} {domain : Text}

theorem allocate_known {slot : ℕ} (h : pool.byDomain (normalize domain) = some slot) :
    pool.allocate domain = (slotIp slot, pool) := by
  unfold allocate
  simp only [h]

/-- The pool after the slot in turn has been given up, where it was taken. -/
theorem allocate_fresh (h : pool.byDomain (normalize domain) = none) :
    pool.allocate domain = (slotIp pool.next,
      { slots := Function.update pool.slots pool.next (some (normalize domain))
        byDomain := Function.update (match pool.slots pool.next with
          | some previous => Function.update pool.byDomain previous none
          | none => pool.byDomain) (normalize domain) (some pool.next)
        next := (pool.next + 1) % fakePoolSize }) := by
  unfold allocate
  simp only [h]

theorem Valid.allocate (hv : Valid pool) (domain : Text) : Valid (pool.allocate domain).2 := by
  cases hd : pool.byDomain (normalize domain) with
  | some slot =>
    rw [allocate_known hd]
    exact hv
  | none =>
    rw [allocate_fresh hd]
    refine ⟨?_, Nat.mod_lt _ (by decide), ?_⟩
    · cases hs : pool.slots pool.next with
      | none => exact hv.inverse.insert hd hs
      | some previous =>
        have hp : pool.byDomain previous = some pool.next := (hv.inverse _ _).mpr hs
        have hr := hv.inverse.remove hp
        have hne : normalize domain ≠ previous := by
          rintro rfl
          simp [hd] at hp
        have hi := hr.insert (a := normalize domain) (b := pool.next) (by simp [hne, hd])
          (by simp)
        rwa [Function.update_idem] at hi
    · intro slot hs
      by_cases hsn : slot = pool.next
      · rw [hsn]
        exact hv.next
      · exact hv.slots slot (by simpa [hsn] using hs)

theorem slotIp_sub {slot : ℕ} (h : slot < fakePoolSize) :
    (slotIp slot - fakeFirst).toNat = slot := by
  have hs : slot < 2 ^ 32 := h.trans (by decide)
  unfold slotIp
  rw [BitVec.add_comm, BitVec.add_sub_cancel, BitVec.toNat_ofNat, Nat.mod_eq_of_lt hs]

theorem contains_slotIp {slot : ℕ} (h : slot < fakePoolSize) : contains (slotIp slot) := by
  have hsize : fakePoolSize = 65533 := by decide
  have hfirst : fakeFirst.toNat = 3323133954 := by decide
  have hlast : fakeLast.toNat = 3323199486 := by decide
  have hip : (slotIp slot).toNat = 3323133954 + slot := by
    unfold slotIp
    rw [BitVec.toNat_add, hfirst, BitVec.toNat_ofNat]
    omega
  simp only [contains, BitVec.le_def, hfirst, hlast, hip, decide_eq_true_eq]
  omega

theorem domainFor_slotIp {slot : ℕ} (h : slot < fakePoolSize) :
    pool.domainFor (slotIp slot) = pool.slots slot := by
  unfold domainFor
  rw [if_pos (contains_slotIp h), slotIp_sub h]

/-- The address just handed out for a domain stands for it. -/
theorem domainFor_allocate (hv : Valid pool) (domain : Text) :
    (pool.allocate domain).2.domainFor (pool.allocate domain).1 = some (normalize domain) := by
  cases hd : pool.byDomain (normalize domain) with
  | some slot =>
    have hs : pool.slots slot = some (normalize domain) := (hv.inverse _ _).mp hd
    rw [allocate_known hd, domainFor_slotIp (hv.slots slot (by simp [hs])), hs]
  | none =>
    rw [allocate_fresh hd, domainFor_slotIp hv.next]
    exact Function.update_self _ _ _

end FakeIpPool

end NulConnect.FakeDns
