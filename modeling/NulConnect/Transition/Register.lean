import Mathlib.Logic.Function.Basic
import Mathlib.Tactic.Common

/-! A register that each owner stores its value in, and clears by compare-and-exchange once it is
gone: a reader finds what was stored last, or nothing. -/
namespace NulConnect.Transition

/-- `stored` is what each owner has stored, `released` who has cleared since the last of them. -/
structure Register (ι α : Type*) where
  value : α
  stored : ι → Option α
  released : List ι

namespace Register

variable {ι α : Type*}

def cleared (zero : α) : Register ι α where
  value := zero
  stored _ := none
  released := []

def store [DecidableEq ι] (r : Register ι α) (t : ι) (v : α) : Register ι α where
  value := v
  stored := Function.update r.stored t (some v)
  released := []

variable [DecidableEq α]

def load (zero : α) (r : Register ι α) : Option α := if r.value = zero then none else some r.value

/-- The exchange fails where the register holds another value. -/
def release (zero : α) (r : Register ι α) (t : ι) : Register ι α :=
  { r with
    value := if r.stored t = some r.value then zero else r.value
    released := t :: r.released }

/-- `t` stored last: the register holds its value, or has been cleared since by an owner of an
equal one. -/
structure Last (zero : α) (r : Register ι α) (t : ι) : Prop where
  own : ∀ v, r.load zero = some v → r.stored t = some v
  gone : r.load zero = none → r.stored t = some zero ∨ ∃ m ∈ r.released, r.stored m = r.stored t

variable {zero : α} {r : Register ι α} {t : ι}

theorem load_eq_some {v : α} : r.load zero = some v ↔ r.value ≠ zero ∧ r.value = v := by
  unfold load
  split_ifs with h <;> simp [h]

theorem load_eq_none : r.load zero = none ↔ r.value = zero := by
  unfold load
  split_ifs with h <;> simp [h]

theorem last_store [DecidableEq ι] (r : Register ι α) (t : ι) (v : α) :
    (r.store t v).Last zero t where
  own w hw := by
    obtain ⟨-, rfl⟩ := load_eq_some.mp hw
    simp [store]
  gone hv := by
    have hzero : v = zero := load_eq_none.mp hv
    exact .inl (by simp [store, hzero])

theorem Last.release (h : r.Last zero t) (m : ι) : (r.release zero m).Last zero t where
  own v hv := by
    obtain ⟨hne, hvalue⟩ := load_eq_some.mp hv
    simp only [Register.release] at hne hvalue
    split_ifs at hne hvalue with hm
    · exact absurd rfl hne
    · exact h.own v (load_eq_some.mpr ⟨hne, hvalue⟩)
  gone hv := by
    have hvalue := load_eq_none.mp hv
    simp only [Register.release] at hvalue
    by_cases hz : r.value = zero
    · obtain ht | ⟨n, hn, hnt⟩ := h.gone (load_eq_none.mpr hz)
      · exact .inl ht
      · exact .inr ⟨n, List.mem_cons_of_mem m hn, hnt⟩
    · split_ifs at hvalue with hm
      · have ht : r.stored t = some r.value := h.own _ (load_eq_some.mpr ⟨hz, rfl⟩)
        exact .inr ⟨m, List.mem_cons_self, hm.trans ht.symm⟩
      · exact absurd hvalue hz

end Register

end NulConnect.Transition
