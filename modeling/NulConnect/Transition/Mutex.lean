import Mathlib.Tactic.Common

/-! Mutual exclusion: which processes are inside the section that a lock protects. -/
namespace NulConnect.Transition

variable {π : Type*} {owner owner' : Option π} {inside inside' : π → Prop} {p q : π}

/-- The processes inside the section are exactly the owner of the lock. -/
def Guarded (owner : Option π) (inside : π → Prop) : Prop := ∀ p, inside p ↔ owner = some p

namespace Guarded

theorem unique (h : Guarded owner inside) (hp : inside p) (hq : inside q) : p = q :=
  Option.some.inj (((h p).mp hp).symm.trans ((h q).mp hq))

theorem outside_of_free (h : Guarded none inside) (p : π) : ¬ inside p := fun hp =>
  Option.some_ne_none p ((h p).mp hp).symm

/-- A step that moves no process across the border of the section. -/
theorem stay (h : Guarded owner inside) (hi : ∀ p, inside' p ↔ inside p) :
    Guarded owner inside' := fun p => (hi p).trans (h p)

/-- A step in which `q` acquires the free lock. -/
theorem enter (h : Guarded none inside) (hq : inside' q)
    (hi : ∀ p, p ≠ q → (inside' p ↔ inside p)) : Guarded (some q) inside' := by
  intro p
  by_cases hpq : p = q
  · subst p
    simp [hq]
  · have hn : ¬ inside' p := fun hp => h.outside_of_free p ((hi p hpq).mp hp)
    simp [hn, Ne.symm hpq]

/-- A step in which the owner `q` releases the lock. -/
theorem leave (h : Guarded owner inside) (hq : inside q) (hq' : ¬ inside' q)
    (hi : ∀ p, p ≠ q → (inside' p ↔ inside p)) : Guarded none inside' := by
  intro p
  by_cases hpq : p = q
  · subst p
    simp [hq']
  · have hn : ¬ inside' p := fun hp => hpq (h.unique ((hi p hpq).mp hp) hq)
    simp [hn]

/-- A step of `q` alone keeps the lock, acquires it while it is free, or releases it. -/
theorem step (h : Guarded owner inside) (q : π) (hi : ∀ p, p ≠ q → (inside' p ↔ inside p))
    (hq : (owner' = owner ∧ (inside' q ↔ inside q)) ∨
      (owner = none ∧ owner' = some q ∧ inside' q) ∨
      (inside q ∧ owner' = none ∧ ¬ inside' q)) : Guarded owner' inside' := by
  obtain ⟨rfl, hqq⟩ | ⟨rfl, rfl, hin⟩ | ⟨hin, rfl, hout⟩ := hq
  · refine h.stay fun p => ?_
    by_cases hpq : p = q
    · rw [hpq, hqq]
    · exact hi p hpq
  · exact h.enter hin hi
  · exact h.leave hin hout hi

end Guarded

end NulConnect.Transition
