import Mathlib.Tactic.Common
import Mathlib.Logic.Function.Basic

/-! A family of components of which one step moves one. -/
namespace NulConnect.Transition

variable {ι α : Type*} [DecidableEq ι] {f : ι → α} {m t : ι} {p q : α}

/-- Where the component `m` moves along `R`, every component stays or moves along `R`. -/
theorem update_moved {R : ι → α → α → Prop} (h : R m (f m) p) (t : ι) :
    Function.update f m p t = f t ∨ R t (f t) (Function.update f m p t) := by
  by_cases htm : t = m
  · subst m
    right
    simpa using h
  · left
    simp [htm]

/-- A component with another value than the one that moved had it before. -/
theorem eq_of_update_ne (h : Function.update f m p t = q) (hq : p ≠ q) : f t = q := by
  by_cases htm : t = m
  · subst m
    exact absurd (by simpa using h) hq
  · simpa [htm] using h

theorem update_eq_of_ne (h : f m ≠ f t) : Function.update f m p t = f t := by
  have htm : t ≠ m := by
    rintro rfl
    exact h rfl
  exact Function.update_of_ne htm p f

end NulConnect.Transition
