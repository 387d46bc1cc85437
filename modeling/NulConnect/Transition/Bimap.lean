import Mathlib.Logic.Function.Basic
import Mathlib.Tactic.Common

/-! Two partial maps that are kept inverse to each other, entry by entry. -/
namespace NulConnect.Transition

variable {α β : Type*} {f : α → Option β} {g : β → Option α} {a : α} {b : β}

def Inverse (f : α → Option β) (g : β → Option α) : Prop := ∀ a b, f a = some b ↔ g b = some a

namespace Inverse

theorem empty : Inverse (fun _ : α => (none : Option β)) fun _ => none := by
  intro a b
  simp

theorem symm (h : Inverse f g) : Inverse g f := fun b a => (h a b).symm

theorem injective (h : Inverse f g) {a' : α} (ha : f a = some b) (ha' : f a' = some b) :
    a = a' := by
  have hb : g b = some a := (h a b).mp ha
  have hb' : g b = some a' := (h a' b).mp ha'
  exact Option.some.inj (hb.symm.trans hb')

variable [DecidableEq α] [DecidableEq β]

/-- A pair neither side of which is in use is entered on both sides. -/
theorem insert (h : Inverse f g) (ha : f a = none) (hb : g b = none) :
    Inverse (Function.update f a (some b)) (Function.update g b (some a)) := by
  intro x y
  by_cases hx : x = a
  · subst x
    by_cases hy : y = b
    · subst y
      simp
    · have hn : g y ≠ some a := fun hg => by simp [(h a y).mpr hg] at ha
      simp [hy, hn, Ne.symm hy]
  · by_cases hy : y = b
    · subst y
      have hn : f x ≠ some b := fun hf => by simp [(h x b).mp hf] at hb
      simp [hx, hn, Ne.symm hx]
    · simpa [hx, hy] using h x y

/-- A pair is removed on both sides. -/
theorem remove (h : Inverse f g) (hab : f a = some b) :
    Inverse (Function.update f a none) (Function.update g b none) := by
  intro x y
  by_cases hx : x = a
  · subst x
    by_cases hy : y = b
    · subst y
      simp
    · have hn : g y ≠ some a := fun hg => hy (h.symm.injective hg ((h a b).mp hab))
      simp [hy, hn]
  · by_cases hy : y = b
    · subst y
      have hn : f x ≠ some b := fun hf => hx (h.injective hf hab)
      simp [hx, hn]
    · simpa [hx, hy] using h x y

end Inverse

end NulConnect.Transition
