import Mathlib.Data.List.Basic
import Mathlib.Tactic.Common

/-! A set of items named by the slot they sit in. A freed slot is used again by the next item
that is added. -/
namespace NulConnect.Transition

/-- The slots in order, those without an item being free. -/
abbrev Slots (α : Type*) := List (Option α)

namespace Slots

variable {α : Type*} {s : Slots α} {x y : α} {h i : ℕ} {p : α → Bool}

def get (s : Slots α) (h : ℕ) : Option α := (s[h]?).join

/-- Puts an item in the first free slot, or in a new one. -/
def add : Slots α → α → Slots α × ℕ
  | [], x => ([some x], 0)
  | none :: s, x => (some x :: s, 0)
  | some y :: s, x => (some y :: (add s x).1, (add s x).2 + 1)

def put (s : Slots α) (h : ℕ) (x : α) : Slots α := s.set h (some x)

def remove (s : Slots α) (h : ℕ) : Slots α := s.set h none

/-- The first slot with an item of the given kind. -/
def find (p : α → Bool) : Slots α → Option ℕ
  | [] => none
  | none :: s => (find p s).map (· + 1)
  | some x :: s => if p x then some 0 else (find p s).map (· + 1)

@[simp] theorem get_nil : get ([] : Slots α) h = none := rfl

@[simp] theorem get_cons_zero (o : Option α) : get (o :: s) 0 = o := rfl

@[simp] theorem get_cons_succ (o : Option α) : get (o :: s) (h + 1) = get s h := rfl

theorem lt_length_of_get (hx : get s h = some x) : h < s.length := by
  by_contra hn
  rw [get, List.getElem?_eq_none (by omega)] at hx
  cases hx

/-- The slot that is used next is free. -/
theorem get_add_slot (s : Slots α) (x : α) : get s (add s x).2 = none := by
  induction s with
  | nil => rfl
  | cons o s ih =>
    cases o with
    | none => rfl
    | some y => exact ih

theorem get_add (s : Slots α) (x : α) (h : ℕ) :
    get (add s x).1 h = if h = (add s x).2 then some x else get s h := by
  induction s generalizing h with
  | nil =>
    cases h with
    | zero => rfl
    | succ h => simp [add]
  | cons o s ih =>
    cases h with
    | zero => cases o <;> simp [add]
    | succ h =>
      cases o with
      | none => simp [add]
      | some y => simpa [add] using ih h

theorem get_put (hx : get s h = some x) :
    get (put s h y) i = if i = h then some y else get s i := by
  have hlt := lt_length_of_get hx
  unfold get put
  by_cases hi : i = h
  · subst i
    simp [hlt]
  · rw [List.getElem?_set_ne (Ne.symm hi), if_neg hi]

theorem get_remove : get (remove s h) i = if i = h then none else get s i := by
  unfold get remove
  by_cases hi : i = h
  · subst i
    rw [List.getElem?_set]
    split_ifs
    all_goals simp_all
  · rw [List.getElem?_set_ne (Ne.symm hi), if_neg hi]

theorem find_eq_none : find p s = none ↔ ∀ h x, get s h = some x → ¬ p x := by
  induction s with
  | nil => simp [find]
  | cons o s ih =>
    constructor
    · intro hf h x hx
      cases o with
      | none =>
        cases h with
        | zero => cases hx
        | succ h => exact ih.mp (by simpa [find] using hf) h x hx
      | some y =>
        by_cases hy : p y
        · simp [find, hy] at hf
        · cases h with
          | zero =>
            obtain rfl := Option.some.inj hx
            exact hy
          | succ h => exact ih.mp (by simpa [find, hy] using hf) h x hx
    · intro ha
      have hs : find p s = none := ih.mpr fun h x hx => ha (h + 1) x hx
      cases o with
      | none => simp [find, hs]
      | some y =>
        have hy := ha 0 y rfl
        simp [find, hs, hy]

theorem get_of_find (hf : find p s = some h) : ∃ x, get s h = some x ∧ p x := by
  induction s generalizing h with
  | nil => cases hf
  | cons o s ih =>
    cases o with
    | none =>
      obtain ⟨i, hi, rfl⟩ := Option.map_eq_some_iff.mp hf
      exact ih hi
    | some y =>
      by_cases hy : p y
      · obtain rfl : 0 = h := by simpa [find, hy] using hf
        exact ⟨y, rfl, hy⟩
      · obtain ⟨i, hi, rfl⟩ : ∃ i, find p s = some i ∧ i + 1 = h := by simpa [find, hy] using hf
        exact ih hi

end Slots

end NulConnect.Transition
