import Mathlib.Logic.Function.Basic
import Mathlib.Tactic.Common

/-! Slots filled in turn, where the cursor wraps around: which of the items of a history are
still there, and in which slot. -/
namespace NulConnect.Transition.Ring

variable {α : Type*} {n next a b slot : ℕ} {slots : ℕ → Option α} {history : List α}

/-- The slot that was filled `a` items before the last one. -/
def slotOf (n next a : ℕ) : ℕ := if a < next then next - 1 - a else next + n - 1 - a

/-- The slots hold the last items of the history, the newest first. -/
def Recent (n next : ℕ) (slots : ℕ → Option α) (history : List α) : Prop :=
  ∀ a < n, slots (slotOf n next a) = history[a]?

theorem slotOf_injective (ha : a < n) (hb : b < n)
    (h : slotOf n next a = slotOf n next b) : a = b := by
  unfold slotOf at h
  split_ifs at h <;> omega

theorem exists_slotOf (hn : next < n) (hs : slot < n) : ∃ a < n, slotOf n next a = slot := by
  by_cases h : slot < next
  · refine ⟨next - 1 - slot, by omega, ?_⟩
    unfold slotOf
    split_ifs <;> omega
  · refine ⟨next + n - 1 - slot, by omega, ?_⟩
    unfold slotOf
    split_ifs <;> omega

/-- The slot in turn is that of the oldest item there is room for. -/
theorem slotOf_last (hn : next < n) : slotOf n next (n - 1) = next := by
  unfold slotOf
  split_ifs <;> omega

theorem wrap (hn : next < n) : (next + 1) % n = if next + 1 = n then 0 else next + 1 := by
  split_ifs with h
  · rw [h, Nat.mod_self]
  · exact Nat.mod_eq_of_lt (by omega)

theorem slotOf_zero (hn : next < n) : slotOf n ((next + 1) % n) 0 = next := by
  rw [wrap hn]
  unfold slotOf
  split_ifs <;> omega

theorem slotOf_succ (hn : next < n) (ha : a + 1 < n) :
    slotOf n ((next + 1) % n) (a + 1) = slotOf n next a := by
  rw [wrap hn]
  unfold slotOf
  split_ifs <;> omega

theorem recent_empty : Recent n next (fun _ => none) ([] : List α) := fun _ _ => rfl

/-- The slot in turn is filled. -/
theorem Recent.push (h : Recent n next slots history) (hn : next < n) (x : α) :
    Recent n ((next + 1) % n) (Function.update slots next (some x)) (x :: history) := by
  intro a ha
  cases a with
  | zero =>
    rw [slotOf_zero hn]
    simp
  | succ a =>
    have hne : slotOf n next a ≠ next := by
      intro he
      have hlast := slotOf_injective (by omega) (by omega) (he.trans (slotOf_last hn).symm)
      omega
    rw [slotOf_succ hn ha, Function.update_of_ne hne]
    exact h a (by omega)

/-- What is in a slot is one of the last items of the history. -/
theorem Recent.exists_getElem? (h : Recent n next slots history) (hn : next < n) (hs : slot < n)
    {x : α} (hx : slots slot = some x) :
    ∃ a < n, slotOf n next a = slot ∧ history[a]? = some x := by
  obtain ⟨a, ha, rfl⟩ := exists_slotOf hn hs
  exact ⟨a, ha, rfl, (h a ha).symm.trans hx⟩

end NulConnect.Transition.Ring
