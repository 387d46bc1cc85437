import NulConnect.Net.Text

/-! `sort` followed by `dedup` keeps every element, and does nothing the second time. -/
namespace NulConnect.Net

variable {α : Type*} [DecidableEq α] {a x : α} {l : List α}

theorem mem_destutter'_ne : x ∈ l.destutter' (· ≠ ·) a ↔ x ∈ a :: l := by
  induction l generalizing a with
  | nil => rfl
  | cons b l ih =>
    by_cases hab : a ≠ b
    · rw [List.destutter'_cons_pos _ hab, List.mem_cons, ih]
      exact List.mem_cons.symm
    · rw [List.destutter'_cons_neg _ hab, ih, not_not.mp hab]
      simp

theorem mem_destutter_ne : x ∈ l.destutter (· ≠ ·) ↔ x ∈ l := by
  cases l with
  | nil => rfl
  | cons a l => exact mem_destutter'_ne

/-- Sorting by any order and then removing repetitions. -/
theorem mem_insertionSort_destutter (r : α → α → Prop) [DecidableRel r] :
    x ∈ (l.insertionSort r).destutter (· ≠ ·) ↔ x ∈ l := by
  rw [mem_destutter_ne, List.mem_insertionSort]

theorem mem_sortDedup {s : Text} {l : List Text} : s ∈ sortDedup l ↔ s ∈ l :=
  mem_insertionSort_destutter _

/-- The result rises strictly. -/
theorem pairwise_lt_sortDedup (l : List Text) : (sortDedup l).Pairwise (· < ·) := by
  have hsorted : (sortDedup l).Pairwise (· ≤ ·) :=
    (l.pairwise_insertionSort (· ≤ ·)).sublist (List.destutter_sublist _ _)
  have hne : (sortDedup l).IsChain (· ≠ ·) := List.isChain_destutter _ _
  have hlt : (sortDedup l).IsChain (· < ·) := by
    rw [List.isChain_iff_getElem] at hne ⊢
    intro i hi
    exact lt_of_le_of_ne (List.pairwise_iff_getElem.mp hsorted i (i + 1) _ hi (by omega)) (hne i hi)
  exact List.isChain_iff_pairwise.mp hlt

/-- A list that rises strictly stays as it is. -/
theorem sortDedup_of_pairwise_lt {l : List Text} (h : l.Pairwise (· < ·)) : sortDedup l = l :=
  (pairwise_lt_sortDedup l).eq_of_mem_iff h fun _ => mem_sortDedup

/-- A list that rises strictly has no two elements if all are the same. -/
theorem length_le_one {l : List Text} (hlt : l.Pairwise (· < ·)) (h : ∀ a ∈ l, ∀ b ∈ l, a = b) :
    l.length ≤ 1 := by
  match l with
  | [] => exact Nat.zero_le 1
  | [_] => exact le_rfl
  | a :: b :: rest =>
    have hab := (List.pairwise_cons.mp hlt).1 b List.mem_cons_self
    have heq := h a List.mem_cons_self b (List.mem_cons_of_mem a List.mem_cons_self)
    exact absurd heq hab.ne

end NulConnect.Net
