import Mathlib.Data.List.Basic
import Mathlib.Data.List.Count
import Mathlib.Tactic.Common

/-! A list of all the items that there have been, each changed in its place. -/
namespace NulConnect.Transition.Log

variable {α β : Type*} {l : List α} {i : ℕ} {x y : α} {p : α → Bool} {c : α → List β}
  {R : α → α → Prop}

theorem split_of_get (h : l[i]? = some x) :
    ∃ before after, l = before ++ x :: after ∧ ∀ y, l.set i y = before ++ y :: after := by
  obtain ⟨hi, hx⟩ := List.getElem?_eq_some_iff.mp h
  refine ⟨l.take i, l.drop (i + 1), ?_, fun y => ?_⟩
  · rw [← hx, ← List.drop_eq_getElem_cons hi, List.take_append_drop]
  · rw [List.set_eq_take_append_cons_drop, if_pos hi]

theorem mem_of_get (h : l[i]? = some x) : x ∈ l := List.mem_of_getElem? h

theorem forall_set {P : α → Prop} (hl : ∀ z ∈ l, P z) (hy : P y) : ∀ z ∈ l.set i y, P z := by
  intro z hz
  obtain hz | rfl := List.mem_or_eq_of_mem_set hz
  · exact hl z hz
  · exact hy

/-- The item takes over the relations of the one whose place it takes. -/
theorem pairwise_set (hl : l.Pairwise R) (h : l[i]? = some x) (hxy : ∀ z, R x z → R y z)
    (hyx : ∀ z, R z x → R z y) : (l.set i y).Pairwise R := by
  obtain ⟨before, after, rfl, hset⟩ := split_of_get h
  rw [hset]
  rw [List.pairwise_append, List.pairwise_cons] at hl ⊢
  obtain ⟨hb, ⟨hx, ha⟩, hba⟩ := hl
  refine ⟨hb, ⟨fun z hz => hxy z (hx z hz), ha⟩, fun z hz w hw => ?_⟩
  obtain rfl | hw := List.mem_cons.mp hw
  · exact hyx z (hba z hz x List.mem_cons_self)
  · exact hba z hz w (List.mem_cons_of_mem _ hw)

theorem countP_set_le (h : l[i]? = some x) (hp : p y → p x) :
    (l.set i y).countP p ≤ l.countP p := by
  obtain ⟨before, after, rfl, hset⟩ := split_of_get h
  rw [hset, List.countP_append, List.countP_append, List.countP_cons, List.countP_cons]
  split_ifs with hy hx
  · omega
  · exact absurd (hp hy) hx
  all_goals omega

theorem flatMap_set (h : l[i]? = some x) (hp : p y = p x) (hc : c y = c x) :
    ((l.set i y).filter p).flatMap c = (l.filter p).flatMap c := by
  obtain ⟨before, after, rfl, hset⟩ := split_of_get h
  rw [hset, List.filter_append, List.filter_append, List.filter_cons, List.filter_cons, hp]
  split_ifs
  · simp [hc]
  · rfl

theorem flatMap_set_of_not (h : l[i]? = some x) (hx : p x = false) (hy : p y = false) :
    ((l.set i y).filter p).flatMap c = (l.filter p).flatMap c := by
  obtain ⟨before, after, rfl, hset⟩ := split_of_get h
  rw [hset, List.filter_append, List.filter_append, List.filter_cons, List.filter_cons, hx, hy]
  rfl

theorem sublist_flatMap_of_mem (hx : x ∈ l) : (c x).Sublist (l.flatMap c) := by
  obtain ⟨before, after, rfl⟩ := List.append_of_mem hx
  rw [List.flatMap_append, List.flatMap_cons]
  exact (List.sublist_append_left _ _).trans (List.sublist_append_right _ _)

theorem flatMap_sublist {d : α → List β} (h : ∀ x ∈ l, (c x).Sublist (d x)) :
    (l.flatMap c).Sublist (l.flatMap d) := by
  induction l with
  | nil => exact List.Sublist.refl []
  | cons x l ih =>
    rw [List.flatMap_cons, List.flatMap_cons]
    exact (h x List.mem_cons_self).append (ih fun y hy => h y (List.mem_cons_of_mem x hy))

/-- What is added to the last item of a kind comes last of all. -/
theorem flatMap_set_last (hl : l.Pairwise R) (h : l[i]? = some x)
    (hlast : ∀ z, R x z → p z = false) {added : List β} (hx : p x) (hy : p y)
    (hc : c y = c x ++ added) :
    ((l.set i y).filter p).flatMap c = (l.filter p).flatMap c ++ added := by
  obtain ⟨before, after, rfl, hset⟩ := split_of_get h
  have hnone : after.filter p = [] := by
    rw [List.pairwise_append, List.pairwise_cons] at hl
    refine List.filter_eq_nil_iff.mpr fun z hz => ?_
    simp [hlast z (hl.2.1.1 z hz)]
  rw [hset, List.filter_append, List.filter_append, List.filter_cons, List.filter_cons, hnone,
    if_pos hx, if_pos hy]
  simp [hc]

end NulConnect.Transition.Log
