import Mathlib.Logic.Function.Basic
import Mathlib.Data.List.Basic
import Mathlib.Tactic.Common

/-! Tables to which entries are added where there is none, and from which they are erased:
when erasing what was added gives back the table one began with. -/
namespace NulConnect.Transition.Table

variable {δ τ : Type*} [DecidableEq δ]

/-- Adds an entry, unless there is one. -/
def insertNew (t : δ → Option τ) (d : δ) (x : τ) : δ → Option τ :=
  if t d = none then Function.update t d (some x) else t

def erase (t : δ → Option τ) (d : δ) : δ → Option τ := Function.update t d none

def insertAll : (δ → Option τ) → List (δ × τ) → δ → Option τ :=
  List.foldl fun t p => insertNew t p.1 p.2

def eraseAll : (δ → Option τ) → List δ → δ → Option τ := List.foldl erase

variable {t : δ → Option τ} {d e : δ} {x : τ} {ds : List δ} {ps : List (δ × τ)}

theorem insertNew_of_ne_none (h : t d ≠ none) : insertNew t e x d = t d := by
  unfold insertNew
  split_ifs with he
  · have hde : d ≠ e := by
      rintro rfl
      exact h he
    rw [Function.update_of_ne hde]
  · rfl

theorem insertNew_of_ne (h : d ≠ e) : insertNew t e x d = t d := by
  unfold insertNew
  split_ifs
  · rw [Function.update_of_ne h]
  · rfl

theorem insertNew_self_ne_none : insertNew t d x d ≠ none := by
  unfold insertNew
  split_ifs with h
  · simp
  · exact h

theorem insertAll_of_ne_none (h : t d ≠ none) : insertAll t ps d = t d := by
  induction ps generalizing t with
  | nil => rfl
  | cons p ps ih =>
    have hp := insertNew_of_ne_none (e := p.1) (x := p.2) h
    have hps : insertAll (insertNew t p.1 p.2) ps d = insertNew t p.1 p.2 d := ih (hp ▸ h)
    exact hps.trans hp

theorem insertAll_of_not_mem (h : d ∉ ps.map Prod.fst) : insertAll t ps d = t d := by
  induction ps generalizing t with
  | nil => rfl
  | cons p ps ih =>
    obtain ⟨hdp, hps⟩ := List.ne_and_not_mem_of_not_mem_cons h
    have hi : insertAll (insertNew t p.1 p.2) ps d = insertNew t p.1 p.2 d := ih hps
    exact hi.trans (insertNew_of_ne hdp)

theorem insertAll_ne_none (h : d ∈ ps.map Prod.fst) : insertAll t ps d ≠ none := by
  induction ps generalizing t with
  | nil => cases h
  | cons p ps ih =>
    obtain rfl | h := List.mem_cons.mp h
    · have hs := insertNew_self_ne_none (t := t) (d := p.1) (x := p.2)
      have hi : insertAll (insertNew t p.1 p.2) ps p.1 = insertNew t p.1 p.2 p.1 :=
        insertAll_of_ne_none hs
      exact fun hn => hs (hi.symm.trans hn)
    · exact ih h

/-- Where every entry added is the same, only that one comes in. -/
theorem insertAll_const : insertAll t (ds.map fun e => (e, x)) d =
    if t d = none ∧ d ∈ ds then some x else t d := by
  induction ds generalizing t with
  | nil => simp [insertAll]
  | cons e ds ih =>
    have hi : insertAll t ((e :: ds).map fun e => (e, x)) d =
        if insertNew t e x d = none ∧ d ∈ ds then some x else insertNew t e x d := ih
    rw [hi]
    by_cases ht : t d = none
    · by_cases hde : d = e
      · subst hde
        simp [insertNew, ht]
      · simp [insertNew_of_ne hde, ht, hde]
    · simp [insertNew_of_ne_none ht, ht]

theorem insertAll_append (qs : List (δ × τ)) :
    insertAll t (ps ++ qs) = insertAll (insertAll t ps) qs := List.foldl_append

theorem eraseAll_apply : eraseAll t ds d = if d ∈ ds then none else t d := by
  induction ds generalizing t with
  | nil => rfl
  | cons e ds ih =>
    have hi : eraseAll t (e :: ds) d = if d ∈ ds then none else erase t e d := ih
    rw [hi]
    by_cases hde : d = e
    · simp [hde, erase]
    · simp [hde, erase]

theorem eraseAll_eq_self : eraseAll t ds = t ↔ ∀ d ∈ ds, t d = none := by
  constructor
  · intro h d hd
    rw [← h, eraseAll_apply, if_pos hd]
  · intro h
    funext d
    rw [eraseAll_apply]
    split_ifs with hd
    · exact (h d hd).symm
    · rfl

/-- Adding entries changes nothing just where all of them were there before. -/
theorem insertAll_eq_self : insertAll t ps = t ↔ ∀ d ∈ ps.map Prod.fst, t d ≠ none := by
  constructor
  · intro h d hd
    rw [← h]
    exact insertAll_ne_none hd
  · intro h
    funext d
    by_cases hd : d ∈ ps.map Prod.fst
    · exact insertAll_of_ne_none (h d hd)
    · exact insertAll_of_not_mem hd

/-- Erasing every entry one tried to add leaves what erasing alone leaves. -/
theorem eraseAll_insertAll : eraseAll (insertAll t ps) (ps.map Prod.fst) =
    eraseAll t (ps.map Prod.fst) := by
  funext d
  rw [eraseAll_apply, eraseAll_apply]
  split_ifs with hd
  · rfl
  · exact insertAll_of_not_mem hd

theorem eraseAll_eraseAll (es : List δ) : eraseAll (eraseAll t ds) es = eraseAll t (ds ++ es) :=
  List.foldl_append.symm

end NulConnect.Transition.Table
