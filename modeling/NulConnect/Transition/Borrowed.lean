import Mathlib.Data.Set.Basic
import NulConnect.Transition.Table

/-! Entries put into a table that belongs to another, with a record of their keys. While every new
key was free, the table can be given back at any time, but for entries that were lost before they
came on record. -/
namespace NulConnect.Transition.Table

variable {δ τ : Type*}

/-- `table` differs from `base` at keys of `held` and `lost` only, which are free in `base`. -/
structure Borrowed (base table : δ → Option τ) (held : List δ) (lost : Set δ) : Prop where
  free : ∀ d, d ∈ held ∨ d ∈ lost → base d = none
  same : ∀ d, d ∉ held → d ∉ lost → table d = base d

/-- Of the keys that are claimed, those with an entry that is neither the owner's nor on record. -/
def adrift (claimed : Set δ) (base table : δ → Option τ) (held : List δ) : Set δ :=
  {d | d ∈ claimed ∧ base d = none ∧ table d ≠ none ∧ d ∉ held}

variable {base table : δ → Option τ} {held held' : List δ} {lost lost' claimed : Set δ} {d : δ}

theorem borrowed_nil (hfree : ∀ d ∈ lost, base d = none) (h : table = base) :
    Borrowed base table [] lost where
  free d hd := hfree d (hd.resolve_left List.not_mem_nil)
  same d _ _ := by rw [h]

/-- What belongs to the owner stays. -/
theorem Borrowed.own (h : Borrowed base table held lost) (hd : base d ≠ none) :
    table d = base d := by
  apply h.same
  · exact fun hheld => hd (h.free d (.inl hheld))
  · exact fun hlost => hd (h.free d (.inr hlost))

theorem Borrowed.mono (h : Borrowed base table held lost)
    (hfree : ∀ d, d ∈ held' ∨ d ∈ lost' → base d = none)
    (hsub : ∀ d, d ∈ held ∨ d ∈ lost → d ∈ held' ∨ d ∈ lost') :
    Borrowed base table held' lost' := by
  refine ⟨hfree, fun d hheld hlost => ?_⟩
  have hd : ¬ (d ∈ held ∨ d ∈ lost) := fun hd => (hsub d hd).elim hheld hlost
  rw [not_or] at hd
  exact h.same d hd.1 hd.2

theorem Borrowed.more (h : Borrowed base table held lost) (hlost : lost ⊆ lost')
    (hfree : ∀ d ∈ lost', base d = none) : Borrowed base table held lost' := by
  apply h.mono
  · exact fun d hd => hd.elim (fun hd => h.free d (.inl hd)) (hfree d)
  · exact fun d hd => hd.imp id fun hd => hlost hd

/-- Nothing is on record any more. -/
theorem Borrowed.loosen (h : Borrowed base table held lost) (hheld : ∀ d ∈ held, d ∈ lost')
    (hlost : lost ⊆ lost') (hfree : ∀ d ∈ lost', base d = none) :
    Borrowed base table [] lost' := by
  apply h.mono
  · exact fun d hd => hfree d (hd.resolve_left List.not_mem_nil)
  · exact fun d hd => .inr (hd.elim (hheld d) fun hd => hlost hd)

/-- The work on the claimed keys is cut off: of those that are not on record, the ones with an
entry are lost. -/
theorem Borrowed.settle (h : Borrowed base table held (lost ∪ {d | d ∈ claimed ∧ base d = none})) :
    Borrowed base table held (lost ∪ adrift claimed base table held) := by
  constructor
  · rintro d (hd | hd | hd)
    · exact h.free d (.inl hd)
    · exact h.free d (.inr (.inl hd))
    · exact hd.2.1
  · intro d hheld hlost
    rw [Set.mem_union, not_or] at hlost
    by_cases hd : d ∈ claimed ∧ base d = none
    · by_cases hnone : table d = none
      · rw [hnone, hd.2]
      · exact absurd ⟨hd.1, hd.2, hnone, hheld⟩ hlost.2
    · exact h.same d hheld fun hmem => hmem.elim hlost.1 hd

section Update

variable [DecidableEq δ]

/-- An entry changes that is not the owner's. -/
theorem Borrowed.set (h : Borrowed base table held lost) (hd : d ∈ held ∨ d ∈ lost)
    (x : Option τ) : Borrowed base (Function.update table d x) held lost := by
  refine ⟨h.free, fun e hheld hlost => ?_⟩
  have hne : e ≠ d := by
    rintro rfl
    exact hd.elim hheld hlost
  rw [Function.update_of_ne hne]
  exact h.same e hheld hlost

theorem Borrowed.eraseFree (h : Borrowed base table held lost) {ds : List δ}
    (hds : ∀ d ∈ ds, base d = none) : Borrowed base (eraseAll table ds) held lost := by
  refine ⟨h.free, fun d hheld hlost => ?_⟩
  rw [eraseAll_apply]
  split_ifs with hd
  · exact (hds d hd).symm
  · exact h.same d hheld hlost

theorem Borrowed.eraseAll (h : Borrowed base table held lost) :
    Borrowed base (eraseAll table held) [] lost := by
  refine ⟨fun d hd => h.free d (.inr (hd.resolve_left List.not_mem_nil)), fun d _ hlost => ?_⟩
  rw [eraseAll_apply]
  split_ifs with hd
  · exact (h.free d (.inl hd)).symm
  · exact h.same d hd hlost

/-- An entry is put at a key that is free. -/
theorem Borrowed.insertNew (h : Borrowed base table held lost) (hd : base d = none) (x : τ) :
    Borrowed base (insertNew table d x) (held ++ [d]) lost := by
  constructor
  · rintro e (he | he)
    · rcases List.mem_append.mp he with hheld | hnew
      · exact h.free e (.inl hheld)
      · rw [List.mem_singleton.mp hnew]
        exact hd
    · exact h.free e (.inr he)
  · intro e he hlost
    rw [List.mem_append, not_or, List.mem_singleton] at he
    rw [insertNew_of_ne he.2]
    exact h.same e he.1 hlost

/-- The owner changes an entry that is not on record; it is not lost then. -/
theorem Borrowed.update (h : Borrowed base table held lost) (hd : d ∉ held) (x : Option τ) :
    Borrowed (Function.update base d x) (Function.update table d x) held (lost \ {d}) := by
  constructor
  · rintro e (he | he)
    · have hne : e ≠ d := fun heq => hd (heq ▸ he)
      rw [Function.update_of_ne hne]
      exact h.free e (.inl he)
    · rw [Function.update_of_ne he.2]
      exact h.free e (.inr he.1)
  · intro e he hlost
    by_cases hed : e = d
    · rw [hed, Function.update_self, Function.update_self]
    · rw [Function.update_of_ne hed, Function.update_of_ne hed]
      exact h.same e he fun hmem => hlost ⟨hmem, hed⟩

end Update

end NulConnect.Transition.Table
