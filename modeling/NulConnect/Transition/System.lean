import Mathlib.Tactic.Common

/-! Executable labelled transition systems: runs, reachability under a condition on
the steps taken, the induction rule for invariants, and history variables. -/
namespace NulConnect.Transition

variable {σ α ω : Type*}

/-- A guarded step: taken only where the guard holds. -/
def when (p : Prop) [Decidable p] (s : σ) : Option σ := if p then some s else none

@[simp] theorem when_eq_some {p : Prop} [Decidable p] {s t : σ} :
    when p s = some t ↔ p ∧ s = t := by
  by_cases h : p <;> simp [when, h]

/-- `step s a` is the state after action `a`, or `none` where `a` cannot be taken. All
nondeterminism is in the choice of the action. -/
structure System (σ : Type*) (α : Type*) where
  init : σ → Prop
  step : σ → α → Option σ

namespace System

variable (S : System σ α)

/-- The states of runs whose every step meets `ok`, a condition on the state before the
step and on the action. -/
inductive ReachUnder (ok : σ → α → Prop) : σ → Prop where
  | init {s : σ} (h : S.init s) : ReachUnder ok s
  | step {s t : σ} {a : α} (reach : ReachUnder ok s) (meets : ok s a)
      (h : S.step s a = some t) : ReachUnder ok t

/-- The states of all runs. -/
def Reachable : σ → Prop := S.ReachUnder fun _ _ => True

/-- The state after a list of actions. -/
def run : σ → List α → Option σ
  | s, [] => some s
  | s, a :: as => (S.step s a).bind fun t => run t as

/-- Every step that the actions take from `s` on meets `ok`. -/
def meets (ok : σ → α → Prop) : σ → List α → Prop
  | _, [] => True
  | s, a :: as => ok s a ∧ match S.step s a with
    | some t => meets ok t as
    | none => True

instance decidableMeets (ok : σ → α → Prop) [∀ s a, Decidable (ok s a)] :
    (s : σ) → (as : List α) → Decidable (S.meets ok s as)
  | _, [] => inferInstanceAs (Decidable True)
  | s, a :: as =>
    have : Decidable (match S.step s a with
        | some t => S.meets ok t as
        | none => True) :=
      match S.step s a with
      | some t => decidableMeets ok t as
      | none => inferInstanceAs (Decidable True)
    inferInstanceAs (Decidable (_ ∧ _))

variable {S} {ok ok' : σ → α → Prop} {s t : σ}

theorem ReachUnder.mono (hs : S.ReachUnder ok s) (h : ∀ s a, ok s a → ok' s a) :
    S.ReachUnder ok' s := by
  induction hs with
  | init hi => exact .init hi
  | step _ hm ht ih => exact .step ih (h _ _ hm) ht

theorem ReachUnder.reachable (hs : S.ReachUnder ok s) : S.Reachable s :=
  hs.mono fun _ _ _ => trivial

/-- The induction rule: a predicate that holds initially and that every step meeting `ok`
from a reached state preserves holds in every state reached. -/
theorem ReachUnder.invariant {I : σ → Prop} (hs : S.ReachUnder ok s)
    (init : ∀ s, S.init s → I s)
    (step : ∀ s a t, S.ReachUnder ok s → I s → ok s a → S.step s a = some t → I t) : I s := by
  induction hs with
  | init hi => exact init _ hi
  | step hr hm ht ih => exact step _ _ _ hr ih hm ht

theorem ReachUnder.run (hs : S.ReachUnder ok s) (as : List α) (hok : S.meets ok s as)
    (h : S.run s as = some t) : S.ReachUnder ok t := by
  induction as generalizing s with
  | nil =>
    have : s = t := Option.some.inj h
    exact this ▸ hs
  | cons a as ih =>
    obtain ⟨u, hu, ht⟩ := Option.bind_eq_some_iff.mp h
    obtain ⟨ha, has⟩ := hok
    rw [hu] at has
    exact ih (.step hs ha hu) has ht

theorem run_append (as bs : List α) :
    S.run s (as ++ bs) = (S.run s as).bind fun t => S.run t bs := by
  induction as generalizing s with
  | nil => rfl
  | cons a as ih =>
    simp only [List.cons_append, System.run, Option.bind_assoc]
    cases S.step s a with
    | none => rfl
    | some u => exact ih

theorem meets_true (s : σ) (as : List α) : S.meets (fun _ _ => True) s as := by
  induction as generalizing s with
  | nil => trivial
  | cons a as ih =>
    refine ⟨trivial, ?_⟩
    cases S.step s a with
    | none => trivial
    | some t => exact ih t

theorem Reachable.run (hs : S.Reachable s) (as : List α) (h : S.run s as = some t) :
    S.Reachable t :=
  ReachUnder.run hs as (meets_true s as) h

/-- A history variable: `upd` records what it needs of each step and never restrains one. -/
def observe (S : System σ α) (o : ω) (upd : ω → σ → α → ω) : System (σ × ω) α where
  init p := S.init p.1 ∧ p.2 = o
  step p a := (S.step p.1 a).map fun t => (t, upd p.2 p.1 a)

variable {o : ω} {upd : ω → σ → α → ω}

@[simp] theorem observe_step {p q : σ × ω} {a : α} :
    (S.observe o upd).step p a = some q ↔
      S.step p.1 a = some q.1 ∧ q.2 = upd p.2 p.1 a := by
  obtain ⟨t, w⟩ := q
  simp only [observe, Option.map_eq_some_iff, Prod.mk.injEq]
  constructor
  · rintro ⟨u, hu, rfl, rfl⟩
    exact ⟨hu, rfl⟩
  · rintro ⟨hu, rfl⟩
    exact ⟨t, hu, rfl, rfl⟩

/-- Observing a run does not change which states it reaches. -/
theorem ReachUnder.of_observe {p : σ × ω}
    (hp : (S.observe o upd).ReachUnder (fun q a => ok q.1 a) p) : S.ReachUnder ok p.1 := by
  induction hp with
  | init hi => exact .init hi.1
  | step _ hm ht ih => exact .step ih hm (observe_step.mp ht).1

end System

end NulConnect.Transition
