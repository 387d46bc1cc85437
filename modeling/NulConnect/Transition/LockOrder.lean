import Mathlib.Data.List.Basic
import Mathlib.Logic.Function.Basic
import Mathlib.Logic.Relation
import NulConnect.Transition.Mutex
import NulConnect.Transition.System

/-! Threads that take mutexes for the length of a scope and wait for the ends of other threads.
Where all of them do so in the order of one ranking, none waits forever. -/
namespace NulConnect.Transition

/-- What a thread does, as far as other threads can hold it up. -/
inductive Code (μ τ : Type*) where
  | skip
  | seq (a b : Code μ τ)
  | choice (a b : Code μ τ)
  /-- One of a family, for an argument of the code. -/
  | pick (f : ℕ → Code μ τ)
  | loop (a : Code μ τ)
  /-- The guard of a mutex lives as long as `a`. -/
  | lock (m : μ) (a : Code μ τ)
  | join (t : τ)

/-- What a thread still has to do: code to run, and guards to drop. -/
inductive Item (μ τ : Type*) where
  | run (a : Code μ τ)
  | release (m : μ)

structure Threads (μ τ : Type*) where
  owner : μ → Option τ
  todo : τ → List (Item μ τ)

namespace Threads

variable {μ τ : Type*}

/-- The thread is between the lock and the release of the mutex. -/
def Holds (s : Threads μ τ) (m : μ) (t : τ) : Prop := .release m ∈ s.todo t

/-- The thread waits for the other to drop a guard or to end. -/
def WaitsFor (s : Threads μ τ) (t u : τ) : Prop :=
  (∃ m a k, s.todo t = .run (.lock m a) :: k ∧ s.owner m = some u) ∨
    ∃ k, s.todo t = .run (.join u) :: k ∧ s.todo u ≠ []

variable [DecidableEq μ] [DecidableEq τ]

def goOn (s : Threads μ τ) (t : τ) (k : List (Item μ τ)) : Threads μ τ :=
  { s with todo := Function.update s.todo t k }

/-- A step of the thread; `branch` is what it chooses. -/
def step (s : Threads μ τ) (a : τ × ℕ) : Option (Threads μ τ) :=
  let (t, branch) := a
  match s.todo t with
  | [] => none
  | .run .skip :: k => some (s.goOn t k)
  | .run (.seq a b) :: k => some (s.goOn t (.run a :: .run b :: k))
  | .run (.choice a b) :: k => some (s.goOn t (.run (if branch = 0 then a else b) :: k))
  | .run (.pick f) :: k => some (s.goOn t (.run (f branch) :: k))
  | .run (.loop a) :: k =>
    some (s.goOn t (if branch = 0 then k else .run a :: .run (.loop a) :: k))
  | .run (.lock m a) :: k => when (s.owner m = none)
      { s.goOn t (.run a :: .release m :: k) with owner := Function.update s.owner m (some t) }
  | .run (.join u) :: k => when (s.todo u = []) (s.goOn t k)
  | .release m :: k => some { s.goOn t k with owner := Function.update s.owner m none }

/-- The threads that run `code`. -/
def system (code : τ → Code μ τ) : System (Threads μ τ) (τ × ℕ) where
  init s := s = { owner := fun _ => none, todo := fun t => [.run (code t)] }
  step := step

/-- Some step of the thread can be taken. -/
def CanStep (s : Threads μ τ) (t : τ) : Prop := ∃ branch, (s.step (t, branch)).isSome

end Threads

/-- A ranking of the mutexes and of the ends of the threads, with a bound. -/
structure Ranking (μ τ : Type*) where
  mutex : μ → ℕ
  thread : τ → ℕ
  bound : ℕ
  mutex_le : ∀ m, mutex m ≤ bound
  thread_le : ∀ t, thread t ≤ bound

namespace Ranking

variable {μ τ : Type*} (r : Ranking μ τ)

/-- All that the code waits for is ranked from `n` on, and above the guards that it holds. -/
def Ascends : ℕ → Code μ τ → Prop
  | _, .skip => True
  | n, .seq a b => Ascends n a ∧ Ascends n b
  | n, .choice a b => Ascends n a ∧ Ascends n b
  | n, .pick f => ∀ i, Ascends n (f i)
  | n, .loop a => Ascends n a
  | n, .lock m a => n ≤ r.mutex m ∧ Ascends (r.mutex m + 1) a
  | n, .join t => n ≤ r.thread t

/-- Every thread waits only for what is ranked above its own end. -/
def Orders (code : τ → Code μ τ) : Prop := ∀ t, r.Ascends (r.thread t + 1) (code t)

/-- From where on a thread may wait that began at `n` and has this to do. -/
def level (n : ℕ) : List (Item μ τ) → ℕ
  | [] => n
  | .run _ :: k => level n k
  | .release m :: _ => r.mutex m + 1

def AscendsAll (n : ℕ) : List (Item μ τ) → Prop
  | [] => True
  | .run a :: k => r.Ascends (r.level n k) a ∧ AscendsAll n k
  | .release m :: k => r.level n k ≤ r.mutex m ∧ AscendsAll n k

variable {r} {n : ℕ} {k : List (Item μ τ)}

theorem le_level (hk : r.AscendsAll n k) : n ≤ r.level n k := by
  induction k with
  | nil => exact Nat.le_refl n
  | cons i k ih =>
    cases i with
    | run a => exact ih hk.2
    | release m =>
      have := ih hk.2
      have := hk.1
      simp only [level]
      omega

/-- A guard that is held is ranked below all that may come. -/
theorem lt_level {m : μ} (hk : r.AscendsAll n k) (hm : .release m ∈ k) :
    r.mutex m < r.level n k := by
  induction k with
  | nil => cases hm
  | cons i k ih =>
    cases i with
    | run a => exact ih hk.2 (by simpa using hm)
    | release m' =>
      have hle := hk.1
      simp only [level]
      rcases List.mem_cons.mp hm with h | h
      · obtain rfl := Item.release.inj h
        omega
      · have := ih hk.2 h
        omega

end Ranking

namespace Threads

variable {μ τ : Type*} {r : Ranking μ τ} {code : τ → Code μ τ} {s s' : Threads μ τ} {t u : τ}
  {a : τ × ℕ}

/-- The guards that are held are the mutexes that are owned, and every thread ascends. -/
structure Ordered (r : Ranking μ τ) (s : Threads μ τ) : Prop where
  guarded : ∀ m, Guarded (s.owner m) (s.Holds m)
  ascends : ∀ t, r.AscendsAll (r.thread t + 1) (s.todo t)

theorem Ordered.cons (hs : Ordered r s) {i : Item μ τ} {k : List (Item μ τ)}
    (ht : s.todo t = i :: k) : r.AscendsAll (r.thread t + 1) (i :: k) := ht ▸ hs.ascends t

/-- The rank of what the thread waits for, where it waits. -/
def wants (r : Ranking μ τ) (s : Threads μ τ) (t : τ) : ℕ :=
  match s.todo t with
  | .run (.lock m _) :: _ => r.mutex m
  | .run (.join u) :: _ => r.thread u
  | _ => 0

theorem wants_le (s : Threads μ τ) (t : τ) : wants r s t ≤ r.bound := by
  unfold wants
  split
  · exact r.mutex_le _
  · exact r.thread_le _
  · exact Nat.zero_le _

/-- Whoever is waited for waits only for what is ranked higher. -/
theorem Ordered.wants_lt (hs : Ordered r s) (htu : WaitsFor s t u) {v : τ}
    (huv : WaitsFor s u v) : wants r s t < wants r s u := by
  have hlevel : r.level (r.thread u + 1) (s.todo u) ≤ wants r s u := by
    unfold wants
    rcases huv with ⟨m, b, k, hu, -⟩ | ⟨k, hu, -⟩
    · have hk := hs.cons hu
      rw [hu]
      exact hk.1.1
    · have hk := hs.cons hu
      rw [hu]
      exact hk.1
  rcases htu with ⟨m, b, k, ht, howner⟩ | ⟨k, ht, -⟩
  · have hheld : Item.release m ∈ s.todo u := (hs.guarded m u).mpr howner
    have := Ranking.lt_level (hs.ascends u) hheld
    have hwants : wants r s t = r.mutex m := by
      unfold wants
      rw [ht]
    omega
  · have := Ranking.le_level (hs.ascends u)
    have hwants : wants r s t = r.thread u := by
      unfold wants
      rw [ht]
    omega

/-- Whoever is waited for has not ended. -/
theorem Ordered.todo_ne_nil (hs : Ordered r s) (htu : WaitsFor s t u) : s.todo u ≠ [] := by
  rcases htu with ⟨m, b, k, -, howner⟩ | ⟨k, -, hu⟩
  · have hheld : Item.release m ∈ s.todo u := (hs.guarded m u).mpr howner
    exact List.ne_nil_of_mem hheld
  · exact hu

variable [DecidableEq τ]

theorem todo_goOn (s : Threads μ τ) (t : τ) (k : List (Item μ τ)) (u : τ) :
    (s.goOn t k).todo u = if u = t then k else s.todo u := by
  unfold goOn
  exact Function.update_apply _ _ _ _

/-- A step of one thread that takes no guard and drops none. -/
theorem Ordered.goOn (hs : Ordered r s) {k : List (Item μ τ)}
    (hheld : ∀ m, Item.release m ∈ k ↔ Item.release m ∈ s.todo t)
    (hk : r.AscendsAll (r.thread t + 1) k) : Ordered r (s.goOn t k) := by
  constructor
  · refine fun m => (hs.guarded m).stay fun u => ?_
    unfold Holds
    rw [todo_goOn]
    split_ifs with hu
    · rw [hu]
      exact hheld m
    · exact Iff.rfl
  · intro u
    rw [todo_goOn]
    split_ifs with hu
    · rw [hu]
      exact hk
    · exact hs.ascends u

variable [DecidableEq μ]

theorem Ordered.lock (hs : Ordered r s) {m : μ} {b : Code μ τ} {k : List (Item μ τ)}
    (ht : s.todo t = .run (.lock m b) :: k) (hfree : s.owner m = none) :
    Ordered r { s.goOn t (.run b :: .release m :: k) with
      owner := Function.update s.owner m (some t) } := by
  have hk := hs.cons ht
  have hother : ∀ m' u, u ≠ t → (Item.release m' ∈ (s.goOn t (.run b :: .release m :: k)).todo u ↔
      Item.release m' ∈ s.todo u) := by
    intro m' u hu
    rw [todo_goOn, if_neg hu]
  constructor
  · intro m'
    by_cases hm : m' = m
    · subst hm
      have hg := hs.guarded m'
      rw [hfree] at hg
      dsimp only
      rw [Function.update_self]
      refine hg.enter ?_ fun u hu => hother m' u hu
      unfold Holds
      rw [todo_goOn, if_pos rfl]
      simp
    · dsimp only
      rw [Function.update_of_ne hm]
      refine (hs.guarded m').stay fun u => ?_
      unfold Holds
      by_cases hu : u = t
      · subst hu
        rw [todo_goOn, if_pos rfl, ht]
        simp [hm]
      · exact hother m' u hu
  · intro u
    dsimp only
    rw [todo_goOn]
    split_ifs with hu
    · rw [hu]
      exact ⟨hk.1.2, hk.1.1, hk.2⟩
    · exact hs.ascends u

theorem Ordered.release (hs : Ordered r s) {m : μ} {k : List (Item μ τ)}
    (ht : s.todo t = .release m :: k) :
    Ordered r { s.goOn t k with owner := Function.update s.owner m none } := by
  have hk := hs.cons ht
  have hother : ∀ m' u, u ≠ t → (Item.release m' ∈ (s.goOn t k).todo u ↔
      Item.release m' ∈ s.todo u) := by
    intro m' u hu
    rw [todo_goOn, if_neg hu]
  constructor
  · intro m'
    by_cases hm : m' = m
    · subst hm
      dsimp only
      rw [Function.update_self]
      refine (hs.guarded m').leave (q := t) ?_ ?_ fun u hu => hother m' u hu
      · unfold Holds
        rw [ht]
        simp
      · intro hheld
        unfold Holds at hheld
        rw [todo_goOn, if_pos rfl] at hheld
        have := Ranking.lt_level hk.2 hheld
        have := hk.1
        omega
    · dsimp only
      rw [Function.update_of_ne hm]
      refine (hs.guarded m').stay fun u => ?_
      unfold Holds
      by_cases hu : u = t
      · subst hu
        rw [todo_goOn, if_pos rfl, ht]
        simp [hm]
      · exact hother m' u hu
  · intro u
    dsimp only
    rw [todo_goOn]
    split_ifs with hu
    · rw [hu]
      exact hk.2
    · exact hs.ascends u

theorem Ordered.step (hs : Ordered r s) (h : s.step a = some s') : Ordered r s' := by
  obtain ⟨t, branch⟩ := a
  cases ht : s.todo t with
  | nil => simp [Threads.step, ht] at h
  | cons i k =>
    have hk := hs.cons ht
    simp only [Threads.step, ht] at h
    cases i with
    | release m =>
      obtain rfl := Option.some.inj h
      exact hs.release ht
    | run b =>
      have hgoOn : ∀ k', (∀ m, Item.release m ∈ k' ↔ Item.release m ∈ k) →
          r.AscendsAll (r.thread t + 1) k' → Ordered r (s.goOn t k') := by
        intro k' hheld hk'
        refine hs.goOn (fun m => ?_) hk'
        rw [hheld m, ht]
        simp
      cases b with
      | skip =>
        obtain rfl := Option.some.inj h
        exact hgoOn _ (by simp) hk.2
      | seq a b =>
        obtain rfl := Option.some.inj h
        exact hgoOn _ (by simp) ⟨hk.1.1, hk.1.2, hk.2⟩
      | choice a b =>
        obtain rfl := Option.some.inj h
        refine hgoOn _ (by simp) ⟨?_, hk.2⟩
        split_ifs
        · exact hk.1.1
        · exact hk.1.2
      | pick f =>
        obtain rfl := Option.some.inj h
        exact hgoOn _ (by simp) ⟨hk.1 branch, hk.2⟩
      | loop b =>
        obtain rfl := Option.some.inj h
        split_ifs
        · exact hgoOn _ (by simp) hk.2
        · exact hgoOn _ (by simp) ⟨hk.1, hk.1, hk.2⟩
      | lock m b =>
        obtain ⟨hfree, rfl⟩ := when_eq_some.mp h
        exact hs.lock ht hfree
      | join u =>
        obtain ⟨-, rfl⟩ := when_eq_some.mp h
        exact hgoOn _ (by simp) hk.2

theorem ordered_of_reachable (ho : r.Orders code) (hs : (system code).Reachable s) :
    Ordered r s := by
  refine System.ReachUnder.invariant hs ?_ fun _ _ _ _ ih _ h => ih.step h
  rintro _ rfl
  constructor
  · intro m t
    simp [Holds]
  · intro t
    exact ⟨ho t, trivial⟩

/-- A thread that has not ended can take a step, or waits for another. -/
theorem canStep_or_waitsFor (ht : s.todo t ≠ []) : CanStep s t ∨ ∃ u, WaitsFor s t u := by
  cases hk : s.todo t with
  | nil => exact absurd hk ht
  | cons i k =>
    unfold CanStep Threads.step
    simp only [hk]
    cases i with
    | release m => exact .inl ⟨0, rfl⟩
    | run b =>
      cases b with
      | skip | seq | choice | pick | loop => exact .inl ⟨0, rfl⟩
      | lock m b =>
        cases hm : s.owner m with
        | none => exact .inl ⟨0, by simp [when, hm]⟩
        | some u => exact .inr ⟨u, .inl ⟨m, b, k, hk, hm⟩⟩
      | join u =>
        by_cases hu : s.todo u = []
        · exact .inl ⟨0, by simp [when, hu]⟩
        · exact .inr ⟨u, .inr ⟨k, hk, hu⟩⟩

/-- Whoever has not ended waits, if at all, in the end for a thread that can take a step. -/
theorem Ordered.goesOn (hs : Ordered r s) (ht : s.todo t ≠ []) :
    ∃ u, Relation.ReflTransGen (WaitsFor s) t u ∧ CanStep s u := by
  -- the rank of what is waited for rises along the chain, and has a bound
  induction hn : r.bound - wants r s t using Nat.strongRecOn generalizing t with
  | ind n ih =>
    subst hn
    rcases canStep_or_waitsFor ht with hcan | ⟨u, htu⟩
    · exact ⟨t, .refl, hcan⟩
    · have hu := hs.todo_ne_nil htu
      rcases canStep_or_waitsFor hu with hcan | ⟨v, huv⟩
      · exact ⟨u, .single htu, hcan⟩
      · have hlt := hs.wants_lt htu huv
        have hle := wants_le (r := r) s u
        obtain ⟨w, huw, hcan⟩ := ih (r.bound - wants r s u) (by omega) hu rfl
        exact ⟨w, .head htu huw, hcan⟩

/-- No thread waits forever for a mutex or for the end of another. -/
theorem goesOn_of_orders (ho : r.Orders code) (hs : (system code).Reachable s)
    (ht : s.todo t ≠ []) : ∃ u, Relation.ReflTransGen (WaitsFor s) t u ∧ CanStep s u :=
  (ordered_of_reachable ho hs).goesOn ht

end Threads

end NulConnect.Transition
