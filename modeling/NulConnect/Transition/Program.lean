import Mathlib.Data.Nat.Notation

/-! Programs that change a state step by step, and what holds at each of their steps: a program may
be cut off behind any of them. -/
namespace NulConnect.Transition

universe u v w

/-- A program returns, or changes the state in one go and continues with what it has found there. -/
inductive Program (σ : Type u) (α : Type v) where
  | done (a : α)
  | effect (change : σ → σ) (next : σ → Program σ α)

namespace Program

variable {σ : Type u} {τ : Type w} {α β : Type v}

protected def bind : Program σ α → (α → Program σ β) → Program σ β
  | .done a, f => f a
  | .effect change next, f => .effect change fun s => (next s).bind f

instance : Monad (Program σ) where
  pure := .done
  bind := Program.bind

/-- A call in one go. -/
def call (f : σ → α × σ) : Program σ α := .effect (fun s => (f s).2) fun s => .done (f s).1

def act (change : σ → σ) : Program σ Unit := call fun s => ((), change s)

def reads (f : σ → α) : Program σ α := call fun s => (f s, s)

def run : Program σ α → σ → α × σ
  | .done a, s => (a, s)
  | .effect change next, s => (next s).run (change s)

/-- The state behind the first `k` changes, or at the end. -/
def cut : Program σ α → ℕ → σ → σ
  | .done _, _, s => s
  | .effect _ _, 0, s => s
  | .effect change next, k + 1, s => (next s).cut k (change s)

/-- `inv` holds from the beginning to the end of the program, and then `post` of its result. -/
def Safe (inv : σ → Prop) (post : α → σ → Prop) : Program σ α → σ → Prop
  | .done a, s => inv s ∧ post a s
  | .effect change next, s => inv s ∧ Safe inv post (next s) (change s)

section Run

variable {s : σ}

@[simp] theorem run_pure (a : α) : (pure a : Program σ α).run s = (a, s) := rfl

@[simp] theorem run_call (f : σ → α × σ) : (call f).run s = f s := rfl

@[simp] theorem run_act (change : σ → σ) : (act change).run s = ((), change s) := rfl

@[simp] theorem run_reads (f : σ → α) : (reads f).run s = (f s, s) := rfl

@[simp] theorem run_bind (p : Program σ α) (f : α → Program σ β) :
    (p >>= f).run s = (f (p.run s).1).run (p.run s).2 := by
  induction p generalizing s with
  | done a => rfl
  | effect change next ih => exact ih s

end Run

section Safe

variable {inv inv' : σ → Prop} {post post' : α → σ → Prop} {p : Program σ α} {s : σ}

theorem Safe.here (h : p.Safe inv post s) : inv s := by
  cases p with
  | done a => exact h.1
  | effect change next => exact h.1

theorem Safe.cut (h : p.Safe inv post s) (k : ℕ) : inv (p.cut k s) := by
  induction p generalizing s k with
  | done a => exact h.1
  | effect change next ih =>
    cases k with
    | zero => exact h.1
    | succ k => exact ih s h.2 k

theorem Safe.run (h : p.Safe inv post s) : post (p.run s).1 (p.run s).2 := by
  induction p generalizing s with
  | done a => exact h.2
  | effect change next ih => exact ih s h.2

theorem Safe.inv_run (h : p.Safe inv post s) : inv (p.run s).2 := by
  induction p generalizing s with
  | done a => exact h.1
  | effect change next ih => exact ih s h.2

theorem Safe.mono (h : p.Safe inv post s) (hinv : ∀ t, inv t → inv' t)
    (hpost : ∀ a t, inv t → post a t → post' a t) : p.Safe inv' post' s := by
  induction p generalizing s with
  | done a => exact ⟨hinv s h.1, hpost a s h.1 h.2⟩
  | effect change next ih => exact ⟨hinv s h.1, ih s h.2⟩

theorem Safe.and (h : p.Safe inv post s) (h' : p.Safe inv' post' s) :
    p.Safe (fun t => inv t ∧ inv' t) (fun a t => post a t ∧ post' a t) s := by
  induction p generalizing s with
  | done a => exact ⟨⟨h.1, h'.1⟩, h.2, h'.2⟩
  | effect change next ih => exact ⟨⟨h.1, h'.1⟩, ih s h.2 h'.2⟩

theorem safe_call {f : σ → α × σ} :
    (call f).Safe inv post s ↔ inv s ∧ inv (f s).2 ∧ post (f s).1 (f s).2 := Iff.rfl

theorem safe_act {change : σ → σ} {post : Unit → σ → Prop} :
    (act change).Safe inv post s ↔ inv s ∧ inv (change s) ∧ post () (change s) := Iff.rfl

theorem safe_reads {f : σ → α} : (reads f).Safe inv post s ↔ inv s ∧ post (f s) s := by
  change inv s ∧ inv s ∧ post (f s) s ↔ _
  rw [← and_assoc, and_self]

/-- A program goes on as long as it is safe to go on with every result. -/
theorem safe_bind {f : α → Program σ β} {post : β → σ → Prop} :
    (p >>= f).Safe inv post s ↔ p.Safe inv (fun a => (f a).Safe inv post) s := by
  induction p generalizing s with
  | done a =>
    constructor
    · exact fun h => ⟨Safe.here h, h⟩
    · exact fun h => h.2
  | effect change next ih => exact and_congr_right fun _ => ih s

theorem Safe.bind {f : α → Program σ β} {mid : α → σ → Prop} {post : β → σ → Prop}
    (h : p.Safe inv mid s) (hf : ∀ a t, inv t → mid a t → (f a).Safe inv post t) :
    (p >>= f).Safe inv post s := safe_bind.mpr (h.mono (fun _ => id) hf)

end Safe

/-- A part of a larger state. -/
structure Part (σ : Type u) (τ : Type w) where
  get : τ → σ
  put : σ → τ → τ
  get_put : ∀ s t, get (put s t) = s
  put_put : ∀ s s' t, put s (put s' t) = put s t
  put_get : ∀ t, put (get t) t = t

/-- The program on a part of the state. -/
def within (part : Part σ τ) : Program σ α → Program τ α
  | .done a => .done a
  | .effect change next =>
    .effect (fun t => part.put (change (part.get t)) t) fun t => (next (part.get t)).within part

section Within

variable {part : Part σ τ} {p : Program σ α} {t : τ}

@[simp] theorem run_within :
    (p.within part).run t = ((p.run (part.get t)).1, part.put (p.run (part.get t)).2 t) := by
  induction p generalizing t with
  | done a => exact Prod.ext rfl (part.put_get t).symm
  | effect change next ih =>
    change ((next (part.get t)).within part).run (part.put (change (part.get t)) t) = _
    rw [ih, part.get_put, part.put_put]
    rfl

theorem safe_within {inv : τ → Prop} {post : α → τ → Prop} :
    (p.within part).Safe inv post t ↔
      p.Safe (fun s => inv (part.put s t)) (fun a s => post a (part.put s t)) (part.get t) := by
  induction p generalizing t with
  | done a =>
    change inv t ∧ post a t ↔ inv (part.put (part.get t) t) ∧ post a (part.put (part.get t) t)
    rw [part.put_get]
  | effect change next ih =>
    change inv t ∧ ((next (part.get t)).within part).Safe inv post _ ↔
      inv (part.put (part.get t) t) ∧ (next (part.get t)).Safe _ _ _
    rw [ih, part.get_put, part.put_get]
    simp only [part.put_put]

end Within

end Program

end NulConnect.Transition
