import Mathlib.Data.List.TakeWhile
import Mathlib.Tactic.Common

/-! A stream cut into lines, each with the mark that ends it, and a reader that takes the stream in
pieces of any size. -/
namespace NulConnect.Net.Lines

variable {α : Type*}

/-- A line ends with its only mark. -/
def IsLine (mark : α) (line : List α) : Prop := ∃ front, mark ∉ front ∧ line = front ++ [mark]

variable [DecidableEq α] (mark : α)

/-- The lines that are complete, and the one that has begun. -/
def cut : List α → List (List α) × List α
  | [] => ([], [])
  | x :: rest =>
    if x = mark then ([mark] :: (cut rest).1, (cut rest).2)
    else match (cut rest).1 with
      | [] => ([], x :: (cut rest).2)
      | line :: lines => ((x :: line) :: lines, (cut rest).2)

/-- Up to the first mark, and from it on. -/
def scan (stream : List α) : List α × List α :=
  (stream.takeWhile (· ≠ mark), stream.dropWhile (· ≠ mark))

variable {mark} {front rest line : List α}

theorem cut_of_notMem (h : mark ∉ rest) : cut mark rest = ([], rest) := by
  induction rest with
  | nil => rfl
  | cons x rest ih =>
    rw [List.mem_cons, not_or] at h
    rw [cut, if_neg (Ne.symm h.1), ih h.2]

theorem cut_append (h : mark ∉ front) (rest : List α) :
    cut mark (front ++ mark :: rest) =
      ((front ++ [mark]) :: (cut mark rest).1, (cut mark rest).2) := by
  induction front with
  | nil => rw [List.nil_append, cut, if_pos rfl, List.nil_append]
  | cons x front ih =>
    rw [List.mem_cons, not_or] at h
    rw [List.cons_append, cut, if_neg (Ne.symm h.1), ih h.2]
    rfl

theorem cut_line (h : IsLine mark line) (rest : List α) :
    cut mark (line ++ rest) = (line :: (cut mark rest).1, (cut mark rest).2) := by
  obtain ⟨front, hfront, rfl⟩ := h
  rw [List.append_assoc]
  exact cut_append hfront rest

theorem cut_flatten {lines : List (List α)} (h : ∀ line ∈ lines, IsLine mark line)
    (rest : List α) : cut mark (lines.flatten ++ rest) =
      (lines ++ (cut mark rest).1, (cut mark rest).2) := by
  induction lines with
  | nil => rfl
  | cons line lines ih =>
    rw [List.forall_mem_cons] at h
    rw [List.flatten_cons, List.append_assoc, cut_line h.1, ih h.2, List.cons_append]

theorem scan_cases (mark : α) (stream : List α) :
    (scan mark stream = (stream, []) ∧ mark ∉ stream) ∨
      ∃ front rest, scan mark stream = (front, mark :: rest) ∧ mark ∉ front ∧
        stream = front ++ mark :: rest := by
  unfold scan
  have hsplit := List.takeWhile_append_dropWhile (p := (· ≠ mark)) (l := stream)
  have hfront : mark ∉ stream.takeWhile (· ≠ mark) := by
    intro hmem
    simpa using List.mem_takeWhile_imp hmem
  cases hrest : stream.dropWhile (· ≠ mark) with
  | nil =>
    rw [hrest, List.append_nil] at hsplit
    rw [hsplit] at hfront ⊢
    exact .inl ⟨rfl, hfront⟩
  | cons x rest =>
    have hx : x = mark := by
      have hhead := List.head?_dropWhile_not (· ≠ mark) stream
      rw [hrest] at hhead
      simpa using hhead
    subst hx
    rw [hrest] at hsplit
    exact .inr ⟨_, rest, rfl, hfront, hsplit.symm⟩

/-- Cutting takes nothing away, and every complete line is one. -/
theorem cut_spec (stream : List α) :
    (cut mark stream).1.flatten ++ (cut mark stream).2 = stream ∧
      (∀ line ∈ (cut mark stream).1, IsLine mark line) ∧ mark ∉ (cut mark stream).2 := by
  induction stream with
  | nil => simp [cut]
  | cons x rest ih =>
    obtain ⟨hflat, hlines, hrest⟩ := ih
    rw [cut]
    split_ifs with hx
    · subst hx
      refine ⟨by simp [hflat], ?_, hrest⟩
      rw [List.forall_mem_cons]
      exact ⟨⟨[], List.not_mem_nil, rfl⟩, hlines⟩
    · have hne : mark ≠ x := Ne.symm hx
      cases hcut : (cut mark rest).1 with
      | nil =>
        rw [hcut] at hflat
        exact ⟨by simpa using hflat, by simp, by simp [hne, hrest]⟩
      | cons line lines =>
        rw [hcut, List.forall_mem_cons] at hlines
        obtain ⟨⟨front, hfront, hline⟩, hlines⟩ := hlines
        rw [hcut] at hflat
        refine ⟨by simpa using hflat, ?_, hrest⟩
        rw [List.forall_mem_cons]
        exact ⟨⟨x :: front, by simp [hne, hfront], by rw [hline, List.cons_append]⟩, hlines⟩

/-- Cutting a stream as it comes is cutting it as a whole. -/
theorem cut_append_eq (stream rest : List α) : cut mark (stream ++ rest) =
    ((cut mark stream).1 ++ (cut mark ((cut mark stream).2 ++ rest)).1,
      (cut mark ((cut mark stream).2 ++ rest)).2) := by
  have hflat : (cut mark stream).1.flatten ++ (cut mark stream).2 = stream := (cut_spec stream).1
  have hlines : ∀ line ∈ (cut mark stream).1, IsLine mark line := (cut_spec stream).2.1
  have hcut := cut_flatten hlines ((cut mark stream).2 ++ rest)
  rwa [← List.append_assoc, hflat] at hcut

theorem cut_append_open (h : mark ∉ front) (stream : List α) : cut mark (stream ++ front) =
    ((cut mark stream).1, (cut mark stream).2 ++ front) := by
  have hopen : mark ∉ (cut mark stream).2 ++ front := by
    rw [List.mem_append, not_or]
    exact ⟨(cut_spec stream).2.2, h⟩
  rw [cut_append_eq, cut_of_notMem hopen, List.append_nil]

theorem cut_append_mark (h : mark ∉ front) (stream : List α) :
    cut mark (stream ++ front ++ [mark]) =
      ((cut mark stream).1 ++ [(cut mark stream).2 ++ front ++ [mark]], []) := by
  have hopen : mark ∉ (cut mark stream).2 ++ front := by
    rw [List.mem_append, not_or]
    exact ⟨(cut_spec stream).2.2, h⟩
  rw [List.append_assoc, cut_append_eq, ← List.append_assoc, cut_append hopen []]
  rfl

/-- Of a front of some lines the complete ones are the first of them. -/
theorem cut_prefix {lines : List (List α)} (h : ∀ line ∈ lines, IsLine mark line)
    (hfront : front <+: lines.flatten) : (cut mark front).1 <+: lines := by
  obtain ⟨rest, hrest⟩ := hfront
  have hall := cut_flatten h []
  rw [List.append_nil, ← hrest, cut_append_eq] at hall
  have hlines := congrArg Prod.fst hall
  simp only [cut, List.append_nil] at hlines
  exact ⟨_, hlines⟩

end NulConnect.Net.Lines
