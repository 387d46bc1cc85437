import Mathlib
import NulConnect.Net.Text

/-! What trimming and lower-casing leave of a text. -/
namespace NulConnect.Net

variable {p : Char → Bool} {s : Text} {c d : Char}

theorem mem_dropWhile_of_not (hc : p c = false) : c ∈ s.dropWhile p ↔ c ∈ s := by
  constructor
  · exact fun h => (List.dropWhile_sublist p).subset h
  · intro h
    rw [← List.takeWhile_append_dropWhile (p := p) (l := s)] at h
    cases List.mem_append.mp h with
    | inl htake =>
      have hp := List.mem_takeWhile_imp htake
      rw [hc] at hp
      cases hp
    | inr hdrop => exact hdrop

/-- A character that is not trimmed stays. -/
theorem mem_trimMatches_of_not (hc : p c = false) : c ∈ trimMatches p s ↔ c ∈ s := by
  rw [trimMatches, List.rdropWhile, List.mem_reverse, mem_dropWhile_of_not hc, List.mem_reverse,
    mem_dropWhile_of_not hc]

theorem trimMatches_head (h : (trimMatches p s).head? = some c) : p c = false := by
  obtain ⟨rest, hrest⟩ := List.head?_eq_some_iff.mp h
  obtain ⟨tail, htail⟩ := List.rdropWhile_prefix p (s.dropWhile p)
  have hsplit : s.dropWhile p = c :: (rest ++ tail) := by
    rw [← htail, ← List.cons_append]
    congr 1
  have hhead := List.head?_dropWhile_not p s
  rw [hsplit] at hhead
  exact hhead

theorem trimMatches_getLast (h : (trimMatches p s).getLast? = some c) : p c = false := by
  have hne : trimMatches p s ≠ [] := by
    intro hnil
    simp [hnil] at h
  have hc : (trimMatches p s).getLast hne = c := by
    rw [List.getLast?_eq_some_getLast hne] at h
    exact Option.some.inj h
  have hlast : ¬ p ((trimMatches p s).getLast hne) := List.rdropWhile_last_not p (s.dropWhile p) hne
  rw [hc] at hlast
  exact Bool.eq_false_iff.mpr hlast

/-- What is trimmed stands before the rest and behind it. -/
theorem trimMatches_split (p : Char → Bool) (s : Text) : ∃ front back,
    s = front ++ trimMatches p s ++ back ∧ (∀ c ∈ front, p c) ∧ ∀ c ∈ back, p c := by
  refine ⟨s.takeWhile p, (s.dropWhile p).rtakeWhile p, ?_, ?_, ?_⟩
  · unfold trimMatches
    rw [List.append_assoc, List.rdropWhile_append_rtakeWhile, List.takeWhile_append_dropWhile]
  · intro c hc
    exact List.mem_takeWhile_imp hc
  · intro c hc
    exact List.mem_rtakeWhile_imp hc

/-- A text that neither begins nor ends with what is trimmed. -/
theorem trimMatches_eq_self (hhead : ∀ c, s.head? = some c → p c = false)
    (hlast : ∀ c, s.getLast? = some c → p c = false) : trimMatches p s = s := by
  have hdrop : s.dropWhile p = s := by
    cases s with
    | nil => rfl
    | cons c rest => rw [List.dropWhile_cons_of_neg (by simp [hhead c rfl])]
  rw [trimMatches, hdrop, List.rdropWhile_eq_self_iff]
  intro hne
  have hp := hlast (s.getLast hne) (List.getLast?_eq_some_getLast hne)
  simp [hp]

/-- Trimming the end goes on into the first part where all of the second is trimmed. -/
theorem rdropWhile_append (s t : Text) : (s ++ t).rdropWhile p =
    if t.all p then s.rdropWhile p else s ++ t.rdropWhile p := by
  unfold List.rdropWhile
  rw [List.reverse_append, List.dropWhile_append]
  by_cases ht : t.all p
  · have hnil : t.reverse.dropWhile p = [] := by
      rw [List.dropWhile_eq_nil_iff]
      intro c hc
      exact List.all_eq_true.mp ht c (List.mem_reverse.mp hc)
    rw [if_pos ht, hnil, if_pos List.isEmpty_nil]
  · have hne : ¬ (t.reverse.dropWhile p).isEmpty := by
      intro hempty
      apply ht
      rw [List.isEmpty_iff, List.dropWhile_eq_nil_iff] at hempty
      exact List.all_eq_true.mpr fun c hc => hempty c (List.mem_reverse.mpr hc)
    rw [if_neg ht, if_neg hne, List.reverse_append, List.reverse_reverse]

/-- Lower-casing gives no other character outside the letters. -/
theorem toLower_eq_iff (hd : d.isAlpha = false) : c.toLower = d ↔ c = d := by
  have hnot : ∀ c : Char, c.isAlpha = false → c.toLower = c := by
    intro c hc
    apply Char.toLower_eq_of_not_isUpper
    intro hup
    simp [Char.isAlpha, hup] at hc
  constructor
  · intro h
    have halpha : c.toLower.isAlpha = c.isAlpha := Char.isAlpha_toLower_eq_isAlpha c
    rw [h, hd] at halpha
    rw [← hnot c halpha.symm, h]
  · intro h
    rw [h, hnot d hd]

theorem not_isWhitespace_of_isAlpha (hc : c.isAlpha) : isWhitespace c = false := by
  have hrange : 65 ≤ c.toNat ∧ c.toNat ≤ 90 ∨ 97 ≤ c.toNat ∧ c.toNat ≤ 122 := by
    simp only [Char.isAlpha, Char.isUpper, Char.isLower, Bool.or_eq_true, Bool.and_eq_true,
      decide_eq_true_eq, ge_iff_le, UInt32.le_iff_toNat_le] at hc
    exact hc
  rw [Bool.eq_false_iff]
  simp only [isWhitespace, ne_eq, Bool.or_eq_true, Bool.and_eq_true, decide_eq_true_eq, beq_iff_eq]
  omega

theorem isWhitespace_toLower (c : Char) : isWhitespace c.toLower = isWhitespace c := by
  by_cases hc : c.isAlpha
  · have hlow : c.toLower.isAlpha := by rwa [Char.isAlpha_toLower_eq_isAlpha]
    rw [not_isWhitespace_of_isAlpha hc, not_isWhitespace_of_isAlpha hlow]
  · have hup : ¬ c.isUpper := fun hup => hc (by simp [Char.isAlpha, hup])
    rw [Char.toLower_eq_of_not_isUpper hup]

end NulConnect.Net
