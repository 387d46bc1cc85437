import NulConnect.Net.Text

/-! UTF-8: the bytes of a text, `String::from_utf8_lossy`, and which bytes are a text. -/
namespace NulConnect.Net

/-- A sequence that has begun: the range of its next byte, how many bytes it still needs, and the
bits read so far. -/
structure Utf8Sequence where
  low : UInt8
  high : UInt8
  left : ℕ
  code : ℕ

def replacementCharacter : Char := Char.ofNat 0xfffd

/-- What the first byte of a character gives at once, and the sequence it begins. The ranges of
the second byte leave out overlong forms, surrogates and what lies beyond the last character. -/
def firstByte (b : UInt8) : Text × Option Utf8Sequence :=
  let code := b.toNat
  if b < 0x80 then ([Char.ofNat code], none)
  else if 0xc2 ≤ b ∧ b ≤ 0xdf then ([], some ⟨0x80, 0xbf, 1, code % 32⟩)
  else if b = 0xe0 then ([], some ⟨0xa0, 0xbf, 2, code % 16⟩)
  else if b = 0xed then ([], some ⟨0x80, 0x9f, 2, code % 16⟩)
  else if 0xe1 ≤ b ∧ b ≤ 0xef then ([], some ⟨0x80, 0xbf, 2, code % 16⟩)
  else if b = 0xf0 then ([], some ⟨0x90, 0xbf, 3, code % 8⟩)
  else if 0xf1 ≤ b ∧ b ≤ 0xf3 then ([], some ⟨0x80, 0xbf, 3, code % 8⟩)
  else if b = 0xf4 then ([], some ⟨0x80, 0x8f, 3, code % 8⟩)
  else ([replacementCharacter], none)

/-- Every sequence that breaks off gives one replacement character, and the byte that breaks it
off begins anew. -/
def utf8Lossy : Option Utf8Sequence → List UInt8 → Text
  | none, [] => []
  | some _, [] => [replacementCharacter]
  | none, b :: rest => (firstByte b).1 ++ utf8Lossy (firstByte b).2 rest
  | some seq, b :: rest =>
    if seq.low ≤ b ∧ b ≤ seq.high then
      let code := seq.code * 64 + b.toNat % 64
      if seq.left = 1 then Char.ofNat code :: utf8Lossy none rest
      else utf8Lossy (some ⟨0x80, 0xbf, seq.left - 1, code⟩) rest
    else replacementCharacter :: ((firstByte b).1 ++ utf8Lossy (firstByte b).2 rest)

def fromUtf8Lossy (bytes : List UInt8) : Text := utf8Lossy none bytes

def toUtf8 (s : Text) : List UInt8 := s.flatMap String.utf8EncodeChar

/-- No byte begins or breaks off a sequence where it must not. -/
def utf8Valid : Option Utf8Sequence → List UInt8 → Bool
  | none, [] => true
  | some _, [] => false
  | none, b :: rest => (firstByte b).1 ≠ [replacementCharacter] && utf8Valid (firstByte b).2 rest
  | some seq, b :: rest => (seq.low ≤ b && b ≤ seq.high) &&
      if seq.left = 1 then utf8Valid none rest
      else utf8Valid (some ⟨0x80, 0xbf, seq.left - 1, seq.code * 64 + b.toNat % 64⟩) rest

/-- `String::from_utf8` succeeds. -/
def isUtf8 (bytes : List UInt8) : Bool := utf8Valid none bytes

/-- Bytes of ASCII text are valid. -/
theorem isUtf8_ascii {bytes : List UInt8} (h : ∀ b ∈ bytes, b < 0x80) : isUtf8 bytes := by
  unfold isUtf8
  induction bytes with
  | nil => rfl
  | cons b bytes ih =>
    have hb : firstByte b = ([Char.ofNat b.toNat], none) := if_pos (h b List.mem_cons_self)
    have hne : ∀ n < 0x80, Char.ofNat n ≠ replacementCharacter := by decide
    have hb₁ : Char.ofNat b.toNat ≠ replacementCharacter := hne _ (h b List.mem_cons_self)
    rw [utf8Valid, hb]
    simpa [hb₁] using ih fun c hc => h c (List.mem_cons_of_mem _ hc)

theorem toUtf8_ascii {s : Text} (h : ∀ c ∈ s, c.toNat < 0x80) :
    toUtf8 s = s.map fun c => UInt8.ofNat c.toNat := by
  unfold toUtf8
  induction s with
  | nil => rfl
  | cons c s ih =>
    have hc : c.val.toNat ≤ 127 := Nat.le_of_lt_succ (h c List.mem_cons_self)
    have hchar : String.utf8EncodeChar c = [UInt8.ofNat c.toNat] := if_pos hc
    have hrest := ih fun d hd => h d (List.mem_cons_of_mem _ hd)
    rw [List.flatMap_cons, hchar, hrest, List.map_cons, List.singleton_append]

theorem lt_of_mem_toUtf8_ascii {s : Text} (h : ∀ c ∈ s, c.toNat < 0x80) :
    ∀ b ∈ toUtf8 s, b < 0x80 := by
  intro b hb
  rw [toUtf8_ascii h] at hb
  obtain ⟨c, hc, heq⟩ := List.mem_map.mp hb
  have hlt := h c hc
  have hnat : (UInt8.ofNat c.toNat).toNat = c.toNat :=
    UInt8.toNat_ofNat_of_lt' (show c.toNat < 256 by omega)
  rw [← heq, UInt8.lt_iff_toNat_lt, hnat]
  exact hlt

theorem toUtf8_append (s t : Text) : toUtf8 (s ++ t) = toUtf8 s ++ toUtf8 t := List.flatMap_append

section Sequences

variable {b : UInt8} {rest : List UInt8} {n : ℕ} {c : Char}

theorem firstByte_two (h : 0xc2 ≤ b.toNat) (h' : b.toNat ≤ 0xdf) :
    firstByte b = ([], some ⟨0x80, 0xbf, 1, b.toNat % 32⟩) := by
  have hnot : ¬ b < 0x80 := by
    rw [UInt8.lt_iff_toNat_lt]
    show ¬ b.toNat < 128
    omega
  unfold firstByte
  rw [if_neg hnot, if_pos ⟨UInt8.le_iff_toNat_le.mpr h, UInt8.le_iff_toNat_le.mpr h'⟩]

/-- The second of three bytes leaves out what two bytes hold, and the surrogates. -/
theorem firstByte_three (h : 0xe0 ≤ b.toNat) (h' : b.toNat ≤ 0xef) : ∃ low high,
    firstByte b = ([], some ⟨low, high, 2, b.toNat % 16⟩) ∧
      low.toNat = (if b.toNat = 0xe0 then 0xa0 else 0x80) ∧
      high.toNat = if b.toNat = 0xed then 0x9f else 0xbf := by
  have hlt : ¬ b.toNat < 128 := by omega
  have htwo : ¬ (194 ≤ b.toNat ∧ b.toNat ≤ 223) := by omega
  have hthree : 225 ≤ b.toNat ∨ b.toNat = 224 := by omega
  unfold firstByte
  simp only [UInt8.lt_iff_toNat_lt, UInt8.le_iff_toNat_le, ← UInt8.toNat_inj, UInt8.reduceToNat]
  rw [if_neg hlt, if_neg htwo]
  by_cases h0 : b.toNat = 224
  · exact ⟨0xa0, 0xbf, by rw [if_pos h0], by rw [if_pos h0]; rfl, by rw [if_neg (by omega)]; rfl⟩
  by_cases hd : b.toNat = 237
  · exact ⟨0x80, 0x9f, by rw [if_neg h0, if_pos hd], by rw [if_neg h0]; rfl, by rw [if_pos hd]; rfl⟩
  · exact ⟨0x80, 0xbf, by rw [if_neg h0, if_neg hd, if_pos (by omega)], by rw [if_neg h0]; rfl,
      by rw [if_neg hd]; rfl⟩

/-- The second of four bytes leaves out what three bytes hold, and what is no character. -/
theorem firstByte_four (h : 0xf0 ≤ b.toNat) (h' : b.toNat ≤ 0xf4) : ∃ low high,
    firstByte b = ([], some ⟨low, high, 3, b.toNat % 8⟩) ∧
      low.toNat = (if b.toNat = 0xf0 then 0x90 else 0x80) ∧
      high.toNat = if b.toNat = 0xf4 then 0x8f else 0xbf := by
  have hlt : ¬ b.toNat < 128 := by omega
  have htwo : ¬ (194 ≤ b.toNat ∧ b.toNat ≤ 223) := by omega
  have hthree : ¬ (225 ≤ b.toNat ∧ b.toNat ≤ 239) ∧ b.toNat ≠ 224 ∧ b.toNat ≠ 237 := by omega
  unfold firstByte
  simp only [UInt8.lt_iff_toNat_lt, UInt8.le_iff_toNat_le, ← UInt8.toNat_inj, UInt8.reduceToNat]
  rw [if_neg hlt, if_neg htwo, if_neg hthree.2.1, if_neg hthree.2.2, if_neg hthree.1]
  by_cases h0 : b.toNat = 240
  · exact ⟨0x90, 0xbf, by rw [if_pos h0], by rw [if_pos h0]; rfl, by rw [if_neg (by omega)]; rfl⟩
  by_cases h4 : b.toNat = 244
  · exact ⟨0x80, 0x8f, by rw [if_neg h0, if_neg (by omega), if_pos h4], by rw [if_neg h0]; rfl,
      by rw [if_pos h4]; rfl⟩
  · exact ⟨0x80, 0xbf, by rw [if_neg h0, if_pos (by omega)], by rw [if_neg h0]; rfl,
      by rw [if_neg h4]; rfl⟩

/-- Other first bytes are none. -/
theorem firstByte_other (h : 0x80 ≤ b.toNat ∧ b.toNat < 0xc2 ∨ 0xf5 ≤ b.toNat) :
    firstByte b = ([replacementCharacter], none) := by
  have hlt := b.toNat_lt
  unfold firstByte
  simp only [UInt8.lt_iff_toNat_lt, UInt8.le_iff_toNat_le, ← UInt8.toNat_inj, UInt8.reduceToNat]
  split_ifs
  all_goals first
    | omega
    | rfl

/-- The last byte of a sequence. -/
theorem utf8Lossy_last {low high : UInt8} {code : ℕ} (hlow : low.toNat ≤ b.toNat)
    (hhigh : b.toNat ≤ high.toNat) : utf8Lossy (some ⟨low, high, 1, code⟩) (b :: rest) =
      Char.ofNat (code * 64 + b.toNat % 64) :: utf8Lossy none rest := by
  rw [utf8Lossy, if_pos ⟨UInt8.le_iff_toNat_le.mpr hlow, UInt8.le_iff_toNat_le.mpr hhigh⟩]
  rfl

/-- A byte of a sequence after which there are more. -/
theorem utf8Lossy_more {low high : UInt8} {code left : ℕ} (hlow : low.toNat ≤ b.toNat)
    (hhigh : b.toNat ≤ high.toNat) : utf8Lossy (some ⟨low, high, left + 2, code⟩) (b :: rest) =
      utf8Lossy (some ⟨0x80, 0xbf, left + 1, code * 64 + b.toNat % 64⟩) rest := by
  rw [utf8Lossy, if_pos ⟨UInt8.le_iff_toNat_le.mpr hlow, UInt8.le_iff_toNat_le.mpr hhigh⟩]
  rfl

/-- The bytes of a character are read as that character, whatever follows. -/
theorem utf8Lossy_encode (c : Char) (rest : List UInt8) :
    utf8Lossy none (String.utf8EncodeChar c ++ rest) = c :: utf8Lossy none rest := by
  have hc : Char.ofNat c.val.toNat = c := Char.ofNat_toNat c
  have hvalid : c.val.toNat < 0xd800 ∨ 0xdfff < c.val.toNat ∧ c.val.toNat < 0x110000 := c.valid
  unfold String.utf8EncodeChar
  generalize c.val.toNat = v at hc hvalid
  dsimp only
  split_ifs with h1 h2 h3
  · have hb : (UInt8.ofNat v).toNat = v := UInt8.toNat_ofNat_of_lt' (show v < 256 by omega)
    have hfirst : firstByte (UInt8.ofNat v) = ([c], none) := by
      unfold firstByte
      rw [if_pos (UInt8.lt_iff_toNat_lt.mpr (show (UInt8.ofNat v).toNat < 128 by omega)), hb, hc]
    rw [List.singleton_append, utf8Lossy, hfirst, List.singleton_append]
  · have hb : (UInt8.ofNat (v / 64 % 0x20 + 0xc0)).toNat = v / 64 % 0x20 + 0xc0 :=
      UInt8.toNat_ofNat_of_lt' (show _ < 256 by omega)
    have hb₁ : (UInt8.ofNat (v % 0x40 + 0x80)).toNat = v % 0x40 + 0x80 :=
      UInt8.toNat_ofNat_of_lt' (show _ < 256 by omega)
    have hfirst := firstByte_two (b := UInt8.ofNat (v / 64 % 0x20 + 0xc0)) (by omega) (by omega)
    rw [List.cons_append, utf8Lossy, hfirst, List.nil_append, List.cons_append, List.nil_append,
      utf8Lossy_last (by show 128 ≤ _; omega) (by show _ ≤ 191; omega), hb, hb₁]
    have hv : (v / 64 % 0x20 + 0xc0) % 32 * 64 + (v % 0x40 + 0x80) % 64 = v := by omega
    rw [hv, hc]
  · have hb : (UInt8.ofNat (v / 4096 % 0x10 + 0xe0)).toNat = v / 4096 % 0x10 + 0xe0 :=
      UInt8.toNat_ofNat_of_lt' (show _ < 256 by omega)
    have hb₁ : (UInt8.ofNat (v / 64 % 0x40 + 0x80)).toNat = v / 64 % 0x40 + 0x80 :=
      UInt8.toNat_ofNat_of_lt' (show _ < 256 by omega)
    have hb₂ : (UInt8.ofNat (v % 0x40 + 0x80)).toNat = v % 0x40 + 0x80 :=
      UInt8.toNat_ofNat_of_lt' (show _ < 256 by omega)
    obtain ⟨low, high, hfirst, hlow, hhigh⟩ :=
      firstByte_three (b := UInt8.ofNat (v / 4096 % 0x10 + 0xe0)) (by omega) (by omega)
    rw [hb] at hlow hhigh hfirst
    have hin : low.toNat ≤ v / 64 % 0x40 + 0x80 ∧ v / 64 % 0x40 + 0x80 ≤ high.toNat := by
      rw [hlow, hhigh]
      split_ifs
      all_goals omega
    rw [List.cons_append, utf8Lossy, hfirst, List.nil_append, List.cons_append, List.cons_append,
      List.nil_append, utf8Lossy_more (by rw [hb₁]; exact hin.1) (by rw [hb₁]; exact hin.2),
      utf8Lossy_last (by show 128 ≤ _; omega) (by show _ ≤ 191; omega), hb₁, hb₂]
    have hv : ((v / 4096 % 0x10 + 0xe0) % 16 * 64 + (v / 64 % 0x40 + 0x80) % 64) * 64 +
        (v % 0x40 + 0x80) % 64 = v := by omega
    rw [hv, hc]
  · have hb : (UInt8.ofNat (v / 262144 % 8 + 0xf0)).toNat = v / 262144 % 8 + 0xf0 :=
      UInt8.toNat_ofNat_of_lt' (show _ < 256 by omega)
    have hb₁ : (UInt8.ofNat (v / 4096 % 0x40 + 0x80)).toNat = v / 4096 % 0x40 + 0x80 :=
      UInt8.toNat_ofNat_of_lt' (show _ < 256 by omega)
    have hb₂ : (UInt8.ofNat (v / 64 % 0x40 + 0x80)).toNat = v / 64 % 0x40 + 0x80 :=
      UInt8.toNat_ofNat_of_lt' (show _ < 256 by omega)
    have hb₃ : (UInt8.ofNat (v % 0x40 + 0x80)).toNat = v % 0x40 + 0x80 :=
      UInt8.toNat_ofNat_of_lt' (show _ < 256 by omega)
    obtain ⟨low, high, hfirst, hlow, hhigh⟩ :=
      firstByte_four (b := UInt8.ofNat (v / 262144 % 8 + 0xf0)) (by omega) (by omega)
    rw [hb] at hlow hhigh hfirst
    have hin : low.toNat ≤ v / 4096 % 0x40 + 0x80 ∧ v / 4096 % 0x40 + 0x80 ≤ high.toNat := by
      rw [hlow, hhigh]
      split_ifs
      all_goals omega
    rw [List.cons_append, utf8Lossy, hfirst, List.nil_append, List.cons_append, List.cons_append,
      List.cons_append, List.nil_append,
      utf8Lossy_more (by rw [hb₁]; exact hin.1) (by rw [hb₁]; exact hin.2),
      utf8Lossy_more (by show 128 ≤ _; omega) (by show _ ≤ 191; omega),
      utf8Lossy_last (by show 128 ≤ _; omega) (by show _ ≤ 191; omega), hb₁, hb₂, hb₃]
    have hv : (((v / 262144 % 8 + 0xf0) % 8 * 64 + (v / 4096 % 0x40 + 0x80) % 64) * 64 +
        (v / 64 % 0x40 + 0x80) % 64) * 64 + (v % 0x40 + 0x80) % 64 = v := by omega
    rw [hv, hc]

/-- Every text comes back. -/
theorem fromUtf8Lossy_toUtf8 (s : Text) : fromUtf8Lossy (toUtf8 s) = s := by
  unfold fromUtf8Lossy toUtf8
  induction s with
  | nil => rfl
  | cons c s ih => rw [List.flatMap_cons, utf8Lossy_encode, ih]

theorem utf8Valid_last {low high : UInt8} {code : ℕ}
    (h : utf8Valid (some ⟨low, high, 1, code⟩) rest) : ∃ b tail, rest = b :: tail ∧
      low.toNat ≤ b.toNat ∧ b.toNat ≤ high.toNat ∧ utf8Valid none tail := by
  cases rest with
  | nil => cases h
  | cons b tail =>
    rw [utf8Valid, Bool.and_eq_true, Bool.and_eq_true, decide_eq_true_eq, decide_eq_true_eq] at h
    exact ⟨b, tail, rfl, UInt8.le_iff_toNat_le.mp h.1.1, UInt8.le_iff_toNat_le.mp h.1.2, h.2⟩

theorem utf8Valid_more {low high : UInt8} {code left : ℕ}
    (h : utf8Valid (some ⟨low, high, left + 2, code⟩) rest) : ∃ b tail, rest = b :: tail ∧
      low.toNat ≤ b.toNat ∧ b.toNat ≤ high.toNat ∧
      utf8Valid (some ⟨0x80, 0xbf, left + 1, code * 64 + b.toNat % 64⟩) tail := by
  cases rest with
  | nil => cases h
  | cons b tail =>
    rw [utf8Valid, Bool.and_eq_true, Bool.and_eq_true, decide_eq_true_eq, decide_eq_true_eq] at h
    exact ⟨b, tail, rfl, UInt8.le_iff_toNat_le.mp h.1.1, UInt8.le_iff_toNat_le.mp h.1.2, h.2⟩

/-- The bytes of the character with a number. -/
theorem utf8EncodeChar_ofNat (hn : n.isValidChar) : String.utf8EncodeChar (Char.ofNat n) =
    if n ≤ 0x7f then [.ofNat n]
    else if n ≤ 0x7ff then [.ofNat (n / 64 % 0x20 + 0xc0), .ofNat (n % 0x40 + 0x80)]
    else if n ≤ 0xffff then [.ofNat (n / 4096 % 0x10 + 0xe0), .ofNat (n / 64 % 0x40 + 0x80),
      .ofNat (n % 0x40 + 0x80)]
    else [.ofNat (n / 262144 % 8 + 0xf0), .ofNat (n / 4096 % 0x40 + 0x80),
      .ofNat (n / 64 % 0x40 + 0x80), .ofNat (n % 0x40 + 0x80)] := by
  have hv : (Char.ofNat n).val.toNat = n := by
    rw [Char.ofNat, dif_pos hn]
    rfl
  unfold String.utf8EncodeChar
  rw [hv]

/-- What is valid begins with the bytes of a character. -/
theorem utf8Valid_cons (h : utf8Valid none (b :: rest)) : ∃ c tail,
    b :: rest = String.utf8EncodeChar c ++ tail ∧ tail.length ≤ rest.length ∧
      utf8Valid none tail := by
  have hbyte {b : UInt8} {n : ℕ} (hb : n = b.toNat) : UInt8.ofNat n = b := by
    rw [hb, UInt8.ofNat_toNat]
  have hsize := b.toNat_lt
  rw [utf8Valid, Bool.and_eq_true, decide_eq_true_eq] at h
  obtain ⟨hfirst, hrest⟩ := h
  by_cases h1 : b.toNat < 0x80
  · have hone : firstByte b = ([Char.ofNat b.toNat], none) := if_pos (UInt8.lt_iff_toNat_lt.mpr h1)
    rw [hone] at hrest
    refine ⟨Char.ofNat b.toNat, rest, ?_, le_rfl, hrest⟩
    rw [utf8EncodeChar_ofNat (.inl (by omega)), if_pos (by omega), hbyte rfl, List.singleton_append]
  by_cases h2 : 0xc2 ≤ b.toNat ∧ b.toNat ≤ 0xdf
  · rw [firstByte_two h2.1 h2.2] at hrest
    obtain ⟨b₁, tail, rfl, hlow, hhigh, hvalid⟩ := utf8Valid_last hrest
    have hlow₁ : 128 ≤ b₁.toNat := hlow
    have hhigh₁ : b₁.toNat ≤ 191 := hhigh
    refine ⟨Char.ofNat (b.toNat % 32 * 64 + b₁.toNat % 64), tail, ?_,
      by simp only [List.length_cons]; omega, hvalid⟩
    rw [utf8EncodeChar_ofNat (.inl (by omega)), if_neg (by omega), if_pos (by omega),
      hbyte (b := b) (by omega), hbyte (b := b₁) (by omega)]
    rfl
  by_cases h3 : 0xe0 ≤ b.toNat ∧ b.toNat ≤ 0xef
  · obtain ⟨low, high, hthree, hl, hh⟩ := firstByte_three h3.1 h3.2
    rw [hthree] at hrest
    obtain ⟨b₁, rest₁, rfl, hlow, hhigh, hrest⟩ := utf8Valid_more hrest
    obtain ⟨b₂, tail, rfl, hlow₂, hhigh₂, hvalid⟩ := utf8Valid_last hrest
    have hlow₂ : 128 ≤ b₂.toNat := hlow₂
    have hhigh₂ : b₂.toNat ≤ 191 := hhigh₂
    have hnum : 0x800 ≤ (b.toNat % 16 * 64 + b₁.toNat % 64) * 64 + b₂.toNat % 64 ∧
        128 ≤ b₁.toNat ∧ b₁.toNat ≤ 191 ∧ (b.toNat = 237 → b₁.toNat ≤ 159) := by
      rw [hl] at hlow
      rw [hh] at hhigh
      split_ifs at hlow hhigh
      all_goals omega
    refine ⟨Char.ofNat ((b.toNat % 16 * 64 + b₁.toNat % 64) * 64 + b₂.toNat % 64), tail, ?_,
      by simp only [List.length_cons]; omega, hvalid⟩
    have hchar : ((b.toNat % 16 * 64 + b₁.toNat % 64) * 64 + b₂.toNat % 64).isValidChar := by
      show _ < 0xd800 ∨ 0xdfff < _ ∧ _ < 0x110000
      omega
    rw [utf8EncodeChar_ofNat hchar, if_neg (by omega), if_neg (by omega), if_pos (by omega),
      hbyte (b := b) (by omega), hbyte (b := b₁) (by omega), hbyte (b := b₂) (by omega)]
    rfl
  by_cases h4 : 0xf0 ≤ b.toNat ∧ b.toNat ≤ 0xf4
  · obtain ⟨low, high, hfour, hl, hh⟩ := firstByte_four h4.1 h4.2
    rw [hfour] at hrest
    obtain ⟨b₁, rest₁, rfl, hlow, hhigh, hrest⟩ := utf8Valid_more hrest
    obtain ⟨b₂, rest₂, rfl, hlow₂, hhigh₂, hrest⟩ := utf8Valid_more hrest
    obtain ⟨b₃, tail, rfl, hlow₃, hhigh₃, hvalid⟩ := utf8Valid_last hrest
    have hlow₂ : 128 ≤ b₂.toNat := hlow₂
    have hhigh₂ : b₂.toNat ≤ 191 := hhigh₂
    have hlow₃ : 128 ≤ b₃.toNat := hlow₃
    have hhigh₃ : b₃.toNat ≤ 191 := hhigh₃
    have hnum : 128 ≤ b₁.toNat ∧ b₁.toNat ≤ 191 ∧ (b.toNat = 240 → 144 ≤ b₁.toNat) ∧
        (b.toNat = 244 → b₁.toNat ≤ 143) := by
      rw [hl] at hlow
      rw [hh] at hhigh
      split_ifs at hlow hhigh
      all_goals omega
    refine ⟨Char.ofNat (((b.toNat % 8 * 64 + b₁.toNat % 64) * 64 + b₂.toNat % 64) * 64 +
      b₃.toNat % 64), tail, ?_, by simp only [List.length_cons]; omega, hvalid⟩
    have hchar : (((b.toNat % 8 * 64 + b₁.toNat % 64) * 64 + b₂.toNat % 64) * 64 +
        b₃.toNat % 64).isValidChar := by
      show _ < 0xd800 ∨ 0xdfff < _ ∧ _ < 0x110000
      omega
    rw [utf8EncodeChar_ofNat hchar, if_neg (by omega), if_neg (by omega), if_neg (by omega),
      hbyte (b := b) (by omega), hbyte (b := b₁) (by omega), hbyte (b := b₂) (by omega),
      hbyte (b := b₃) (by omega)]
    rfl
  · exact absurd (congrArg Prod.fst (firstByte_other (b := b) (by omega))) hfirst

/-- What is valid is a text. -/
theorem exists_toUtf8 {bytes : List UInt8} (h : isUtf8 bytes) : ∃ s, bytes = toUtf8 s := by
  generalize hlen : bytes.length = len
  induction len using Nat.strong_induction_on generalizing bytes with
  | _ len ih =>
    cases bytes with
    | nil => exact ⟨[], rfl⟩
    | cons b rest =>
      obtain ⟨c, tail, heq, hle, htail⟩ := utf8Valid_cons h
      rw [List.length_cons] at hlen
      obtain ⟨s, hs⟩ := ih tail.length (by omega) htail rfl
      exact ⟨c :: s, by rw [heq, hs]; rfl⟩

theorem toUtf8_fromUtf8Lossy {bytes : List UInt8} (h : isUtf8 bytes) :
    toUtf8 (fromUtf8Lossy bytes) = bytes := by
  obtain ⟨s, rfl⟩ := exists_toUtf8 h
  rw [fromUtf8Lossy_toUtf8]

end Sequences

/-- `u8::to_ascii_lowercase`. -/
def asciiLowercase (b : UInt8) : UInt8 := if 65 ≤ b ∧ b ≤ 90 then b + 32 else b

theorem asciiLowercase_of_le {b : UInt8} (h : 0x80 ≤ b.toNat) : asciiLowercase b = b := by
  have hn : ¬ (65 ≤ b ∧ b ≤ 90) := by
    rw [UInt8.le_iff_toNat_le, UInt8.le_iff_toNat_le]
    show ¬ (65 ≤ b.toNat ∧ b.toNat ≤ 90)
    omega
  exact if_neg hn

/-- The bytes of a character beyond ASCII are beyond ASCII. -/
theorem le_of_mem_utf8EncodeChar {c : Char} (hc : 0x80 ≤ c.toNat) :
    ∀ b ∈ String.utf8EncodeChar c, 0x80 ≤ b.toNat := by
  have hv : 0x80 ≤ c.val.toNat := hc
  unfold String.utf8EncodeChar
  generalize c.val.toNat = v at hv
  have hbyte {n : ℕ} (h : n < 0x40) : 0x80 ≤ (UInt8.ofNat (n + 0x80)).toNat := by
    rw [UInt8.toNat_ofNat_of_lt' (show _ < 256 by omega)]
    omega
  have hlead {n m : ℕ} (h : n + m < 0x100) (hm : 0x80 ≤ m) :
      0x80 ≤ (UInt8.ofNat (n + m)).toNat := by
    rw [UInt8.toNat_ofNat_of_lt' (show _ < 256 by omega)]
    omega
  dsimp only
  intro b hb
  split_ifs at hb with h1 h2 h3
  · omega
  all_goals
    simp only [List.mem_cons, List.not_mem_nil, or_false] at hb
  · obtain rfl | rfl := hb
    · exact hlead (by omega) (by omega)
    · exact hbyte (by omega)
  · obtain rfl | rfl | rfl := hb
    · exact hlead (by omega) (by omega)
    all_goals exact hbyte (by omega)
  · obtain rfl | rfl | rfl | rfl := hb
    · exact hlead (by omega) (by omega)
    all_goals exact hbyte (by omega)

theorem utf8EncodeChar_toLower (c : Char) :
    String.utf8EncodeChar c.toLower = (String.utf8EncodeChar c).map asciiLowercase := by
  by_cases hc : c.toNat < 0x80
  · have hall : ∀ n < 0x80, String.utf8EncodeChar (Char.ofNat n).toLower =
        (String.utf8EncodeChar (Char.ofNat n)).map asciiLowercase := by decide +kernel
    have hn := hall c.toNat hc
    rwa [Char.ofNat_toNat] at hn
  · have hsame : c.toLower = c := by
      unfold Char.toLower
      refine dif_neg fun h => ?_
      have hz : c.val ≤ 'Z'.val := h.2
      have hle : c.toNat ≤ 90 := UInt32.le_iff_toNat_le.mp hz
      omega
    rw [hsame]
    refine ((List.map_congr_left fun b hb => ?_).trans (List.map_id _)).symm
    exact asciiLowercase_of_le (le_of_mem_utf8EncodeChar (by omega) b hb)

/-- Lower case is the same for a text and for its bytes. -/
theorem toUtf8_toLower (s : Text) :
    toUtf8 (s.map Char.toLower) = (toUtf8 s).map asciiLowercase := by
  unfold toUtf8
  induction s with
  | nil => rfl
  | cons c s ih =>
    rw [List.map_cons, List.flatMap_cons, List.flatMap_cons, List.map_append, ih,
      utf8EncodeChar_toLower]

example : fromUtf8Lossy [0x66, 0xc3, 0xbc, 0xe2, 0x82, 0x2e, 0xff] =
    ['f', 'ü', replacementCharacter, '.', replacementCharacter] := by decide

example : isUtf8 (toUtf8 "nü…".toList) ∧ ¬ isUtf8 [0x6e, 0xc3] ∧ ¬ isUtf8 [0xff] := by decide

end NulConnect.Net
