import NulConnect.Net.Text
import Mathlib.Data.UInt

/-! UTF-16: the code units of a text and back, and the multi-string values of the registry. -/
namespace NulConnect.Net

def isHighSurrogate (u : UInt16) : Bool := 0xd800 ≤ u.toNat && u.toNat < 0xdc00

def isLowSurrogate (u : UInt16) : Bool := 0xdc00 ≤ u.toNat && u.toNat < 0xe000

def encodeUtf16Char (c : Char) : List UInt16 :=
  if c.toNat < 0x10000 then [UInt16.ofNat c.toNat]
  else [UInt16.ofNat (0xd800 + (c.toNat - 0x10000) / 0x400),
    UInt16.ofNat (0xdc00 + (c.toNat - 0x10000) % 0x400)]

/-- `str::encode_utf16`. -/
def encodeUtf16 (s : Text) : List UInt16 := s.flatMap encodeUtf16Char

/-- The text of the units, where every surrogate is one of a pair. -/
def decodeUtf16 : List UInt16 → Option Text
  | [] => some []
  | [u] => if isHighSurrogate u || isLowSurrogate u then none else some [Char.ofNat u.toNat]
  | u :: v :: rest =>
    if isHighSurrogate u then
      if isLowSurrogate v then
        (decodeUtf16 rest).map fun s =>
          Char.ofNat (0x10000 + (u.toNat - 0xd800) * 0x400 + (v.toNat - 0xdc00)) :: s
      else none
    else if isLowSurrogate u then none
    else (decodeUtf16 (v :: rest)).map fun s => Char.ofNat u.toNat :: s

/-- `to_le_bytes` of every unit. -/
def utf16Bytes (units : List UInt16) : List UInt8 :=
  units.flatMap fun u => [UInt8.ofNat (u.toNat % 256), UInt8.ofNat (u.toNat / 256)]

def unitsOfBytes : List UInt8 → Option (List UInt16)
  | [] => some []
  | [_] => none
  | low :: high :: rest =>
    (unitsOfBytes rest).map fun units => UInt16.ofNat (low.toNat + high.toNat * 256) :: units

/-- The strings of a multi-string value: each ends in a zero, and the first empty one ends the
list. `string` is what has been read of the present one. -/
def readStrings (string : List UInt16) : List UInt16 → List (List UInt16)
  | [] => []
  | u :: rest =>
    if u ≠ 0 then readStrings (string ++ [u]) rest
    else if string = [] then []
    else string :: readStrings [] rest

/-- What a `REG_MULTI_SZ` value says. -/
def decodeMultiSz (bytes : List UInt8) : Option (List Text) :=
  (unitsOfBytes bytes).bind fun units => (readStrings [] units).mapM decodeUtf16

variable {s : Text} {c : Char} {units : List UInt16}

theorem unitsOfBytes_utf16Bytes (units : List UInt16) :
    unitsOfBytes (utf16Bytes units) = some units := by
  induction units with
  | nil => rfl
  | cons u units ih =>
    have hlt : u.toNat < 65536 := u.toNat_lt
    have hlow : (UInt8.ofNat (u.toNat % 256)).toNat = u.toNat % 256 :=
      UInt8.toNat_ofNat_of_lt' (show u.toNat % 256 < 256 by omega)
    have hhigh : (UInt8.ofNat (u.toNat / 256)).toNat = u.toNat / 256 :=
      UInt8.toNat_ofNat_of_lt' (show u.toNat / 256 < 256 by omega)
    have hunit : UInt16.ofNat (u.toNat % 256 + u.toNat / 256 * 256) = u := by
      rw [show u.toNat % 256 + u.toNat / 256 * 256 = u.toNat by omega, UInt16.ofNat_toNat]
    have hcons : utf16Bytes (u :: units) = UInt8.ofNat (u.toNat % 256) ::
        UInt8.ofNat (u.toNat / 256) :: utf16Bytes units := rfl
    rw [hcons, unitsOfBytes, ih, hlow, hhigh, hunit, Option.map_some]

theorem toNat_valid (c : Char) : c.toNat < 0xd800 ∨ 0xdfff < c.toNat ∧ c.toNat < 0x110000 := c.valid

theorem toNat_ofNat_of_valid {n : ℕ} (h : n < 0xd800 ∨ 0xdfff < n ∧ n < 0x110000) :
    (Char.ofNat n).toNat = n := by
  have hvalid : n.isValidChar := h
  rw [Char.ofNat, dif_pos hvalid]
  rfl

/-- A character that is one unit. -/
theorem unit_of_lt (h : c.toNat < 0x10000) :
    (UInt16.ofNat c.toNat).toNat = c.toNat ∧ isHighSurrogate (UInt16.ofNat c.toNat) = false ∧
      isLowSurrogate (UInt16.ofNat c.toNat) = false := by
  have hunit : (UInt16.ofNat c.toNat).toNat = c.toNat := UInt16.toNat_ofNat_of_lt' h
  have hvalid := toNat_valid c
  refine ⟨hunit, ?_, ?_⟩
  · simp only [isHighSurrogate, hunit, Bool.and_eq_false_iff, decide_eq_false_iff_not]
    omega
  · simp only [isLowSurrogate, hunit, Bool.and_eq_false_iff, decide_eq_false_iff_not]
    omega

theorem decodeUtf16_char (c : Char) (units : List UInt16) :
    decodeUtf16 (encodeUtf16Char c ++ units) = (decodeUtf16 units).map (c :: ·) := by
  by_cases hc : c.toNat < 0x10000
  · obtain ⟨hunit, hhigh, hlow⟩ := unit_of_lt hc
    have hchar : Char.ofNat (UInt16.ofNat c.toNat).toNat = c := by rw [hunit, Char.ofNat_toNat]
    rw [encodeUtf16Char, if_pos hc, List.singleton_append]
    cases units with
    | nil =>
      simp only [decodeUtf16, hhigh, hlow, hchar, Bool.or_false, Bool.false_eq_true, if_false,
        Option.map_some]
    | cons v rest => simp only [decodeUtf16, hhigh, hlow, hchar, Bool.false_eq_true, if_false]
  · have hvalid := toNat_valid c
    set n := c.toNat - 0x10000 with hn
    have hhigh : (UInt16.ofNat (0xd800 + n / 0x400)).toNat = 0xd800 + n / 0x400 :=
      UInt16.toNat_ofNat_of_lt' (show 0xd800 + n / 0x400 < 65536 by omega)
    have hlow : (UInt16.ofNat (0xdc00 + n % 0x400)).toNat = 0xdc00 + n % 0x400 :=
      UInt16.toNat_ofNat_of_lt' (show 0xdc00 + n % 0x400 < 65536 by omega)
    have hisHigh : isHighSurrogate (UInt16.ofNat (0xd800 + n / 0x400)) = true := by
      simp only [isHighSurrogate, hhigh, Bool.and_eq_true, decide_eq_true_eq]
      omega
    have hisLow : isLowSurrogate (UInt16.ofNat (0xdc00 + n % 0x400)) = true := by
      simp only [isLowSurrogate, hlow, Bool.and_eq_true, decide_eq_true_eq]
      omega
    have hcode : 0x10000 + (0xd800 + n / 0x400 - 0xd800) * 0x400 + (0xdc00 + n % 0x400 - 0xdc00) =
        c.toNat := by omega
    rw [encodeUtf16Char, if_neg hc, ← hn]
    simp only [List.cons_append, List.nil_append, decodeUtf16, hisHigh, hisLow, if_true, hhigh,
      hlow, hcode, Char.ofNat_toNat]

theorem decodeUtf16_encodeUtf16 (s : Text) : decodeUtf16 (encodeUtf16 s) = some s := by
  induction s with
  | nil => rfl
  | cons c s ih =>
    have hcons : encodeUtf16 (c :: s) = encodeUtf16Char c ++ encodeUtf16 s := rfl
    rw [hcons, decodeUtf16_char, ih, Option.map_some]

theorem zero_notMem_encodeUtf16Char (hc : c ≠ '\x00') : 0 ∉ encodeUtf16Char c := by
  have hne : c.toNat ≠ 0 := fun h => hc (Char.toNat_inj.mp h)
  have hzero : ∀ n, 0 < n → n < 65536 → (0 : UInt16) ≠ UInt16.ofNat n := by
    intro n hpos hlt h
    have hnat : (0 : UInt16).toNat = (UInt16.ofNat n).toNat := congrArg UInt16.toNat h
    rw [UInt16.toNat_ofNat_of_lt' hlt] at hnat
    change 0 = n at hnat
    omega
  have hvalid := toNat_valid c
  unfold encodeUtf16Char
  by_cases hlt : c.toNat < 0x10000
  · rw [if_pos hlt, List.mem_singleton]
    exact hzero _ (by omega) hlt
  · rw [if_neg hlt]
    have hhigh := hzero (0xd800 + (c.toNat - 0x10000) / 0x400) (by omega) (by omega)
    have hlow := hzero (0xdc00 + (c.toNat - 0x10000) % 0x400) (by omega) (by omega)
    simp only [List.mem_cons, hhigh, hlow, List.not_mem_nil, or_self, not_false_eq_true]

theorem zero_notMem_encodeUtf16 (hs : '\x00' ∉ s) : 0 ∉ encodeUtf16 s := by
  intro hzero
  obtain ⟨c, hc, hmem⟩ := List.mem_flatMap.mp hzero
  exact zero_notMem_encodeUtf16Char (fun h => hs (h ▸ hc)) hmem

theorem encodeUtf16_ne_nil (hs : s ≠ []) : encodeUtf16 s ≠ [] := by
  cases s with
  | nil => exact absurd rfl hs
  | cons c s =>
    have hchar : encodeUtf16Char c ≠ [] := by
      unfold encodeUtf16Char
      split <;> simp
    intro hnil
    exact hchar (List.append_eq_nil_iff.mp hnil).1

/-- The only character that gives a zero unit is the zero character, and the other way round. -/
theorem nul_notMem_of_decodeUtf16 (h : decodeUtf16 units = some s) (hunits : 0 ∉ units) :
    '\x00' ∉ s := by
  have hofNat : ∀ n, n ≠ 0 → n < 0xd800 ∨ 0xdfff < n ∧ n < 0x110000 → '\x00' ≠ Char.ofNat n := by
    intro n hne hvalid hchar
    have hnat : (Char.ofNat n).toNat = n := toNat_ofNat_of_valid hvalid
    rw [← hchar] at hnat
    exact hne hnat.symm
  have hsingle : ∀ u : UInt16, u ≠ 0 → isHighSurrogate u = false → isLowSurrogate u = false →
      '\x00' ≠ Char.ofNat u.toNat := by
    intro u hne hhigh hlow
    have hlt : u.toNat < 65536 := u.toNat_lt
    simp only [isHighSurrogate, isLowSurrogate, Bool.and_eq_false_iff,
      decide_eq_false_iff_not] at hhigh hlow
    apply hofNat
    · exact fun hzero => hne (UInt16.toNat_inj.mp hzero)
    · omega
  fun_induction decodeUtf16 units generalizing s with
  | case1 =>
    cases h
    exact List.not_mem_nil
  | case2 u hsurrogate => cases h
  | case3 u hsurrogate =>
    cases h
    simp only [Bool.or_eq_true, not_or, Bool.not_eq_true] at hsurrogate
    have hne : u ≠ 0 := fun hzero => hunits (hzero ▸ List.mem_cons_self)
    simpa using hsingle u hne hsurrogate.1 hsurrogate.2
  | case4 u v rest hhigh hlow ih =>
    obtain ⟨t, ht, hs⟩ := Option.map_eq_some_iff.mp h
    have hrest : 0 ∉ rest := fun hr =>
      hunits (List.mem_cons_of_mem _ (List.mem_cons_of_mem _ hr))
    simp only [isHighSurrogate, isLowSurrogate, Bool.and_eq_true, decide_eq_true_eq] at hhigh hlow
    have hpair := hofNat (0x10000 + (u.toNat - 0xd800) * 0x400 + (v.toNat - 0xdc00)) (by omega)
      (by omega)
    rw [← hs, List.mem_cons, not_or]
    exact ⟨hpair, ih ht hrest⟩
  | case5 u v rest hhigh hlow => cases h
  | case6 u v rest hhigh hlow => cases h
  | case7 u v rest hhigh hlow ih =>
    obtain ⟨t, ht, hs⟩ := Option.map_eq_some_iff.mp h
    have hne : u ≠ 0 := fun hzero => hunits (hzero ▸ List.mem_cons_self)
    have hrest : 0 ∉ v :: rest := fun hr => hunits (List.mem_cons_of_mem _ hr)
    simp only [Bool.not_eq_true] at hhigh hlow
    rw [← hs, List.mem_cons, not_or]
    exact ⟨hsingle u hne hhigh hlow, ih ht hrest⟩

/-- A string without a zero is read up to the zero behind it. -/
theorem readStrings_append {string read rest : List UInt16} (hstring : 0 ∉ string)
    (hne : read ++ string ≠ []) :
    readStrings read (string ++ 0 :: rest) = (read ++ string) :: readStrings [] rest := by
  induction string generalizing read with
  | nil =>
    rw [List.append_nil] at hne
    simp [readStrings, hne]
  | cons u string ih =>
    have hu : u ≠ 0 := fun hzero => hstring (hzero ▸ List.mem_cons_self)
    have hrest : 0 ∉ string := fun hr => hstring (List.mem_cons_of_mem _ hr)
    rw [List.cons_append, readStrings, if_pos hu, ih hrest (by simp)]
    simp

theorem zero_notMem_of_readStrings {read string : List UInt16} (hread : 0 ∉ read)
    (h : string ∈ readStrings read units) : 0 ∉ string := by
  induction units generalizing read with
  | nil => cases h
  | cons u rest ih =>
    rw [readStrings] at h
    split_ifs at h with hu hnil
    · exact ih (by simp [hread, Ne.symm hu]) h
    · cases h
    · cases List.mem_cons.mp h with
      | inl heq => rwa [heq]
      | inr hmem => exact ih List.not_mem_nil hmem

/-- Each string with its zero, and the empty string at the end. -/
def multiSzUnits (values : List Text) : List UInt16 :=
  (values.flatMap fun value => encodeUtf16 value ++ [0]) ++ [0]

theorem readStrings_multiSzUnits {values : List Text}
    (h : ∀ value ∈ values, value ≠ [] ∧ '\x00' ∉ value) :
    readStrings [] (multiSzUnits values) = values.map encodeUtf16 := by
  induction values with
  | nil => rfl
  | cons value values ih =>
    have hvalue := h value List.mem_cons_self
    have hrest := ih fun v hv => h v (List.mem_cons_of_mem _ hv)
    have hcons : multiSzUnits (value :: values) =
        encodeUtf16 value ++ 0 :: multiSzUnits values := by
      simp [multiSzUnits]
    rw [hcons, readStrings_append (zero_notMem_encodeUtf16 hvalue.2)
      (encodeUtf16_ne_nil hvalue.1), hrest]
    rfl

theorem mapM_decodeUtf16_encodeUtf16 (values : List Text) :
    (values.map encodeUtf16).mapM decodeUtf16 = some values := by
  induction values with
  | nil => rfl
  | cons value values ih =>
    rw [List.map_cons, List.mapM_cons, decodeUtf16_encodeUtf16, ih]
    rfl

theorem nul_notMem_of_mapM_decodeUtf16 {strings : List (List UInt16)} {values : List Text}
    (h : strings.mapM decodeUtf16 = some values) (hstrings : ∀ string ∈ strings, 0 ∉ string) :
    ∀ value ∈ values, '\x00' ∉ value := by
  induction strings generalizing values with
  | nil =>
    cases h
    exact fun _ hvalue => absurd hvalue List.not_mem_nil
  | cons string strings ih =>
    rw [List.mapM_cons] at h
    obtain ⟨first, hfirst, hrest⟩ := Option.bind_eq_some_iff.mp h
    obtain ⟨rest, hvalues, heq⟩ := Option.bind_eq_some_iff.mp hrest
    cases heq
    intro value hvalue
    cases List.mem_cons.mp hvalue with
    | inl hv =>
      rw [hv]
      exact nul_notMem_of_decodeUtf16 hfirst (hstrings string List.mem_cons_self)
    | inr hv => exact ih hvalues (fun s hs => hstrings s (List.mem_cons_of_mem _ hs)) value hv

/-- A list of texts comes back exactly where none of them holds the zero character. -/
theorem decodeMultiSz_eq_some_iff {values : List Text} (hne : ∀ value ∈ values, value ≠ []) :
    decodeMultiSz (utf16Bytes (multiSzUnits values)) = some values ↔
      ∀ value ∈ values, '\x00' ∉ value := by
  rw [decodeMultiSz, unitsOfBytes_utf16Bytes, Option.bind_some]
  constructor
  · intro hdecode
    have hzero : ∀ string ∈ readStrings [] (multiSzUnits values), 0 ∉ string := fun _ hstring =>
      zero_notMem_of_readStrings List.not_mem_nil hstring
    exact nul_notMem_of_mapM_decodeUtf16 hdecode hzero
  · intro hnul
    have hread := readStrings_multiSzUnits fun value hvalue => ⟨hne value hvalue, hnul value hvalue⟩
    rw [hread]
    exact mapM_decodeUtf16_encodeUtf16 values

end NulConnect.Net
