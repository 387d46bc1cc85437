import Mathlib
import NulConnect.Net.IpAddr

/-! The texts of addresses: an IPv4 address is accepted in its own dotted form only, and an IPv6
address has no characters but hexadecimal digits, dots and colons. -/
namespace NulConnect.Net

/-- A number without a leading zero is how the number is written. -/
theorem toDigits_ofDigitChars {s : Text} (hne : s ≠ []) (hd : ∀ c ∈ s, c.isDigit)
    (hz : s.head? = some '0' → s.length = 1) :
    Nat.toDigits 10 (Nat.ofDigitChars 10 s 0) = s := by
  induction s using List.reverseRecOn with
  | nil => exact absurd rfl hne
  | append_singleton t c ih =>
    have hc : c.isDigit := hd c (by simp)
    have hlast : c.toNat - '0'.toNat < 10 ∧ (c.toNat - '0'.toNat).digitChar = c := by
      simp only [Char.isDigit, Bool.and_eq_true, decide_eq_true_eq, UInt32.le_iff_toNat_le] at hc
      have hlo : 48 ≤ c.toNat := hc.1
      have hhi : c.toNat ≤ 57 := hc.2
      have hzero : '0'.toNat = 48 := rfl
      refine ⟨by omega, ?_⟩
      apply Char.toNat_inj.mp
      rw [Nat.toNat_digitChar_of_lt_ten (by omega)]
      omega
    rw [Nat.ofDigitChars_append, Nat.ofDigitChars_cons, Nat.ofDigitChars_nil]
    cases t with
    | nil =>
      rw [Nat.ofDigitChars_nil, Nat.mul_zero, Nat.zero_add, Nat.toDigits_of_lt_base hlast.1,
        hlast.2]
      rfl
    | cons x t =>
      have hx : x ≠ '0' := by
        rintro rfl
        simpa using hz rfl
      have ht := ih (List.cons_ne_nil _ _) (fun d hd' => hd d (List.mem_append_left _ hd'))
        (fun h => absurd (Option.some.inj h) hx)
      have hpos : 0 < Nat.ofDigitChars 10 (x :: t) 0 := by
        apply Nat.pos_of_ne_zero
        intro hzero
        rw [hzero, Nat.toDigits_zero] at ht
        exact hx (List.cons.inj ht).1.symm
      rw [← Nat.toDigits_append_toDigits (by decide) hpos hlast.1, ht,
        Nat.toDigits_of_lt_base hlast.1, hlast.2]

namespace Ipv4Addr

theorem parseOctet_eq_toDigits {s : Text} {b : BitVec 8} (h : parseOctet s = some b) :
    Nat.toDigits 10 b.toNat = s := by
  unfold parseOctet at h
  split at h
  · rename_i hs
    obtain ⟨hne, -, hd, hz, hlt⟩ := hs
    obtain rfl := Option.some.inj h
    rw [BitVec.toNat_ofNat, Nat.mod_eq_of_lt hlt]
    exact toDigits_ofDigitChars hne (List.all_eq_true.mp hd) hz
  · cases h

theorem getLsbD_ofOctets (a b c d : BitVec 8) (i : ℕ) :
    (ofOctets a b c d).getLsbD i =
      if i < 8 then d.getLsbD i
      else if i - 8 < 8 then c.getLsbD (i - 8)
      else if i - 8 - 8 < 8 then b.getLsbD (i - 8 - 8)
      else a.getLsbD (i - 8 - 8 - 8) := by
  show (a ++ b ++ c ++ d).getLsbD i = _
  simp only [BitVec.getLsbD_append]

theorem octets_ofOctets (a b c d : BitVec 8) : (ofOctets a b c d).octets = [a, b, c, d] := by
  have hat {start : ℕ} {x : BitVec 8}
      (h : ∀ i < 8, (ofOctets a b c d).getLsbD (start + i) = x.getLsbD i) :
      (ofOctets a b c d).extractLsb' start 8 = x := by
    ext i hi
    rw [BitVec.getElem_extractLsb', h i hi, BitVec.getLsbD_eq_getElem]
  have ha : (ofOctets a b c d).extractLsb' 24 8 = a := by
    apply hat
    intro i hi
    rw [getLsbD_ofOctets, if_neg (by omega), if_neg (by omega), if_neg (by omega)]
    congr 1
    omega
  have hb : (ofOctets a b c d).extractLsb' 16 8 = b := by
    apply hat
    intro i hi
    rw [getLsbD_ofOctets, if_neg (by omega), if_neg (by omega), if_pos (by omega)]
    congr 1
    omega
  have hc : (ofOctets a b c d).extractLsb' 8 8 = c := by
    apply hat
    intro i hi
    rw [getLsbD_ofOctets, if_neg (by omega), if_pos (by omega)]
    congr 1
    omega
  have hd : (ofOctets a b c d).extractLsb' 0 8 = d := by
    apply hat
    intro i hi
    rw [getLsbD_ofOctets, if_pos (by omega), Nat.zero_add]
  rw [octets, ha, hb, hc, hd]

/-- The dotted form of an address is the only text of it that is accepted. -/
theorem parse_eq_some {s : Text} {ip : Ipv4Addr} (h : parse s = some ip) : s = ip.toText := by
  have hjoin : ['.'].intercalate (s.splitOn '.') = s := List.intercalate_splitOn '.'
  unfold parse at h
  split at h
  · rename_i a b c d hsplit
    simp only [Option.pure_def, Option.bind_eq_bind, Option.bind_eq_some_iff, Option.some.injEq]
      at h
    obtain ⟨a', ha, b', hb, c', hc, d', hd, rfl⟩ := h
    rw [← hjoin, hsplit, toText, octets_ofOctets]
    simp only [List.map_cons, List.map_nil, parseOctet_eq_toDigits ha, parseOctet_eq_toDigits hb,
      parseOctet_eq_toDigits hc, parseOctet_eq_toDigits hd]
  · cases h

theorem parseOctet_toDigits (b : BitVec 8) : parseOctet (Nat.toDigits 10 b.toNat) = some b := by
  have hall : ∀ n < 256, parseOctet (Nat.toDigits 10 n) = some (BitVec.ofNat 8 n) := by
    decide +kernel
  have hb := hall b.toNat b.isLt
  rwa [BitVec.ofNat_toNat, BitVec.setWidth_eq] at hb

theorem ofOctets_octets (ip : Ipv4Addr) :
    ofOctets (ip.extractLsb' 24 8) (ip.extractLsb' 16 8) (ip.extractLsb' 8 8)
      (ip.extractLsb' 0 8) = ip := by
  apply BitVec.eq_of_getLsbD_eq
  intro i hi
  rw [getLsbD_ofOctets]
  simp only [BitVec.getLsbD_extractLsb']
  split_ifs with h0 h1 h2
  · simp [h0]
  · rw [decide_eq_true h1, Bool.true_and]
    congr 1
    omega
  · rw [decide_eq_true h2, Bool.true_and]
    congr 1
    omega
  · rw [decide_eq_true (by omega), Bool.true_and]
    congr 1
    omega

/-- The dotted form of an address is accepted. -/
theorem parse_toText (ip : Ipv4Addr) : parse ip.toText = some ip := by
  have hsplit : ip.toText.splitOn '.' = ip.octets.map fun b => Nat.toDigits 10 b.toNat := by
    unfold toText
    apply List.splitOn_intercalate
    · intro s hs hdot
      obtain ⟨b, -, hb⟩ := List.mem_map.mp hs
      rw [← hb] at hdot
      have hdigit := Nat.isDigit_of_mem_toDigits (b := 10) (by decide) (by decide) hdot
      revert hdigit
      decide
    · simp [octets]
  unfold parse
  rw [hsplit]
  simp only [octets, List.map_cons, List.map_nil, parseOctet_toDigits, Option.pure_def,
    Option.bind_eq_bind, Option.bind_some, ofOctets_octets]

end Ipv4Addr

/-- The characters of an address. -/
def isAddressChar (c : Char) : Bool := c.isAlphanum || c == '.' || c == ':'

theorem isAddressChar_of_isDigit {c : Char} (h : c.isDigit) : isAddressChar c := by
  simp [isAddressChar, Char.isAlphanum, h]

theorem isAddressChar_of_isHexDigit {c : Char} (h : isHexDigit c) : isAddressChar c := by
  simp only [isHexDigit, Bool.or_eq_true, Bool.and_eq_true, decide_eq_true_eq, Char.le_def] at h
  simp only [isAddressChar, Char.isAlphanum, Char.isAlpha, Char.isLower, Char.isUpper,
    Bool.or_eq_true, Bool.and_eq_true, decide_eq_true_eq]
  rcases h with (h | ⟨hlo, hhi⟩) | ⟨hlo, hhi⟩
  · exact .inl (.inl (.inr h))
  · have hz : c.val ≤ 'z'.val := UInt32.le_trans hhi (by decide)
    exact .inl (.inl (.inl (.inr ⟨hlo, hz⟩)))
  · have hz : c.val ≤ 'Z'.val := UInt32.le_trans hhi (by decide)
    exact .inl (.inl (.inl (.inl ⟨hlo, hz⟩)))

/-- A reader that leaves `rest` of `s` has read characters of an address. -/
def Reads (s rest : Text) : Prop := ∃ front, s = front ++ rest ∧ ∀ c ∈ front, isAddressChar c

namespace Reads

variable {s t u : Text}

theorem refl (s : Text) : Reads s s := ⟨[], rfl, by simp⟩

theorem trans (h : Reads s t) (h' : Reads t u) : Reads s u := by
  obtain ⟨front, rfl, hfront⟩ := h
  obtain ⟨front', rfl, hfront'⟩ := h'
  refine ⟨front ++ front', by simp, ?_⟩
  intro c hc
  rcases List.mem_append.mp hc with hc | hc
  · exact hfront c hc
  · exact hfront' c hc

theorem dropWhile {p : Char → Bool} (hp : ∀ c, p c → isAddressChar c) :
    Reads s (s.dropWhile p) := by
  refine ⟨s.takeWhile p, List.takeWhile_append_dropWhile.symm, ?_⟩
  intro c hc
  exact hp c (List.mem_takeWhile_imp hc)

end Reads

section Readers

variable {s rest : Text}

theorem readChar_reads {c : Char} (hc : isAddressChar c) (h : readChar c s = some rest) :
    Reads s rest := by
  cases s with
  | nil => cases h
  | cons x s =>
    rw [readChar] at h
    split at h
    · rename_i hx
      subst hx
      obtain rfl := Option.some.inj h
      exact ⟨[x], rfl, by simpa using hc⟩
    · cases h

theorem readOctet_reads {b : BitVec 8} (h : readOctet s = some (b, rest)) : Reads s rest := by
  obtain ⟨octet, -, hoctet⟩ := Option.map_eq_some_iff.mp h
  obtain ⟨-, rfl⟩ := Prod.mk.inj hoctet
  exact Reads.dropWhile fun c hc => isAddressChar_of_isDigit hc

theorem readIpv4_reads {ip : Ipv4Addr} (h : readIpv4 s = some (ip, rest)) : Reads s rest := by
  have hdot : isAddressChar '.' := by decide
  simp only [readIpv4, Option.pure_def, Option.bind_eq_bind, Option.bind_eq_some_iff,
    Option.some.injEq, Prod.mk.injEq, Prod.exists] at h
  obtain ⟨a, s₁, ha, t₁, h₁, b, s₂, hb, t₂, h₂, c, s₃, hc, t₃, h₃, d, s₄, hd, -, rfl⟩ := h
  have hab := (readOctet_reads ha).trans (readChar_reads hdot h₁)
  have hbc := (readOctet_reads hb).trans (readChar_reads hdot h₂)
  have hcd := (readOctet_reads hc).trans (readChar_reads hdot h₃)
  exact ((hab.trans hbc).trans hcd).trans (readOctet_reads hd)

theorem readGroup_reads (h : readGroup s = some rest) : Reads s rest := by
  rw [readGroup] at h
  split at h
  · obtain rfl := Option.some.inj h
    exact Reads.dropWhile fun c hc => isAddressChar_of_isHexDigit hc
  · cases h

theorem readSeparated_reads {α : Type*} (after : α → Text) {i : ℕ} {read : Text → Option α}
    {a : α} (hread : ∀ t a, read t = some a → Reads t (after a))
    (h : readSeparated i read s = some a) : Reads s (after a) := by
  rw [readSeparated] at h
  split at h
  · exact hread s a h
  · obtain ⟨t, ht, hta⟩ := Option.bind_eq_some_iff.mp h
    exact (readChar_reads (by decide) ht).trans (hread t a hta)

theorem readGroups_reads (left i : ℕ) (s : Text) : Reads s (readGroups left i s).2.2 := by
  induction left generalizing i s with
  | zero => exact Reads.refl s
  | succ left ih =>
    rw [readGroups]
    split
    · rename_i ip rest h
      have hsep : readSeparated i readIpv4 s = some (ip, rest) := by
        split at h
        · exact h
        · cases h
      have hreads := readSeparated_reads Prod.snd (fun t a ha => readIpv4_reads ha) hsep
      exact hreads
    · split
      · rename_i rest h
        exact (readSeparated_reads id (fun t a ha => readGroup_reads ha) h).trans (ih (i + 1) rest)
      · exact Reads.refl s

theorem readIpv6_reads (h : readIpv6 s = some rest) : Reads s rest := by
  have hhead := readGroups_reads 8 0 s
  rw [readIpv6] at h
  obtain ⟨head, ipv4, tail⟩ := readGroups 8 0 s
  simp only at h hhead
  split at h
  · obtain rfl := Option.some.inj h
    exact hhead
  · split at h
    · cases h
    · simp only [Option.pure_def, Option.bind_eq_bind, Option.bind_eq_some_iff,
        Option.some.injEq] at h
      obtain ⟨t, ht, u, hu, rfl⟩ := h
      have hcolons := (readChar_reads (by decide) ht).trans (readChar_reads (by decide) hu)
      exact (hhead.trans hcolons).trans (readGroups_reads _ _ _)

end Readers

theorem isDigit_or_dot_of_mem_toText {ip : Ipv4Addr} {c : Char} (h : c ∈ ip.toText) :
    c.isDigit ∨ c = '.' := by
  have hdigit : ∀ n, c ∈ Nat.toDigits 10 n → c.isDigit := fun n hn =>
    Nat.isDigit_of_mem_toDigits (b := 10) (by decide) (by decide) hn
  simp only [Ipv4Addr.toText, Ipv4Addr.octets, List.map_cons, List.map_nil, List.intercalate,
    List.intersperse, List.flatten_cons, List.flatten_nil, List.mem_append, List.mem_singleton,
    List.append_nil] at h
  obtain h | h | h | h | h | h | h := h
  · exact .inl (hdigit _ h)
  · exact .inr h
  · exact .inl (hdigit _ h)
  · exact .inr h
  · exact .inl (hdigit _ h)
  · exact .inr h
  · exact .inl (hdigit _ h)

theorem isAddressChar_of_ipKind {s : Text} {kind : IpKind} (h : ipKind s = some kind) :
    ∀ c ∈ s, isAddressChar c := by
  intro c hc
  rw [ipKind] at h
  split at h
  · rename_i hv4
    obtain ⟨ip, hip⟩ := Option.isSome_iff_exists.mp hv4
    rw [Ipv4Addr.parse_eq_some hip] at hc
    rcases isDigit_or_dot_of_mem_toText hc with hd | rfl
    · exact isAddressChar_of_isDigit hd
    · decide
  · split at h
    · rename_i hv6
      obtain ⟨front, hs, hfront⟩ := readIpv6_reads hv6
      rw [hs, List.append_nil] at hc
      exact hfront c hc
    · cases h

end NulConnect.Net
