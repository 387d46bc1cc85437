import Mathlib.Tactic

/-! Messages of the domain name system in the format of RFC 1035: the decoder, compressed names
included, and the bytes of the parts it decodes. -/
namespace NulConnect.Dns

abbrev Bytes := List UInt8

/-- The bytes stand in the message from an offset on. -/
def At (m : Bytes) (pos : ℕ) (bytes : Bytes) : Prop := bytes <+: m.drop pos

/-- A number of two bytes, the high one first. -/
def be16 (hi lo : UInt8) : UInt16 := UInt16.ofNat (hi.toNat * 256 + lo.toNat)

def word (m : Bytes) (pos : ℕ) : Option UInt16 := do
  return be16 (← m[pos]?) (← m[pos + 1]?)

def long (m : Bytes) (pos : ℕ) : Option UInt32 := do
  let hi ← word m pos
  let lo ← word m (pos + 2)
  return UInt32.ofNat (hi.toNat * 65536 + lo.toNat)

def slice (m : Bytes) (pos len : ℕ) : Option Bytes :=
  if pos + len ≤ m.length then some ((m.drop pos).take len) else none

/-- The labels of a domain name, without the empty one of the root. -/
abbrev Name := List Bytes

/-- The name at an offset and the offset after it. A pointer leads to an earlier part of the
message; a name that ends takes no more steps than the message has bytes. -/
def name (m : Bytes) : ℕ → ℕ → Option (Name × ℕ)
  | 0, _ => none
  | fuel + 1, pos => do
    let len ← m[pos]?
    if len = 0 then
      return ([], pos + 1)
    else if len < 64 then
      let label ← slice m (pos + 1) len.toNat
      let (labels, next) ← name m fuel (pos + 1 + len.toNat)
      return (label :: labels, next)
    else if 192 ≤ len then
      let low ← m[pos + 1]?
      let target := (len.toNat - 192) * 256 + low.toNat
      if target < pos then
        let (labels, _) ← name m fuel target
        return (labels, pos + 2)
      else none
    else none

structure Header where
  id : UInt16
  qr : Bool
  opcode : UInt8
  aa : Bool
  tc : Bool
  rd : Bool
  ra : Bool
  z : UInt8
  rcode : UInt8
deriving DecidableEq

structure Question where
  name : Name
  qtype : UInt16
  qclass : UInt16
deriving DecidableEq

structure Record where
  name : Name
  rtype : UInt16
  rclass : UInt16
  ttl : UInt32
  rdata : Bytes
deriving DecidableEq

structure Message where
  header : Header
  questions : List Question
  answers : List Record
  authority : List Record
  additional : List Record
deriving DecidableEq

/-- The identifier and the two bytes of flags. -/
def header (m : Bytes) : Option Header := do
  let id ← word m 0
  let flags : UInt8 ← m[2]?
  let codes : UInt8 ← m[3]?
  return {
    id := id
    qr := flags &&& 0x80 != 0
    opcode := (flags >>> 3) &&& 0xf
    aa := flags &&& 4 != 0
    tc := flags &&& 2 != 0
    rd := flags &&& 1 != 0
    ra := codes &&& 0x80 != 0
    z := (codes >>> 4) &&& 7
    rcode := codes &&& 0xf }

def question (m : Bytes) (pos : ℕ) : Option (Question × ℕ) := do
  let (name, pos) ← name m m.length pos
  let qtype ← word m pos
  let qclass ← word m (pos + 2)
  return ({ name := name, qtype := qtype, qclass := qclass }, pos + 4)

def record (m : Bytes) (pos : ℕ) : Option (Record × ℕ) := do
  let (name, pos) ← name m m.length pos
  let rtype ← word m pos
  let rclass ← word m (pos + 2)
  let ttl ← long m (pos + 4)
  let rdlength ← word m (pos + 8)
  let rdata ← slice m (pos + 10) rdlength.toNat
  return ({ name := name, rtype := rtype, rclass := rclass, ttl := ttl, rdata := rdata },
    pos + 10 + rdlength.toNat)

/-- The entries of a section, as many as its count says. -/
def entries {α : Type*} (item : ℕ → Option (α × ℕ)) : ℕ → ℕ → Option (List α × ℕ)
  | 0, pos => some ([], pos)
  | n + 1, pos => do
    let (first, pos) ← item pos
    let (others, pos) ← entries item n pos
    return (first :: others, pos)

/-- A whole message; nothing may follow its last section. -/
def decode (m : Bytes) : Option Message := do
  let header ← header m
  let qdcount ← word m 4
  let ancount ← word m 6
  let nscount ← word m 8
  let arcount ← word m 10
  let (questions, pos) ← entries (question m) qdcount.toNat 12
  let (answers, pos) ← entries (record m) ancount.toNat pos
  let (authority, pos) ← entries (record m) nscount.toNat pos
  let (additional, pos) ← entries (record m) arcount.toNat pos
  if pos = m.length then
    return {
      header := header
      questions := questions
      answers := answers
      authority := authority
      additional := additional }
  else none

section At

variable {m a b : Bytes} {pos : ℕ} {x : UInt8}

@[simp] theorem at_nil : At m pos [] := List.nil_prefix

theorem at_cons : At m pos (x :: a) ↔ m[pos]? = some x ∧ At m (pos + 1) a := by
  unfold At
  cases hd : m.drop pos with
  | nil =>
    have hlen : m.length ≤ pos := List.drop_eq_nil_iff.mp hd
    simp [List.getElem?_eq_none hlen]
  | cons y rest =>
    have hy : m[pos]? = some y := by
      rw [← List.head?_drop, hd, List.head?_cons]
    have hrest : m.drop (pos + 1) = rest := by
      rw [← List.drop_drop, hd, List.drop_succ_cons, List.drop_zero]
    rw [List.cons_prefix_cons, hy, hrest, Option.some.injEq]
    exact and_congr_left' eq_comm

theorem at_append : At m pos (a ++ b) ↔ At m pos a ∧ At m (pos + a.length) b := by
  induction a generalizing pos with
  | nil => simp
  | cons x a ih =>
    rw [List.cons_append, at_cons, at_cons, ih, and_assoc, List.length_cons]
    have hpos : pos + 1 + a.length = pos + (a.length + 1) := by omega
    rw [hpos]

theorem At.length_le (h : At m pos a) (ha : a ≠ []) : pos + a.length ≤ m.length := by
  have hle := List.IsPrefix.length_le h
  have hpos := List.length_pos_iff.mpr ha
  rw [List.length_drop] at hle
  omega

theorem At.slice (h : At m pos a) (ha : a ≠ []) : slice m pos a.length = some a := by
  unfold Dns.slice
  rw [if_pos (h.length_le ha), ← List.prefix_iff_eq_take.mp h]

theorem slice_eq_some {len : ℕ} (h : slice m pos len = some a) :
    At m pos a ∧ a.length = len := by
  unfold slice at h
  split_ifs at h with hlen
  obtain rfl := Option.some.inj h
  refine ⟨List.take_prefix _ _, ?_⟩
  rw [List.length_take, List.length_drop]
  omega

theorem at_self : At m 0 m := by
  unfold At
  rw [List.drop_zero]

end At

def encodeWord (w : UInt16) : Bytes := [UInt8.ofNat (w.toNat / 256), UInt8.ofNat (w.toNat % 256)]

def encodeLong (w : UInt32) : Bytes :=
  encodeWord (UInt16.ofNat (w.toNat / 65536)) ++ encodeWord (UInt16.ofNat (w.toNat % 65536))

def encodeName : Name → Bytes
  | [] => [0]
  | label :: labels => UInt8.ofNat label.length :: label ++ encodeName labels

def encodeQuestion (q : Question) : Bytes :=
  encodeName q.name ++ (encodeWord q.qtype ++ encodeWord q.qclass)

/-- A pointer to the name at an offset. -/
def encodePointer (target : ℕ) : Bytes :=
  [UInt8.ofNat (192 + target / 256), UInt8.ofNat (target % 256)]

/-- Every label has a length that the first two bits of its length byte leave room for. -/
def Name.Valid (labels : Name) : Prop := ∀ label ∈ labels, label ≠ [] ∧ label.length < 64

section Encode

variable {m : Bytes} {pos next fuel target : ℕ} {labels : Name}

theorem be16_toNat (hi lo : UInt8) : (be16 hi lo).toNat = hi.toNat * 256 + lo.toNat := by
  have hhi := hi.toNat_lt
  have hlo := lo.toNat_lt
  unfold be16
  rw [UInt16.toNat_ofNat']
  omega

theorem be16_encode (w : UInt16) :
    be16 (UInt8.ofNat (w.toNat / 256)) (UInt8.ofNat (w.toNat % 256)) = w := by
  have hw := w.toNat_lt
  apply UInt16.toNat_inj.mp
  rw [be16_toNat, UInt8.toNat_ofNat', UInt8.toNat_ofNat']
  omega

theorem encodeWord_be16 (hi lo : UInt8) : encodeWord (be16 hi lo) = [hi, lo] := by
  have hhi : (hi.toNat * 256 + lo.toNat) / 256 = hi.toNat := by
    have := lo.toNat_lt
    omega
  have hlo : (hi.toNat * 256 + lo.toNat) % 256 = lo.toNat := by
    have := lo.toNat_lt
    omega
  unfold encodeWord
  rw [be16_toNat, hhi, hlo, UInt8.ofNat_toNat, UInt8.ofNat_toNat]

theorem encodeWord_length (w : UInt16) : (encodeWord w).length = 2 := rfl

theorem encodeLong_length (w : UInt32) : (encodeLong w).length = 4 := rfl

theorem word_encode {w : UInt16} (h : At m pos (encodeWord w)) : word m pos = some w := by
  unfold encodeWord at h
  rw [at_cons, at_cons] at h
  obtain ⟨hhi, hlo, -⟩ := h
  simp [word, hhi, hlo, be16_encode]

theorem at_of_word {w : UInt16} (h : word m pos = some w) : At m pos (encodeWord w) := by
  unfold word at h
  simp only [Option.bind_eq_bind, Option.bind_eq_some_iff, Option.pure_def] at h
  obtain ⟨hi, hhi, lo, hlo, hw⟩ := h
  rw [← Option.some.inj hw, encodeWord_be16, at_cons, at_cons]
  exact ⟨hhi, hlo, at_nil⟩

theorem long_encode {w : UInt32} (h : At m pos (encodeLong w)) : long m pos = some w := by
  have hw := w.toNat_lt
  unfold encodeLong at h
  rw [at_append, encodeWord_length] at h
  have hval : UInt32.ofNat ((UInt16.ofNat (w.toNat / 65536)).toNat * 65536 +
      (UInt16.ofNat (w.toNat % 65536)).toNat) = w := by
    apply UInt32.toNat_inj.mp
    rw [UInt32.toNat_ofNat', UInt16.toNat_ofNat', UInt16.toNat_ofNat']
    omega
  unfold long
  simp only [word_encode h.1, word_encode h.2, Option.bind_eq_bind, Option.bind_some, hval]
  rfl

theorem length_lt_encodeName (labels : Name) : labels.length < (encodeName labels).length := by
  induction labels with
  | nil => decide
  | cons label labels ih =>
    rw [encodeName, List.length_append, List.length_cons, List.length_cons]
    omega

/-- A name that stands in a message is decoded, whatever follows it. -/
theorem name_encode (hv : labels.Valid) (h : At m pos (encodeName labels))
    (hf : labels.length < fuel) :
    name m fuel pos = some (labels, pos + (encodeName labels).length) := by
  induction labels generalizing pos fuel with
  | nil =>
    obtain ⟨fuel, rfl⟩ : ∃ n, fuel = n + 1 := ⟨fuel - 1, by omega⟩
    rw [encodeName, at_cons] at h
    simp [name, h.1, encodeName]
  | cons label labels ih =>
    obtain ⟨fuel, rfl⟩ : ∃ n, fuel = n + 1 := ⟨fuel - 1, by omega⟩
    obtain ⟨hne, hlen⟩ := hv label List.mem_cons_self
    have hpos := List.length_pos_iff.mpr hne
    rw [encodeName, List.cons_append, at_cons, at_append] at h
    obtain ⟨hfirst, hlabel, hrest⟩ := h
    have hnat : (UInt8.ofNat label.length).toNat = label.length := by
      rw [UInt8.toNat_ofNat']
      omega
    have hzero : UInt8.ofNat label.length ≠ 0 := by
      intro h0
      rw [h0] at hnat
      change 0 = _ at hnat
      omega
    have hsmall : UInt8.ofNat label.length < 64 := by
      rw [UInt8.lt_iff_toNat_lt, hnat]
      exact hlen
    have htail := ih (fun l hl => hv l (List.mem_cons_of_mem _ hl)) hrest
      (Nat.lt_of_succ_lt_succ hf)
    have hsum : pos + 1 + label.length + (encodeName labels).length =
        pos + (encodeName (label :: labels)).length := by
      rw [encodeName, List.length_append, List.length_cons]
      omega
    unfold name
    simp [hfirst, hzero, hsmall, hnat, hlabel.slice hne, htail, hsum]

/-- A pointer stands for the name at its target. -/
theorem name_pointer (ht : target < 16384) (hlt : target < pos)
    (h : At m pos (encodePointer target))
    (hn : name m fuel target = some (labels, next)) :
    name m (fuel + 1) pos = some (labels, pos + 2) := by
  unfold encodePointer at h
  rw [at_cons, at_cons] at h
  obtain ⟨hhi, hlo, -⟩ := h
  have hnat : (UInt8.ofNat (192 + target / 256)).toNat = 192 + target / 256 := by
    rw [UInt8.toNat_ofNat']
    omega
  have hzero : UInt8.ofNat (192 + target / 256) ≠ 0 := by
    intro h0
    rw [h0] at hnat
    change 0 = _ at hnat
    omega
  have hlarge : ¬ UInt8.ofNat (192 + target / 256) < 64 := by
    rw [UInt8.lt_iff_toNat_lt, hnat]
    change ¬ _ < 64
    omega
  have hptr : 192 ≤ UInt8.ofNat (192 + target / 256) := by
    rw [UInt8.le_iff_toNat_le, hnat]
    change 192 ≤ _
    omega
  have hoff : (192 + target / 256 - 192) * 256 + (UInt8.ofNat (target % 256)).toNat = target := by
    rw [UInt8.toNat_ofNat']
    omega
  unfold name
  simp only [hhi, hlo, Option.bind_eq_bind, Option.bind_some, if_neg hzero, if_neg hlarge,
    if_pos hptr, hnat, hoff, if_pos hlt, hn]
  rfl

/-- A question that stands in a message is decoded, whatever follows it. -/
theorem question_encode {q : Question} (hv : q.name.Valid) (h : At m pos (encodeQuestion q)) :
    question m pos = some (q, pos + (encodeQuestion q).length) := by
  unfold encodeQuestion at h
  simp only [at_append, encodeWord_length] at h
  obtain ⟨hname, htype, hclass⟩ := h
  have hpos := length_lt_encodeName q.name
  have hle := hname.length_le (List.ne_nil_of_length_pos (by omega))
  have hlen : pos + (encodeQuestion q).length = pos + (encodeName q.name).length + 4 := by
    unfold encodeQuestion
    rw [List.length_append, List.length_append, encodeWord_length, encodeWord_length]
    rfl
  have hn : name m m.length pos = _ := name_encode hv hname (by omega)
  simp [question, hn, word_encode htype, word_encode hclass, hlen]

/-- The record behind a name, however that is written. -/
theorem record_encode {rtype rclass : UInt16} {ttl : UInt32} {rdata : Bytes}
    (hn : name m m.length pos = some (labels, next)) (hl : rdata.length < 65536) (hne : rdata ≠ [])
    (h : At m next (encodeWord rtype ++ encodeWord rclass ++ encodeLong ttl ++
      encodeWord (UInt16.ofNat rdata.length) ++ rdata)) :
    record m pos =
      some ({ name := labels, rtype := rtype, rclass := rclass, ttl := ttl, rdata := rdata },
        next + 10 + rdata.length) := by
  simp only [at_append, List.length_append, encodeWord_length, encodeLong_length] at h
  obtain ⟨⟨⟨⟨htype, hclass⟩, httl⟩, hlen⟩, hdata⟩ := h
  have hnat : (UInt16.ofNat rdata.length).toNat = rdata.length := by
    rw [UInt16.toNat_ofNat']
    omega
  simp [record, hn, word_encode htype, word_encode hclass, long_encode httl, word_encode hlen,
    hnat, hdata.slice hne]

end Encode

end NulConnect.Dns
