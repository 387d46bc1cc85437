import NulConnect.FakeDns.Wire
import NulConnect.Net.Trim

/-! The grammar of the queries that `parse_query` accepts, and what a parsed query still says of
the bytes of its question. -/
namespace NulConnect.FakeDns
open Net Dns

/-- The twelve bytes in front of a standard query with one question. -/
structure QueryHeader (bytes : Bytes) : Prop where
  length : bytes.length = 12
  request : ∃ fields, Dns.header bytes = some fields ∧ fields.qr = false ∧ fields.opcode = 0
  qdcount : word bytes 4 = some 1

/-- A packet cut into its header, its question and whatever follows that. -/
@[ext] structure QueryParts where
  header : Bytes
  question : Dns.Question
  rest : Bytes

namespace QueryParts

def bytes (d : QueryParts) : Bytes := d.header ++ (encodeQuestion d.question ++ d.rest)

structure Valid (d : QueryParts) : Prop where
  header : QueryHeader d.header
  name : d.question.name.Valid

/-- The question that the parser makes of the parts. -/
def parsed (d : QueryParts) : ParsedQuestion where
  name := ['.'].intercalate (d.question.name.map labelText)
  qtype := d.question.qtype
  qclass := d.question.qclass
  endOffset := 12 + (encodeQuestion d.question).length

end QueryParts

section Header

variable {packet bytes : Bytes} {q : ParsedQuestion}

theorem flags_standard : ∀ flags : UInt8,
    (flags &&& 0x80 != 0) = false ∧ (flags >>> 3) &&& 0xf = 0 ↔ flags < 8 := by
  apply forall_byte
  decide +kernel

/-- The converse of `flags_lt`. -/
theorem flags_of_lt {hi lo : UInt8} (h : hi < 8) :
    be16 hi lo &&& 0x8000 = 0 ∧ (be16 hi lo >>> 11) &&& 0xf = 0 := by
  have hhi : hi.toNat < 8 := UInt8.lt_iff_toNat_lt.mp h
  have hlo := lo.toNat_lt
  have hlt : (be16 hi lo).toNat < 2 ^ 11 := by
    rw [be16_toNat]
    omega
  constructor
  · apply UInt16.toNat_inj.mp
    rw [UInt16.toNat_and]
    show (be16 hi lo).toNat &&& 2 ^ 15 = 0
    rw [Nat.and_two_pow, Nat.testBit_lt_two_pow (by omega)]
    rfl
  · apply UInt16.toNat_inj.mp
    rw [UInt16.toNat_and, UInt16.toNat_shiftRight]
    show (be16 hi lo).toNat >>> 11 &&& 0xf = 0
    rw [Nat.shiftRight_eq_div_pow, Nat.div_eq_of_lt hlt, Nat.zero_and]

/-- The fields of the header are those of the flag byte. -/
theorem request_iff (hlen : 12 ≤ bytes.length) :
    (∃ fields, Dns.header bytes = some fields ∧ fields.qr = false ∧ fields.opcode = 0) ↔
      ∃ flags, bytes[2]? = some flags ∧ flags < 8 := by
  obtain ⟨b0, h0⟩ := exists_byte (show 0 < bytes.length by omega)
  obtain ⟨b1, h1⟩ := exists_byte (show 1 < bytes.length by omega)
  obtain ⟨b2, h2⟩ := exists_byte (show 2 < bytes.length by omega)
  obtain ⟨b3, h3⟩ := exists_byte (show 3 < bytes.length by omega)
  simp [Dns.header, word, h0, h1, h2, h3, ← flags_standard]

theorem parseQuery_of_header (hlen : 12 ≤ packet.length)
    (hflags : ∃ flags, packet[2]? = some flags ∧ flags < 8) (hcount : word packet 4 = some 1) :
    parseQuery packet = .ok (parseQuestion packet) := by
  obtain ⟨b2, b3, b4, b5, h2, h4, h5, hp⟩ := parseQuery_eq (Nat.not_lt.mpr hlen)
  obtain ⟨flags, h2', hlt⟩ := hflags
  obtain rfl := Option.some.inj (h2.symm.trans h2')
  have hflags : be16 b2 b3 &&& 0x8000 = 0 ∧ (be16 b2 b3 >>> 11) &&& 0xf = 0 := flags_of_lt hlt
  have hone : be16 b4 b5 = 1 := by
    simpa [word, h4, h5] using hcount
  rw [hp, if_neg (by simp [hflags, hone])]

/-- The parser checks the whole header. -/
theorem header_of_parseQuery (h : parseQuery packet = .ok (some q)) :
    12 ≤ packet.length ∧ word packet 4 = some 1 := by
  have hlen := length_of_parseQuery h
  obtain ⟨b2, b3, b4, b5, -, h4, h5, hp⟩ := parseQuery_eq hlen
  rw [hp] at h
  have hq := Except.ok.inj h
  split_ifs at hq with hc
  push Not at hc
  refine ⟨Nat.not_lt.mp hlen, ?_⟩
  simp [word, h4, h5, hc.2.2]

end Header

/-- The parser reads a question that stands behind the header. -/
theorem parseQuestion_encode {packet : Bytes} {question : Dns.Question}
    (hv : question.name.Valid) (h : At packet 12 (encodeQuestion question)) :
    parseQuestion packet = some {
      name := ['.'].intercalate (question.name.map labelText)
      qtype := question.qtype
      qclass := question.qclass
      endOffset := 12 + (encodeQuestion question).length } := by
  have hlen : 12 + (encodeQuestion question).length =
      12 + (encodeName question.name).length + 4 := by
    unfold encodeQuestion
    rw [List.length_append, List.length_append, encodeWord_length, encodeWord_length]
    rfl
  unfold encodeQuestion at h
  simp only [at_append, encodeWord_length] at h
  obtain ⟨hname, htype, hclass⟩ := h
  have hlabels : parseLabels packet 12 [] = _ := parseLabels_encode hv hname
  simp only [encodeWord, at_cons] at htype hclass
  unfold parseQuestion
  simp only [hlabels, htype.1, htype.2.1, hclass.1, hclass.2.1, Option.bind_eq_bind,
    Option.bind_some, Option.pure_def, be16_encode, List.nil_append, hlen]

namespace QueryParts

variable {d d' : QueryParts} {packet : Bytes} {q : ParsedQuestion}

theorem Valid.getElem?_bytes (hd : d.Valid) {i : ℕ} (hi : i < 12) : d.bytes[i]? = d.header[i]? :=
  List.getElem?_append_left (by rwa [hd.header.length])

theorem Valid.stands (hd : d.Valid) : At d.bytes 12 (encodeQuestion d.question) := by
  have hself : At d.bytes 0 d.bytes := at_self
  have htail := (at_append.mp hself).2
  rw [hd.header.length] at htail
  exact (at_append.mp htail).1

theorem length_le_bytes (hd : d.Valid) : 12 ≤ d.bytes.length := by
  unfold bytes
  rw [List.length_append, hd.header.length]
  omega

/-- Everything the grammar gives is accepted. -/
theorem Valid.parseQuery (hd : d.Valid) : parseQuery d.bytes = .ok (some d.parsed) := by
  have hflags := (request_iff hd.header.length.ge).mp hd.header.request
  rw [← hd.getElem?_bytes (by omega)] at hflags
  have hcount : word d.bytes 4 = word d.header 4 := by
    unfold word
    rw [hd.getElem?_bytes (by omega), hd.getElem?_bytes (by omega)]
  rw [parseQuery_of_header (length_le_bytes hd) hflags (hcount.trans hd.header.qdcount),
    parseQuestion_encode hd.name hd.stands]
  rfl

/-- Everything that is accepted is given by the grammar. -/
theorem exists_of_parseQuery (h : FakeDns.parseQuery packet = .ok (some q)) :
    ∃ d : QueryParts, d.Valid ∧ d.bytes = packet ∧ d.parsed = q := by
  obtain ⟨question, ha⟩ := parseQuery_eq_some h
  obtain ⟨hlen, hcount⟩ := header_of_parseQuery h
  obtain ⟨rest, hrest⟩ := ha.stands
  have htake : (packet.take 12).length = 12 := by
    rw [List.length_take]
    omega
  have hbyte : ∀ i < 12, (packet.take 12)[i]? = packet[i]? := fun i hi =>
    List.getElem?_take_of_lt hi
  have hrequest : ∃ flags, (packet.take 12)[2]? = some flags ∧ flags < 8 := by
    rw [hbyte 2 (by omega)]
    exact ha.request
  have hword : word (packet.take 12) 4 = some 1 := by
    unfold word at hcount ⊢
    rwa [hbyte 4 (by omega), hbyte 5 (by omega)]
  refine ⟨⟨packet.take 12, question, rest⟩, ⟨⟨htake, ?_, hword⟩, ha.valid⟩, ?_, ?_⟩
  · exact (request_iff htake.ge).mpr hrequest
  · unfold bytes
    rw [hrest, List.take_append_drop]
  · obtain ⟨⟨name, qtype, qclass⟩, endOffset⟩ := q
    have hname : name = _ := ha.name
    have htype : qtype = _ := ha.qtype
    have hclass : qclass = _ := ha.qclass
    have hend : endOffset = _ := ha.endOffset
    subst hname htype hclass hend
    rfl

/-- A packet has one header, one question and one rest. -/
theorem Valid.eq_of_bytes_eq (hd : d.Valid) (hd' : d'.Valid) (h : d.bytes = d'.bytes) : d = d' := by
  have hlen : d.header.length = d'.header.length := by
    rw [hd.header.length, hd'.header.length]
  obtain ⟨hheader, htail⟩ := List.append_inj h hlen
  have hread := question_encode hd.name hd.stands
  have hread' := question_encode hd'.name hd'.stands
  rw [← h] at hread'
  have hquestion : d.question = d'.question :=
    congrArg Prod.fst (Option.some.inj (hread.symm.trans hread'))
  rw [hquestion] at htail
  exact QueryParts.ext hheader hquestion (List.append_cancel_left htail)

/-- The slice that `build_response` echoes is the question. -/
theorem Valid.range (hd : d.Valid) :
    FakeDns.range d.bytes 12 d.parsed.endOffset = .ok (encodeQuestion d.question) := by
  have hne : encodeQuestion d.question ≠ [] := by
    apply List.append_ne_nil_of_left_ne_nil
    exact List.ne_nil_of_length_pos (Nat.zero_lt_of_lt (length_lt_encodeName _))
  exact range_eq_ok hd.stands hne rfl

end QueryParts

/-- The labels of a dotted name. The empty name has none. -/
def nameLabels (name : Text) : Dns.Name :=
  if name = [] then [] else (name.splitOn '.').map toUtf8

/-- The bytes of a question with the name and the words that were parsed. -/
def reencode (q : ParsedQuestion) : Bytes :=
  encodeQuestion { name := nameLabels q.name, qtype := q.qtype, qclass := q.qclass }

/-- The bytes of a question, with the letters of its name in lower case. -/
def foldCase (bytes : Bytes) : Bytes :=
  (bytes.take (bytes.length - 4)).map asciiLowercase ++ bytes.drop (bytes.length - 4)

/-- The labels are texts without a dot. -/
def Plain (name : Dns.Name) : Prop := ∀ label ∈ name, isUtf8 label ∧ 0x2e ∉ label

section Reencode

variable {label : Bytes} {name name' : Dns.Name} {question question' : Dns.Question}

theorem toUtf8_labelText (h : isUtf8 label) :
    toUtf8 (labelText label) = label.map asciiLowercase := by
  unfold labelText
  rw [toUtf8_toLower, toUtf8_fromUtf8Lossy h]

/-- A label without a dot gives a text without one. -/
theorem dot_not_mem_labelText (h : isUtf8 label) (hdot : 0x2e ∉ label) :
    '.' ∉ labelText label := by
  intro hmem
  obtain ⟨c, hc, hlower⟩ := List.mem_map.mp hmem
  have hdotc : c = '.' := (toLower_eq_iff (by decide)).mp hlower
  have hbyte : 0x2e ∈ toUtf8 (fromUtf8Lossy label) := by
    apply List.mem_flatMap.mpr
    exact ⟨'.', hdotc ▸ hc, by decide⟩
  rw [toUtf8_fromUtf8Lossy h] at hbyte
  exact hdot hbyte

theorem labelText_ne_nil (h : isUtf8 label) (hne : label ≠ []) : labelText label ≠ [] := by
  intro hnil
  have hmap := toUtf8_labelText h
  rw [hnil] at hmap
  exact hne (List.map_eq_nil_iff.mp hmap.symm)

/-- The dotted name has the labels it was joined from, in lower case. -/
theorem nameLabels_intercalate (hv : name.Valid) (hp : Plain name) :
    nameLabels (['.'].intercalate (name.map labelText)) = name.map (List.map asciiLowercase) := by
  by_cases hnil : name = []
  · rw [hnil]
    rfl
  have hdots : ∀ text ∈ name.map labelText, '.' ∉ text := by
    intro text htext
    obtain ⟨label, hlabel, rfl⟩ := List.mem_map.mp htext
    exact dot_not_mem_labelText (hp label hlabel).1 (hp label hlabel).2
  have hsplit := List.splitOn_intercalate '.' hdots (by simpa using hnil)
  have hne : ['.'].intercalate (name.map labelText) ≠ [] := by
    intro hempty
    rw [hempty, List.splitOn_nil] at hsplit
    have hmem : [] ∈ name.map labelText := by
      rw [← hsplit]
      exact List.mem_singleton_self []
    obtain ⟨label, hlabel, htext⟩ := List.mem_map.mp hmem
    exact labelText_ne_nil (hp label hlabel).1 (hv label hlabel).1 htext
  unfold nameLabels
  rw [if_neg hne, hsplit, List.map_map]
  apply List.map_congr_left
  intro label hlabel
  exact toUtf8_labelText (hp label hlabel).1

theorem asciiLowercase_length {n : ℕ} (h : n < 64) :
    asciiLowercase (UInt8.ofNat n) = UInt8.ofNat n := by
  have hall : ∀ n : Fin 64, asciiLowercase (UInt8.ofNat n) = UInt8.ofNat n := by decide +kernel
  exact hall ⟨n, h⟩

/-- The length bytes are no letters. -/
theorem encodeName_lowercase (hv : name.Valid) :
    encodeName (name.map (List.map asciiLowercase)) = (encodeName name).map asciiLowercase := by
  induction name with
  | nil => rfl
  | cons label name ih =>
    have hlen := asciiLowercase_length (hv label List.mem_cons_self).2
    rw [List.map_cons, encodeName, encodeName, List.length_map, List.map_append, List.map_cons,
      hlen, ih fun l hl => hv l (List.mem_cons_of_mem _ hl)]

theorem foldCase_encodeQuestion (hv : question.name.Valid) :
    foldCase (encodeQuestion question) = encodeQuestion
      { question with name := question.name.map (List.map asciiLowercase) } := by
  have hlen : (encodeQuestion question).length - 4 = (encodeName question.name).length := by
    unfold encodeQuestion
    rw [List.length_append, List.length_append, encodeWord_length, encodeWord_length]
    exact Nat.add_sub_cancel _ 4
  unfold foldCase
  rw [hlen]
  unfold encodeQuestion
  rw [List.take_left, List.drop_left, encodeName_lowercase hv]

theorem valid_lowercase (hv : name.Valid) : Name.Valid (name.map (List.map asciiLowercase)) := by
  intro label hlabel
  obtain ⟨original, horiginal, rfl⟩ := List.mem_map.mp hlabel
  obtain ⟨hne, hlen⟩ := hv original horiginal
  exact ⟨by simpa using hne, by rwa [List.length_map]⟩

theorem encodeQuestion_inj (hv : question.name.Valid) (hv' : question'.name.Valid)
    (h : encodeQuestion question = encodeQuestion question') : question = question' := by
  have hread := question_encode hv (at_self (m := encodeQuestion question))
  have hread' := question_encode hv' (at_self (m := encodeQuestion question'))
  rw [← h] at hread'
  exact congrArg Prod.fst (Option.some.inj (hread.symm.trans hread'))

/-- The text of a label is that of its bytes in lower case. -/
theorem labelText_eq (h : isUtf8 label) :
    labelText label = fromUtf8Lossy (label.map asciiLowercase) := by
  rw [← toUtf8_labelText h, fromUtf8Lossy_toUtf8]

theorem map_labelText_eq (hp : Plain name) :
    name.map labelText = (name.map (List.map asciiLowercase)).map fromUtf8Lossy := by
  rw [List.map_map]
  apply List.map_congr_left
  intro label hlabel
  exact labelText_eq (hp label hlabel).1

theorem foldCase_length (bytes : Bytes) : (foldCase bytes).length = bytes.length := by
  unfold foldCase
  rw [List.length_append, List.length_map, ← List.length_append, List.take_append_drop]

end Reencode

namespace QueryParts

variable {d d' : QueryParts}

/-- What was parsed gives the bytes of the question back, in lower case. -/
theorem Valid.reencode (hd : d.Valid) (hp : Plain d.question.name) :
    FakeDns.reencode d.parsed = foldCase (encodeQuestion d.question) := by
  have hname : nameLabels d.parsed.name = _ := nameLabels_intercalate hd.name hp
  rw [foldCase_encodeQuestion hd.name]
  unfold FakeDns.reencode
  rw [hname]
  rfl

/-- A parsed question and the bytes it was read from determine each other. -/
theorem Valid.parsed_eq_iff (hd : d.Valid) (hd' : d'.Valid) (hp : Plain d.question.name)
    (hp' : Plain d'.question.name) : d.parsed = d'.parsed ↔
      foldCase (encodeQuestion d.question) = foldCase (encodeQuestion d'.question) := by
  constructor
  · intro h
    rw [← hd.reencode hp, ← hd'.reencode hp', h]
  · intro h
    have hlen : (encodeQuestion d.question).length = (encodeQuestion d'.question).length := by
      rw [← foldCase_length, h, foldCase_length]
    rw [foldCase_encodeQuestion hd.name, foldCase_encodeQuestion hd'.name] at h
    have hsame := encodeQuestion_inj (valid_lowercase hd.name) (valid_lowercase hd'.name) h
    obtain ⟨hname, htype, hclass⟩ := Dns.Question.mk.inj hsame
    unfold parsed
    rw [map_labelText_eq hp, map_labelText_eq hp', hname, htype, hclass, hlen]

end QueryParts

/-- The parser accepts the grammar, and nothing else: a packet that is accepted has one
decomposition, of which the question is what the parser returns and the offset its end. Labels
that are texts without a dot can be had back from the name, but for the case of their letters. -/
theorem parseQuery_grammar (packet : Bytes) :
    (∃ result, parseQuery packet = .ok result) ∧
    (∀ q, parseQuery packet = .ok (some q) ↔
      ∃ d : QueryParts, d.Valid ∧ d.bytes = packet ∧ d.parsed = q) ∧
    (∀ d d' : QueryParts, d.Valid → d'.Valid → d.bytes = packet → d'.bytes = packet → d = d') ∧
    (∀ d : QueryParts, d.Valid → d.bytes = packet →
      range packet 12 d.parsed.endOffset = .ok (encodeQuestion d.question) ∧
      (Plain d.question.name → reencode d.parsed = foldCase (encodeQuestion d.question) ∧
        ∀ d' : QueryParts, d'.Valid → Plain d'.question.name → (d.parsed = d'.parsed ↔
          foldCase (encodeQuestion d.question) = foldCase (encodeQuestion d'.question)))) := by
  refine ⟨parseQuery_ok packet, ?_, ?_, ?_⟩
  · intro q
    constructor
    · exact QueryParts.exists_of_parseQuery
    · rintro ⟨d, hd, rfl, rfl⟩
      exact hd.parseQuery
  · intro d d' hd hd' h h'
    exact hd.eq_of_bytes_eq hd' (h.trans h'.symm)
  · rintro d hd rfl
    constructor
    · exact hd.range
    · intro hp
      exact ⟨hd.reencode hp, fun d' hd' hp' => hd.parsed_eq_iff hd' hp hp'⟩

end NulConnect.FakeDns
