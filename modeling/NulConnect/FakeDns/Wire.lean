import NulConnect.Dns.Message
import NulConnect.FakeDns.Answers
import NulConnect.Net.Utf8

/-! The packets of the fake DNS server: `parse_query` and `build_response` against a decoder of
whole messages. -/
namespace NulConnect.FakeDns
open Net Dns

/-- What ends a thread that indexes a slice directly. -/
inductive Panic where
  | indexOutOfBounds

/-- `bytes[i]`. -/
def index (bytes : Bytes) (i : ℕ) : Except Panic UInt8 :=
  match bytes[i]? with
  | some b => .ok b
  | none => .error .indexOutOfBounds

/-- `bytes[start..stop]`. -/
def range (bytes : Bytes) (start stop : ℕ) : Except Panic Bytes :=
  if start ≤ stop ∧ stop ≤ bytes.length then .ok ((bytes.drop start).take (stop - start))
  else .error .indexOutOfBounds

/-- `bytes.get(start..start + len)`. -/
def getRange (bytes : Bytes) (start len : ℕ) : Option Bytes :=
  if start + len ≤ bytes.length then some ((bytes.drop start).take len) else none

/-- A `Question` with its `end`, the offset just past the question section. -/
structure ParsedQuestion extends FakeDns.Question where
  endOffset : ℕ

def labelText (label : Bytes) : Text := (fromUtf8Lossy label).map Char.toLower

/-- The loop of `parse_query` over the labels. -/
def parseLabels (packet : Bytes) (pos : ℕ) (labels : List Text) : Option (List Text × ℕ) :=
  match _h : packet[pos]? with
  | none => none
  | some len =>
    if len = 0 then some (labels, pos + 1)
    else if len &&& 0xc0 ≠ 0 then none
    else match getRange packet (pos + 1) len.toNat with
      | none => none
      | some label => parseLabels packet (pos + 1 + len.toNat) (labels ++ [labelText label])
termination_by packet.length - pos
decreasing_by
  have hpos := (List.getElem?_eq_some_iff.mp ‹packet[pos]? = some len›).1
  omega

/-- What `parse_query` does behind the checks of the header. -/
def parseQuestion (packet : Bytes) : Option ParsedQuestion := do
  let (labels, pos) ← parseLabels packet 12 []
  let qtype := be16 (← packet[pos]?) (← packet[pos + 1]?)
  let qclass := be16 (← packet[pos + 2]?) (← packet[pos + 3]?)
  return {
    name := ['.'].intercalate labels
    qtype := qtype
    qclass := qclass
    endOffset := pos + 4 }

def parseQuery (packet : Bytes) : Except Panic (Option ParsedQuestion) := do
  if packet.length < 12 then return none
  let flags := be16 (← index packet 2) (← index packet 3)
  let isResponse := flags &&& 0x8000 ≠ 0
  let opcode := (flags >>> 11) &&& 0xf
  let qdcount := be16 (← index packet 4) (← index packet 5)
  if isResponse ∨ opcode ≠ 0 ∨ qdcount ≠ 1 then return none
  return parseQuestion packet

def answerTtlSecs : UInt32 := 60

def ipBytes (ip : Ipv4Addr) : Bytes := ip.octets.map UInt8.ofBitVec

/-- One `A` record of `build_response`, which names the question by its offset. -/
def answerRecord (ip : Ipv4Addr) : Bytes :=
  [0xc0, 0x0c] ++ encodeWord typeA ++ encodeWord classIn ++ encodeLong answerTtlSecs ++
    encodeWord 4 ++ ipBytes ip

def buildResponse (query : Bytes) (question : ParsedQuestion) (rcode : UInt8)
    (answers : List Ipv4Addr) : Except Panic Bytes := do
  let id ← range query 0 2
  let opcodeAndRd := (← index query 2) &&& 0x79
  let echo ← range query 12 question.endOffset
  return id ++ [0x80 ||| opcodeAndRd, 0x80 ||| (rcode &&& 0x0f)] ++ encodeWord 1 ++
    encodeWord (UInt16.ofNat answers.length) ++ [0, 0, 0, 0] ++ echo ++
    answers.flatMap answerRecord

/-- A query as the parser accepts it: its question stands behind the header, and anything may
follow that. -/
structure Accepted (packet : Bytes) (q : ParsedQuestion) (question : Dns.Question) : Prop where
  valid : question.name.Valid
  stands : At packet 12 (encodeQuestion question)
  endOffset : q.endOffset = 12 + (encodeQuestion question).length
  name : q.name = ['.'].intercalate (question.name.map labelText)
  qtype : q.qtype = question.qtype
  qclass : q.qclass = question.qclass
  request : ∃ flags, packet[2]? = some flags ∧ flags < 8

section Parse

variable {packet : Bytes} {pos next : ℕ} {seen labels : List Text}

/-- A length byte whose first two bits are clear. -/
theorem len_lt {len : UInt8} (h : ¬ len &&& 0xc0 ≠ 0) : len.toNat < 64 := by
  have hall : ∀ b : Fin 256, UInt8.ofFin b &&& 0xc0 = 0 → (UInt8.ofFin b).toNat < 64 := by
    decide +kernel
  exact hall len.toFin (not_not.mp h)

/-- The loop accepts exactly the labels of a name that stands in the packet. -/
theorem parseLabels_eq_some (h : parseLabels packet pos seen = some (labels, next)) :
    ∃ name : Name, name.Valid ∧ At packet pos (encodeName name) ∧
      next = pos + (encodeName name).length ∧ labels = seen ++ name.map labelText := by
  fun_induction parseLabels packet pos seen with
  | case1 => cases h
  | case2 pos seen hpos =>
    obtain ⟨rfl, rfl⟩ := Prod.mk.inj (Option.some.inj h)
    refine ⟨[], fun _ hl => absurd hl List.not_mem_nil, ?_, rfl, by simp⟩
    rw [encodeName, at_cons]
    exact ⟨hpos, at_nil⟩
  | case3 => cases h
  | case4 => cases h
  | case5 pos seen len hpos hzero hbits label hlabel ih =>
    obtain ⟨name, hvalid, hat, hnext, hlabels⟩ := ih h
    obtain ⟨hstands, hlen⟩ := slice_eq_some hlabel
    have hsmall := len_lt hbits
    have hnat : UInt8.ofNat label.length = len := by
      rw [hlen]
      exact UInt8.ofNat_toNat
    have hne : label ≠ [] := by
      rintro rfl
      exact hzero (UInt8.toNat_inj.mp hlen.symm)
    refine ⟨label :: name, ?_, ?_, ?_, ?_⟩
    · intro l hl
      obtain rfl | hl := List.mem_cons.mp hl
      · exact ⟨hne, by omega⟩
      · exact hvalid l hl
    · rw [encodeName, List.cons_append, at_cons, at_append, hnat]
      exact ⟨hpos, hstands, by rwa [hlen]⟩
    · rw [hnext, encodeName, List.length_append, List.length_cons]
      omega
    · rw [hlabels, List.map_cons, List.append_assoc, List.singleton_append]

theorem labelLength {label : Bytes} (hne : label ≠ []) (hlen : label.length < 64) :
    UInt8.ofNat label.length ≠ 0 ∧ UInt8.ofNat label.length &&& 0xc0 = 0 ∧
      (UInt8.ofNat label.length).toNat = label.length := by
  have hall : ∀ n : Fin 64, n ≠ 0 → UInt8.ofNat n ≠ 0 ∧ UInt8.ofNat n &&& 0xc0 = 0 ∧
      (UInt8.ofNat n).toNat = n := by
    decide +kernel
  refine hall ⟨label.length, hlen⟩ fun h0 => ?_
  exact hne (List.length_eq_zero_iff.mp (congrArg Fin.val h0))

/-- The loop accepts every name that stands in the packet. -/
theorem parseLabels_encode {name : Name} (hv : name.Valid) (h : At packet pos (encodeName name)) :
    parseLabels packet pos seen =
      some (seen ++ name.map labelText, pos + (encodeName name).length) := by
  induction name generalizing pos seen with
  | nil =>
    have hpos := (at_cons.mp h).1
    rw [parseLabels]
    split
    · simp_all
    · rename_i len hlen
      obtain rfl := Option.some.inj (hpos.symm.trans hlen)
      rw [if_pos rfl, List.map_nil, List.append_nil]
      rfl
  | cons label name ih =>
    obtain ⟨hne, hsmall⟩ := hv label List.mem_cons_self
    obtain ⟨hzero, hbits, hnat⟩ := labelLength hne hsmall
    rw [encodeName, List.cons_append, at_cons, at_append] at h
    obtain ⟨hpos, hlabel, hrest⟩ := h
    have hslice : getRange packet (pos + 1) label.length = some label := hlabel.slice hne
    have hsum : pos + 1 + label.length + (encodeName name).length =
        pos + (encodeName (label :: name)).length := by
      rw [encodeName, List.length_append, List.length_cons]
      omega
    rw [parseLabels]
    split
    · simp_all
    · rename_i len hlen
      obtain rfl := Option.some.inj (hpos.symm.trans hlen)
      rw [if_neg hzero, if_neg (not_not.mpr hbits), hnat, hslice]
      dsimp only
      rw [ih (fun l hl => hv l (List.mem_cons_of_mem _ hl)) hrest, hsum, List.map_cons,
        List.append_assoc, List.singleton_append]

theorem exists_byte {i : ℕ} (h : i < packet.length) : ∃ b, packet[i]? = some b :=
  ⟨packet[i], List.getElem?_eq_getElem h⟩

theorem index_eq_ok {i : ℕ} {b : UInt8} (h : packet[i]? = some b) : index packet i = .ok b := by
  unfold index
  rw [h]

/-- A standard query has only flags in the low bits of the first flag byte. -/
theorem flags_lt {hi lo : UInt8} (hr : ¬ be16 hi lo &&& 0x8000 ≠ 0)
    (ho : ¬ (be16 hi lo >>> 11) &&& 0xf ≠ 0) : hi < 8 := by
  have hhi := hi.toNat_lt
  have hlo := lo.toNat_lt
  have hresponse : (be16 hi lo).toNat &&& 2 ^ 15 = 0 := by
    have := congrArg UInt16.toNat (not_not.mp hr)
    rwa [UInt16.toNat_and] at this
  have hopcode : ((be16 hi lo).toNat >>> 11) &&& (2 ^ 4 - 1) = 0 := by
    have := congrArg UInt16.toNat (not_not.mp ho)
    rwa [UInt16.toNat_and, UInt16.toNat_shiftRight] at this
  rw [Nat.and_two_pow_sub_one_eq_mod, Nat.shiftRight_eq_div_pow] at hopcode
  have hbit : (be16 hi lo).toNat / 2 ^ 15 % 2 ≠ 1 := by
    have hclear : ((be16 hi lo).toNat &&& 2 ^ 15).testBit 15 = Nat.testBit 0 15 := by
      rw [hresponse]
    rw [Nat.testBit_and, Nat.testBit_two_pow_self, Bool.and_true, Nat.zero_testBit,
      Nat.testBit_eq_decide_div_mod_eq] at hclear
    exact of_decide_eq_false hclear
  rw [UInt8.lt_iff_toNat_lt]
  change hi.toNat < 8
  rw [be16_toNat] at hopcode hbit
  omega

/-- The words behind the name, as the parser reads them. -/
theorem word_eq_some {a b : UInt8} (ha : packet[pos]? = some a) (hb : packet[pos + 1]? = some b) :
    At packet pos (encodeWord (be16 a b)) := by
  rw [encodeWord_be16, at_cons, at_cons]
  exact ⟨ha, hb, at_nil⟩

/-- The bytes of the header are there to be checked. -/
theorem parseQuery_eq (h : ¬ packet.length < 12) : ∃ b2 b3 b4 b5, packet[2]? = some b2 ∧
    packet[4]? = some b4 ∧ packet[5]? = some b5 ∧
    parseQuery packet = .ok (if be16 b2 b3 &&& 0x8000 ≠ 0 ∨ (be16 b2 b3 >>> 11) &&& 0xf ≠ 0 ∨
      be16 b4 b5 ≠ 1 then none else parseQuestion packet) := by
  obtain ⟨b2, h2⟩ := exists_byte (show 2 < packet.length by omega)
  obtain ⟨b3, h3⟩ := exists_byte (show 3 < packet.length by omega)
  obtain ⟨b4, h4⟩ := exists_byte (show 4 < packet.length by omega)
  obtain ⟨b5, h5⟩ := exists_byte (show 5 < packet.length by omega)
  refine ⟨b2, b3, b4, b5, h2, h4, h5, ?_⟩
  unfold parseQuery
  rw [if_neg h, index_eq_ok h2, index_eq_ok h3, index_eq_ok h4, index_eq_ok h5]
  exact (apply_ite Except.ok _ _ _).symm

/-- No byte string makes the parser index out of bounds. -/
theorem parseQuery_ok (packet : Bytes) : ∃ result, parseQuery packet = .ok result := by
  by_cases hlen : packet.length < 12
  · unfold parseQuery
    rw [if_pos hlen]
    exact ⟨none, rfl⟩
  · obtain ⟨_, _, _, _, -, -, -, h⟩ := parseQuery_eq hlen
    exact ⟨_, h⟩

theorem length_of_parseQuery {q : ParsedQuestion} (h : parseQuery packet = .ok (some q)) :
    ¬ packet.length < 12 := by
  intro hlen
  unfold parseQuery at h
  rw [if_pos hlen] at h
  cases h

/-- Whatever the parser accepts is a query with a question that stands behind the header. -/
theorem parseQuery_eq_some {q : ParsedQuestion} (h : parseQuery packet = .ok (some q)) :
    ∃ question, Accepted packet q question := by
  have hlen := length_of_parseQuery h
  obtain ⟨b2, b3, b4, b5, h2, -, -, hp⟩ := parseQuery_eq hlen
  rw [hp] at h
  have hq := Except.ok.inj h
  split_ifs at hq with hc
  push Not at hc
  obtain ⟨hresponse, hopcode, -⟩ := hc
  unfold parseQuestion at hq
  simp only [Option.bind_eq_bind, Option.bind_eq_some_iff, Option.pure_def] at hq
  obtain ⟨⟨labels, pos⟩, hl, t1, ht1, t2, ht2, c1, hc1, c2, hc2, hq⟩ := hq
  obtain rfl := Option.some.inj hq
  obtain ⟨name, hvalid, hat, rfl, rfl⟩ := parseLabels_eq_some hl
  refine ⟨{ name := name, qtype := be16 t1 t2, qclass := be16 c1 c2 }, hvalid, ?_, ?_, rfl, rfl,
    rfl, b2, h2, flags_lt (not_not.mpr hresponse) (not_not.mpr hopcode)⟩
  · unfold encodeQuestion
    rw [at_append, at_append]
    exact ⟨hat, word_eq_some ht1 ht2, word_eq_some hc1 hc2⟩
  · unfold encodeQuestion
    rw [List.length_append, List.length_append, encodeWord_length, encodeWord_length,
      ← Nat.add_assoc]

end Parse

/-- The header of a reply: the query's identifier and recursion bit, and no other flag of it. -/
def replyHeader (request : Header) (rcode : UInt8) : Header where
  id := request.id
  qr := true
  opcode := 0
  aa := false
  tc := false
  rd := request.rd
  ra := true
  z := 0
  rcode := rcode

/-- The record that answers a question with an address. -/
def addressRecord (question : Dns.Question) (ip : Ipv4Addr) : Record where
  name := question.name
  rtype := typeA
  rclass := classIn
  ttl := answerTtlSecs
  rdata := ipBytes ip

/-- The reply as a message. -/
def replyMessage (request : Header) (question : Dns.Question) (rcode : UInt8)
    (answers : List Ipv4Addr) : Message where
  header := replyHeader request rcode
  questions := [question]
  answers := answers.map (addressRecord question)
  authority := []
  additional := []

section Build

variable {packet m : Bytes} {q : ParsedQuestion} {question : Dns.Question} {pos next : ℕ}
  {request : Header} {rcode : UInt8} {answers : List Ipv4Addr}

theorem range_eq_ok {bytes : Bytes} (h : At packet pos bytes) (hne : bytes ≠ [])
    (hnext : next = pos + bytes.length) : range packet pos next = .ok bytes := by
  have hle := h.length_le hne
  unfold range
  rw [if_pos ⟨by omega, by omega⟩, hnext, Nat.add_sub_cancel_left,
    ← List.prefix_iff_eq_take.mp h]

theorem ipBytes_length (ip : Ipv4Addr) : (ipBytes ip).length = 4 := rfl

theorem answerRecord_length (ip : Ipv4Addr) : (answerRecord ip).length = 16 := rfl

/-- A record of the reply names the question through the pointer. -/
theorem record_answer {ip : Ipv4Addr}
    (hname : name m (m.length - 1) 12 = some (question.name, next))
    (hpos : 12 < pos) (h : At m pos (answerRecord ip)) :
    record m pos = some (addressRecord question ip, pos + 16) := by
  have hle := h.length_le (by simp [answerRecord])
  unfold answerRecord at h
  rw [List.append_assoc, List.append_assoc, List.append_assoc, List.append_assoc, at_append] at h
  obtain ⟨hptr, hdata⟩ := h
  have hp : name m m.length pos = some (question.name, pos + 2) := by
    have hstep := name_pointer (by decide) hpos hptr hname
    rwa [Nat.sub_add_cancel (by omega)] at hstep
  have hlen : (ipBytes ip).length < 65536 := by
    rw [ipBytes_length]
    decide
  have hne : ipBytes ip ≠ [] := List.cons_ne_nil _ _
  refine record_encode hp hlen hne ?_
  simp only [List.append_assoc]
  exact hdata

theorem entries_answers (hname : name m (m.length - 1) 12 = some (question.name, next))
    (hpos : 12 < pos) (h : At m pos (answers.flatMap answerRecord)) :
    entries (record m) answers.length pos =
      some (answers.map (addressRecord question), pos + 16 * answers.length) := by
  induction answers generalizing pos with
  | nil => rfl
  | cons ip answers ih =>
    rw [List.flatMap_cons, at_append, answerRecord_length] at h
    have hrest := ih (by omega) h.2
    have hsum : pos + 16 + 16 * answers.length = pos + 16 * (answers.length + 1) := by omega
    simp [entries, record_answer hname hpos h.1, hrest, hsum]

/-- Every message with a header has its identifier and flags. -/
theorem header_eq_some (h : header packet = some request) :
    At packet 0 (encodeWord request.id) ∧
      ∃ flags : UInt8, packet[2]? = some flags ∧ request.rd = (flags &&& 1 != 0) := by
  unfold header at h
  simp only [Option.bind_eq_bind, Option.bind_eq_some_iff, Option.pure_def] at h
  obtain ⟨id, hid, flags, hflags, codes, -, heq⟩ := h
  obtain rfl := Option.some.inj heq
  exact ⟨at_of_word hid, flags, hflags, rfl⟩

theorem Accepted.header (ha : Accepted packet q question) :
    ∃ request, header packet = some request := by
  have hpos := length_lt_encodeName question.name
  have hlen : (encodeQuestion question).length ≠ 0 := by
    unfold encodeQuestion
    rw [List.length_append]
    omega
  have hle := ha.stands.length_le fun h => hlen (List.length_eq_zero_iff.mpr h)
  obtain ⟨b0, h0⟩ := exists_byte (show 0 < packet.length by omega)
  obtain ⟨b1, h1⟩ := exists_byte (show 1 < packet.length by omega)
  obtain ⟨b2, h2⟩ := exists_byte (show 2 < packet.length by omega)
  obtain ⟨b3, h3⟩ := exists_byte (show 3 < packet.length by omega)
  simp [Dns.header, word, h0, h1, h2, h3]

theorem answers_length : (answers.flatMap answerRecord).length = 16 * answers.length := by
  induction answers with
  | nil => rfl
  | cons ip answers ih =>
    rw [List.flatMap_cons, List.length_append, ih, answerRecord_length, List.length_cons]
    omega

theorem forall_byte {p : UInt8 → Prop} (h : ∀ b : Fin 256, p (UInt8.ofFin b)) (b : UInt8) : p b :=
  h b.toFin

/-- Of the flags of a query the reply keeps the recursion bit. -/
theorem reply_flags : ∀ flags : UInt8, flags < 8 →
    ((0x80 ||| (flags &&& 0x79)) &&& 0x80 != 0) = true ∧
    ((0x80 ||| (flags &&& 0x79)) >>> 3) &&& 0xf = 0 ∧
    ((0x80 ||| (flags &&& 0x79)) &&& 4 != 0) = false ∧
    ((0x80 ||| (flags &&& 0x79)) &&& 2 != 0) = false ∧
    ((0x80 ||| (flags &&& 0x79)) &&& 1 != 0) = (flags &&& 1 != 0) := by
  apply forall_byte
  decide +kernel

theorem reply_codes : ∀ rcode : UInt8, rcode < 16 →
    ((0x80 ||| (rcode &&& 0x0f)) &&& 0x80 != 0) = true ∧
    ((0x80 ||| (rcode &&& 0x0f)) >>> 4) &&& 7 = 0 ∧
    (0x80 ||| (rcode &&& 0x0f)) &&& 0xf = rcode := by
  apply forall_byte
  decide +kernel

theorem header_reply {flags : UInt8} (hid : At m 0 (encodeWord request.id))
    (hflags : At m 2 [0x80 ||| (flags &&& 0x79), 0x80 ||| (rcode &&& 0x0f)])
    (hlt : flags < 8) (hrcode : rcode < 16) (hrd : request.rd = (flags &&& 1 != 0)) :
    header m = some (replyHeader request rcode) := by
  rw [at_cons, at_cons] at hflags
  obtain ⟨h2, h3, -⟩ := hflags
  obtain ⟨hqr, hop, haa, htc, hrec⟩ := reply_flags flags hlt
  obtain ⟨hra, hz, hcode⟩ := reply_codes rcode hrcode
  unfold Dns.header replyHeader
  simp only [word_encode hid, h2, h3, Option.bind_eq_bind, Option.bind_some, hqr, hop, haa, htc,
    hrec, hra, hz, hcode, hrd]
  rfl

/-- Every reply the server builds is a message that answers the question of its query. -/
theorem buildResponse_decodes (ha : Accepted packet q question) (hr : header packet = some request)
    (hrcode : rcode < 16) (hn : answers.length < 65536) :
    ∃ reply, buildResponse packet q rcode answers = .ok reply ∧
      decode reply = some (replyMessage request question rcode answers) := by
  obtain ⟨hid, flags, hflags, hrd⟩ := header_eq_some hr
  obtain ⟨flags', hflags', hlt⟩ := ha.request
  obtain rfl := Option.some.inj (hflags.symm.trans hflags')
  have hecho := range_eq_ok ha.stands (List.append_ne_nil_of_left_ne_nil
    (List.ne_nil_of_length_pos (Nat.zero_lt_of_lt (length_lt_encodeName _))) _) ha.endOffset
  have hhead := range_eq_ok hid (List.cons_ne_nil _ _) (show 2 = 0 + _ from rfl)
  let m := encodeWord request.id ++ ([0x80 ||| (flags &&& 0x79), 0x80 ||| (rcode &&& 0x0f)] ++
    (encodeWord 1 ++ (encodeWord (UInt16.ofNat answers.length) ++ (encodeWord 0 ++ (encodeWord 0 ++
    (encodeQuestion question ++ answers.flatMap answerRecord))))))
  have hm : buildResponse packet q rcode answers = .ok m := by
    unfold buildResponse
    rw [hhead, index_eq_ok hflags, hecho]
    simp only [m, List.append_assoc]
    rfl
  refine ⟨m, hm, ?_⟩
  have h0 : At m 0 m := at_self
  obtain ⟨h0, h2⟩ := at_append.mp h0
  obtain ⟨h2, h4⟩ := at_append.mp h2
  obtain ⟨h4, h6⟩ := at_append.mp h4
  obtain ⟨h6, h8⟩ := at_append.mp h6
  obtain ⟨h8, h10⟩ := at_append.mp h8
  obtain ⟨h10, h12⟩ := at_append.mp h10
  obtain ⟨h12, hrecords⟩ := at_append.mp h12
  have hcount : (UInt16.ofNat answers.length).toNat = answers.length := by
    rw [UInt16.toNat_ofNat']
    omega
  have hlen : m.length = 12 + ((encodeQuestion question).length + 16 * answers.length) := by
    rw [← answers_length, ← List.length_append]
    simp only [m, List.length_append, encodeWord_length, List.length_cons, List.length_nil]
    omega
  have hlabels : question.name.length < (encodeQuestion question).length :=
    (length_lt_encodeName _).trans_le (List.prefix_append _ _).length_le
  have hname : name m (m.length - 1) 12 = _ :=
    name_encode ha.valid (at_append.mp h12).1 (by omega)
  have hheader : header m = _ := header_reply h0 h2 hlt hrcode hrd
  have hquestion : Dns.question m 12 = _ := question_encode ha.valid h12
  have hafter : At m (12 + (encodeQuestion question).length) _ := hrecords
  have hpos : 12 < 12 + (encodeQuestion question).length := by omega
  have hanswers := entries_answers hname hpos hafter
  have hquestions : entries (Dns.question m) (1 : UInt16).toNat 12 =
      some ([question], 12 + (encodeQuestion question).length) := by
    change entries (Dns.question m) 1 12 = _
    simp [entries, hquestion]
  have hw4 : word m 4 = some 1 := word_encode h4
  have hw6 : word m 6 = _ := word_encode h6
  have hw8 : word m 8 = some 0 := word_encode h8
  have hw10 : word m 10 = some 0 := word_encode h10
  unfold decode replyMessage
  simp only [hheader, hw4, hw6, hw8, hw10, hcount, Option.bind_eq_bind, Option.bind_some,
    hquestions,
    hanswers]
  rw [hlen]
  exact if_pos (Nat.add_assoc _ _ _)

end Build

end NulConnect.FakeDns
