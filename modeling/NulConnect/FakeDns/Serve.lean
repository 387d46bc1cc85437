import NulConnect.FakeDns.Wire

/-! The loop of the fake DNS server: the queries it answers itself and those it forwards. -/
namespace NulConnect.FakeDns
open Net Dns Transition

def maxInflightForwards : ℕ := 64

def maxDnsPacket : ℕ := 4096

structure Datagram (Addr : Type) where
  payload : Bytes
  dest : Addr

/-- A thread that forwards a query and has not yet counted itself out. -/
structure ForwardThread (Addr : Type) where
  packet : Bytes
  upstream : Addr
  peer : Addr

structure Serving (Addr : Type) where
  pool : FakeIpPool
  inflight : ℕ
  forwards : List (ForwardThread Addr)

variable {Addr : Type}

/-- What the loop of `serve` does with a question. `cloned` tells whether `try_clone` succeeds. -/
def serveQuestion (policy : DnsPolicy) (upstream : Option Addr) (cloned : Bool) (s : Serving Addr)
    (query : Bytes) (question : ParsedQuestion) (peer : Addr) :
    Except Panic (Serving Addr × List (Datagram Addr)) := do
  let (decision, pool) := decide policy s.pool question.toQuestion
  let s := { s with pool := pool }
  match decision with
  | .answer ips => return (s, [⟨← buildResponse query question 0 ips, peer⟩])
  | .noData => return (s, [⟨← buildResponse query question 0 [], peer⟩])
  | .forward =>
    match upstream with
    | none => return (s, [⟨← buildResponse query question 2 [], peer⟩])
    | some upstream =>
      if maxInflightForwards ≤ s.inflight then
        return (s, [⟨← buildResponse query question 2 [], peer⟩])
      else if cloned then
        return ({ s with
          inflight := s.inflight + 1
          forwards := ⟨query, upstream, peer⟩ :: s.forwards }, [])
      else return (s, [])

/-- The state that a received packet leaves and the datagrams the loop sends itself. -/
def serveQuery (policy : DnsPolicy) (upstream : Option Addr) (cloned : Bool) (s : Serving Addr)
    (query : Bytes) (peer : Addr) : Except Panic (Serving Addr × List (Datagram Addr)) := do
  let some question ← parseQuery query | return (s, [])
  serveQuestion policy upstream cloned s query question peer

/-- How the calls of `forward` turn out. -/
structure ForwardCalls where
  bind : Bool
  setReadTimeout : Bool
  connect : Bool
  send : Bool
  recv : Option Bytes

def ForwardCalls.sends (calls : ForwardCalls) : Bool :=
  calls.bind && calls.setReadTimeout && calls.connect && calls.send

/-- The datagrams `forward` sends to the upstream resolver, and the response. -/
def forward (calls : ForwardCalls) (packet : Bytes) (upstream : Addr) :
    List (Datagram Addr) × Option Bytes :=
  if calls.sends then ([⟨packet, upstream⟩], calls.recv.map (·.take maxDnsPacket)) else ([], none)

/-- All that a thread sends: the query, and the response where there is one. -/
def ForwardThread.run (thread : ForwardThread Addr) (calls : ForwardCalls) :
    List (Datagram Addr) :=
  match forward calls thread.packet thread.upstream with
  | (queries, some response) => queries ++ [⟨response, thread.peer⟩]
  | (queries, none) => queries

inductive ServeAction (Addr : Type) where
  | receive (policy : DnsPolicy) (cloned : Bool) (query : Bytes) (peer : Addr)
  | finish (i : ℕ)

def serveStep (upstream : Option Addr) (s : Serving Addr) : ServeAction Addr → Option (Serving Addr)
  | .receive policy cloned query peer =>
    match serveQuery policy upstream cloned s query peer with
    | .ok (t, _) => some t
    | .error _ => none
  | .finish i => when (i < s.forwards.length)
      { s with inflight := s.inflight - 1, forwards := s.forwards.eraseIdx i }

/-- The server starts without forwards, on a pool that may have been in use. -/
def server (upstream : Option Addr) : System (Serving Addr) (ServeAction Addr) where
  init s := s.inflight = 0 ∧ s.forwards = []
  step := serveStep upstream

/-- The counter is the number of threads. -/
structure Counted (s : Serving Addr) : Prop where
  count : s.inflight = s.forwards.length
  bound : s.forwards.length ≤ maxInflightForwards

/-- The question is one the server answers itself. -/
def Managed (policy : DnsPolicy) (q : ParsedQuestion) : Prop :=
  q.qclass = classIn ∧ policy.isManagedTcpDomain q.name

/-- The addresses of a reply to a managed question and the pool they leave. -/
structure Answers (policy : DnsPolicy) (pool : FakeIpPool) (q : ParsedQuestion)
    (answers : List Ipv4Addr) (pool' : FakeIpPool) : Prop where
  routed : q.qtype = typeA → ∀ ip, policy.routedStaticIp q.name = some ip →
    answers = [ip] ∧ pool' = pool
  allocated : q.qtype = typeA → policy.routedStaticIp q.name = none →
    answers = [(pool.allocate q.name).1] ∧ pool' = (pool.allocate q.name).2
  noData : q.qtype ≠ typeA → answers = [] ∧ pool' = pool

theorem decide_managed {policy : DnsPolicy} {q : ParsedQuestion} (h : Managed policy q)
    (pool : FakeIpPool) : ∃ answers pool', Answers policy pool q answers pool' ∧
      answers.length < 65536 ∧
      (decide policy pool q.toQuestion = (.answer answers, pool') ∨
        decide policy pool q.toQuestion = (.noData, pool') ∧ answers = []) := by
  obtain ⟨hclass, hname⟩ := h
  have hhere : ¬ (q.qclass ≠ classIn ∨ ¬ policy.isManagedTcpDomain q.name) := by
    simp [hclass, hname]
  unfold decide
  rw [if_neg hhere]
  by_cases htype : q.qtype = typeA
  · rw [if_pos htype]
    cases hs : policy.routedStaticIp q.name with
    | some ip =>
      refine ⟨[ip], pool, ⟨?_, ?_, absurd htype⟩, by simp, .inl rfl⟩
      · intro _ ip' hip'
        rw [Option.some.inj (hs.symm.trans hip')]
        exact ⟨rfl, rfl⟩
      · intro _ hn
        simp [hs] at hn
    | none =>
      refine ⟨[(pool.allocate q.name).1], (pool.allocate q.name).2, ⟨?_, ?_, absurd htype⟩,
        by simp, .inl rfl⟩
      · intro _ ip hip
        simp [hs] at hip
      · exact fun _ _ => ⟨rfl, rfl⟩
  · rw [if_neg htype]
    exact ⟨[], pool, ⟨fun h => absurd h htype, fun h => absurd h htype, fun _ => ⟨rfl, rfl⟩⟩,
      by decide, .inr ⟨rfl, rfl⟩⟩

theorem decide_forward {policy : DnsPolicy} {q : ParsedQuestion} (h : ¬ Managed policy q)
    (pool : FakeIpPool) : decide policy pool q.toQuestion = (.forward, pool) := by
  have hforward : q.qclass ≠ classIn ∨ ¬ policy.isManagedTcpDomain q.name := by
    by_contra hn
    push Not at hn
    exact h hn
  exact if_pos hforward

section Serve

variable {policy : DnsPolicy} {upstream : Option Addr} {cloned : Bool} {s t : Serving Addr}
  {packet : Bytes} {q : ParsedQuestion} {question : Dns.Question} {request : Header} {peer : Addr}

/-- A managed question: one reply to the peer, and at most the pool changes. -/
theorem serveQuestion_managed (ha : Accepted packet q question) (hr : header packet = some request)
    (hm : Managed policy q) : ∃ reply answers pool',
      serveQuestion policy upstream cloned s packet q peer =
        .ok ({ s with pool := pool' }, [⟨reply, peer⟩]) ∧
      decode reply = some (replyMessage request question 0 answers) ∧
      Answers policy s.pool q answers pool' := by
  obtain ⟨answers, pool', hans, hlen, hd⟩ := decide_managed hm s.pool
  obtain ⟨reply, hreply, hdecode⟩ :=
    buildResponse_decodes ha hr (show (0 : UInt8) < 16 by decide) hlen
  refine ⟨reply, answers, pool', ?_, hdecode, hans⟩
  unfold serveQuestion
  obtain hd | ⟨hd, rfl⟩ := hd
  · rw [hd]
    dsimp only
    rw [hreply]
    rfl
  · rw [hd]
    dsimp only
    rw [hreply]
    rfl

/-- A question that is not managed: a reply that there was a failure, or a thread that forwards
the query, or nothing where the socket cannot be cloned. -/
theorem serveQuestion_forward (ha : Accepted packet q question) (hr : header packet = some request)
    (hm : ¬ Managed policy q) : ∃ reply,
      decode reply = some (replyMessage request question 2 []) ∧
      serveQuestion policy upstream cloned s packet q peer = .ok (match upstream with
        | none => (s, [⟨reply, peer⟩])
        | some upstream =>
          if maxInflightForwards ≤ s.inflight then (s, [⟨reply, peer⟩])
          else if cloned then ({ s with
            inflight := s.inflight + 1
            forwards := ⟨packet, upstream, peer⟩ :: s.forwards }, [])
          else (s, [])) := by
  obtain ⟨reply, hreply, hdecode⟩ :=
    buildResponse_decodes ha hr (show (2 : UInt8) < 16 by decide)
      (show ([] : List Ipv4Addr).length < 65536 by simp)
  refine ⟨reply, hdecode, ?_⟩
  unfold serveQuestion
  rw [decide_forward hm]
  dsimp only
  cases upstream with
  | none =>
    dsimp only
    rw [hreply]
    rfl
  | some upstream =>
    dsimp only
    split_ifs
    · rw [hreply]
      rfl
    · rfl
    · rfl

/-- What the loop can do with a packet; it never ends by an index out of bounds. -/
theorem serveQuery_cases (policy : DnsPolicy) (upstream : Option Addr) (cloned : Bool)
    (s : Serving Addr) (packet : Bytes) (peer : Addr) :
    ∃ t out, serveQuery policy upstream cloned s packet peer = .ok (t, out) ∧
      (t.inflight = s.inflight ∧ t.forwards = s.forwards ∨
        s.inflight < maxInflightForwards ∧ t.inflight = s.inflight + 1 ∧
          ∃ thread, t.forwards = thread :: s.forwards) := by
  obtain ⟨result, hresult⟩ := parseQuery_ok packet
  unfold serveQuery
  rw [hresult]
  cases result with
  | none => exact ⟨s, [], rfl, .inl ⟨rfl, rfl⟩⟩
  | some q =>
    change ∃ t out, serveQuestion policy upstream cloned s packet q peer = _ ∧ _
    obtain ⟨question, ha⟩ := parseQuery_eq_some hresult
    obtain ⟨request, hr⟩ := ha.header
    by_cases hm : Managed policy q
    · obtain ⟨reply, _, pool', hserve, -⟩ := serveQuestion_managed ha hr hm
      exact ⟨_, _, hserve, .inl ⟨rfl, rfl⟩⟩
    · obtain ⟨reply, -, hserve⟩ := serveQuestion_forward ha hr hm
      refine ⟨_, _, hserve, ?_⟩
      cases upstream with
      | none => exact .inl ⟨rfl, rfl⟩
      | some upstream =>
        dsimp only
        split_ifs with hfull hcloned
        · exact .inl ⟨rfl, rfl⟩
        · exact .inr ⟨not_le.mp hfull, rfl, _, rfl⟩
        · exact .inl ⟨rfl, rfl⟩

theorem Counted.step {a : ServeAction Addr} (hs : Counted s)
    (h : serveStep upstream s a = some t) : Counted t := by
  have hcount := hs.count
  have hbound := hs.bound
  cases a with
  | receive policy cloned query peer =>
    obtain ⟨t', out, hserve, hcase⟩ := serveQuery_cases policy upstream cloned s query peer
    simp only [serveStep, hserve] at h
    obtain rfl := Option.some.inj h
    obtain ⟨hi, hf⟩ | ⟨hlt, hi, thread, hf⟩ := hcase
    · exact ⟨by rw [hi, hf, hcount], by rw [hf]; exact hbound⟩
    · refine ⟨by rw [hi, hf, List.length_cons, hcount], ?_⟩
      rw [hf, List.length_cons]
      omega
  | finish i =>
    obtain ⟨hi, rfl⟩ := when_eq_some.mp h
    have hlen := List.length_eraseIdx_of_lt hi
    refine ⟨?_, ?_⟩
    · dsimp only
      rw [hlen, hcount]
    · dsimp only
      omega

theorem counted_of_reachable (h : (server upstream).Reachable s) : Counted s := by
  refine h.invariant ?_ ?_
  · rintro s ⟨hi, hf⟩
    exact ⟨by rw [hi, hf]; rfl, by rw [hf]; exact Nat.zero_le _⟩
  · exact fun s a t _ hs _ ht => hs.step ht

end Serve

/-- How the server serves a query that the parser accepts as `q`: the packet's header and question
decode, a managed question is answered from here, and any other query goes on as it is. -/
structure Served (policy : DnsPolicy) (upstream : Option Addr) (cloned : Bool) (s : Serving Addr)
    (packet : Bytes) (q : ParsedQuestion) (peer : Addr) (request : Header)
    (asks : Dns.Question) : Prop where
  headed : header packet = some request
  asked : question packet 12 = some (asks, q.endOffset)
  name : q.name = ['.'].intercalate (asks.name.map labelText)
  qtype : q.qtype = asks.qtype
  qclass : q.qclass = asks.qclass
  managed : Managed policy q → ∃ reply answers pool',
    serveQuery policy upstream cloned s packet peer =
      .ok ({ s with pool := pool' }, [⟨reply, peer⟩]) ∧
    decode reply = some (replyMessage request asks 0 answers) ∧
    Answers policy s.pool q answers pool'
  refused : ¬ Managed policy q → upstream = none ∨ s.forwards.length = maxInflightForwards →
    ∃ reply, serveQuery policy upstream cloned s packet peer = .ok (s, [⟨reply, peer⟩]) ∧
      decode reply = some (replyMessage request asks 2 [])
  forwarded : ¬ Managed policy q → s.forwards.length ≠ maxInflightForwards →
    ∀ resolver, upstream = some resolver →
      serveQuery policy upstream cloned s packet peer = .ok (if cloned then { s with
        inflight := s.inflight + 1
        forwards := ⟨packet, resolver, peer⟩ :: s.forwards } else s, []) ∧
      ∀ calls, (forward calls packet resolver).1 =
        if calls.sends then [⟨packet, resolver⟩] else []

/-- No packet ends the loop, and every query that the parser accepts is served. -/
theorem served_of_reachable {upstream : Option Addr} {s : Serving Addr}
    (h : (server upstream).Reachable s) (policy : DnsPolicy) (cloned : Bool) (packet : Bytes)
    (peer : Addr) :
    (∃ served, serveQuery policy upstream cloned s packet peer = .ok served) ∧
      ∀ q, parseQuery packet = .ok (some q) →
        ∃ request question, Served policy upstream cloned s packet q peer request question := by
  obtain ⟨t, out, hserve, -⟩ := serveQuery_cases policy upstream cloned s packet peer
  refine ⟨⟨_, hserve⟩, fun q hq => ?_⟩
  obtain ⟨question, ha⟩ := parseQuery_eq_some hq
  obtain ⟨request, hr⟩ := ha.header
  have hs := counted_of_reachable h
  have heq : serveQuery policy upstream cloned s packet peer =
      serveQuestion policy upstream cloned s packet q peer := by
    unfold serveQuery
    rw [hq]
    rfl
  refine ⟨request, question, hr, ?_, ha.name, ha.qtype, ha.qclass, fun hm => ?_, fun hm hfull => ?_,
    fun hm hroom resolver hup => ⟨?_, fun calls => ?_⟩⟩
  · rw [ha.endOffset]
    exact question_encode ha.valid ha.stands
  · rw [heq]
    exact serveQuestion_managed ha hr hm
  · obtain ⟨reply, hdecode, hforward⟩ := serveQuestion_forward ha hr hm
    refine ⟨reply, ?_, hdecode⟩
    rw [heq, hforward]
    cases upstream with
    | none => rfl
    | some resolver =>
      have hlen : s.forwards.length = maxInflightForwards := hfull.resolve_left (by simp)
      rw [← hs.count] at hlen
      exact congrArg Except.ok (if_pos hlen.ge)
  · subst hup
    obtain ⟨reply, -, hforward⟩ := serveQuestion_forward ha hr hm
    have hlt : ¬ maxInflightForwards ≤ s.inflight := by
      have hbound := hs.bound
      rw [hs.count]
      omega
    rw [heq, hforward]
    dsimp only
    rw [if_neg hlt]
    split_ifs <;> rfl
  · unfold forward
    split_ifs <;> rfl

section Examples

/-- A query for the addresses of `A.io`, with a byte of trailing data. -/
private def sampleQuery : Bytes :=
  [0x12, 0x34, 1, 0, 0, 1, 0, 0, 0, 0, 0, 0, 1, 0x41, 2, 0x69, 0x6f, 0, 0, 1, 0, 1, 0xff]

private def sampleParsed : ParsedQuestion where
  name := "a.io".toList
  qtype := typeA
  qclass := classIn
  endOffset := 22

private def samplePolicy : DnsPolicy where
  isManagedTcpDomain _ := true
  routedStaticIp _ := none

private theorem parseQuery_sample : parseQuery sampleQuery = .ok (some sampleParsed) := by
  have hlabels : parseLabels sampleQuery 12 [] = some ([['a'], ['i', 'o']], 18) := by
    have hvalid : Name.Valid [[0x41], [0x69, 0x6f]] := by
      unfold Name.Valid
      decide
    refine (parseLabels_encode hvalid ?_).trans ?_
    · unfold At
      decide
    · decide
  unfold parseQuery parseQuestion
  rw [hlabels]
  rfl

/-- The server serves the query, whose name decodes in the case it was sent in. -/
theorem served_sample : ∃ q request question,
    Served samplePolicy (some 1) true ⟨.empty, 0, []⟩ sampleQuery q 2 request question ∧
      Managed samplePolicy q ∧ question.name = [[0x41], [0x69, 0x6f]] := by
  have hreach : (server (some 1)).Reachable ⟨.empty, 0, []⟩ := .init ⟨rfl, rfl⟩
  obtain ⟨request, question, hserved⟩ :=
    (served_of_reachable hreach samplePolicy true sampleQuery 2).2 _ parseQuery_sample
  refine ⟨_, request, question, hserved, ⟨rfl, rfl⟩, ?_⟩
  have hasked : Dns.question sampleQuery 12 =
      some (⟨[[0x41], [0x69, 0x6f]], 1, 1⟩, 22) := by decide
  have hsame := Option.some.inj (hserved.asked.symm.trans hasked)
  rw [(Prod.mk.inj hsame).1]

end Examples

end NulConnect.FakeDns
