import NulConnect.Transition.System
import NulConnect.FakeDns.Pool

/-! The answers of the fake DNS server and the targets of the connections to them: `decide`
against the lookup of `process_tcp`, over whole histories of queries. -/
namespace NulConnect.FakeDns
open Net Transition

def typeA : UInt16 := 1

def classIn : UInt16 := 1

structure DnsPolicy where
  isManagedTcpDomain : Text → Bool
  routedStaticIp : Text → Option Ipv4Addr

structure Question where
  name : Text
  qtype : UInt16
  qclass : UInt16

inductive Decision where
  | answer (ips : List Ipv4Addr)
  | noData
  | forward
deriving DecidableEq

def decide (policy : DnsPolicy) (pool : FakeIpPool) (question : Question) :
    Decision × FakeIpPool :=
  if question.qclass ≠ classIn ∨ ¬ policy.isManagedTcpDomain question.name then (.forward, pool)
  else if question.qtype = typeA then
    match policy.routedStaticIp question.name with
    | some ip => (.answer [ip], pool)
    | none =>
      let (ip, pool) := pool.allocate question.name
      (.answer [ip], pool)
  else (.noData, pool)

/-- The `target` of a connection that `process_tcp` accepts for an address. -/
def tcpTarget (pool : FakeIpPool) (ip : Ipv4Addr) : Text := (pool.domainFor ip).getD ip.toText

/-- An answer that was given: `fromPolicy` where the address was the routed static one, and
`evicted` once the pool has handed the address to another name by eviction. -/
structure Answer where
  name : Text
  ip : Ipv4Addr
  fromPolicy : Bool
  evicted : Bool

structure State where
  pool : FakeIpPool
  answers : List Answer

def initial : State where
  pool := .empty
  answers := []

/-- The answers once the pool has gone from `pool` to `pool'`. -/
def markEvicted (pool pool' : FakeIpPool) (answer : Answer) : Answer :=
  if pool.domainFor answer.ip ≠ none ∧ pool'.domainFor answer.ip ≠ pool.domainFor answer.ip ∧
      pool'.domainFor answer.ip ≠ some (normalize answer.name) then
    { answer with evicted := true }
  else answer

/-- A query reaches the server. Connections look the pool up and change nothing. -/
structure Action where
  policy : DnsPolicy
  question : Question

/-- The answer as it is recorded for an address. -/
def Action.answered (a : Action) (ip : Ipv4Addr) : Answer where
  name := a.question.name
  ip := ip
  fromPolicy := (a.policy.routedStaticIp a.question.name).isSome
  evicted := false

def step (s : State) (a : Action) : Option State :=
  let (decision, pool) := decide a.policy s.pool a.question
  let answers := s.answers.map (markEvicted s.pool pool)
  match decision with
  | .answer ips => some { pool := pool, answers := ips.map a.answered ++ answers }
  | .noData | .forward => some { pool := pool, answers := answers }

def system : System State Action where
  init s := s = initial
  step := step

/-- A connection to an answered address goes to the name it was answered for, or to the
address itself where that was the routed static one. -/
def AnswersAgree (s : State) : Prop := ∀ answer ∈ s.answers, ¬ answer.evicted →
  s.pool.domainFor answer.ip = some (normalize answer.name) ∨
    answer.fromPolicy ∧ s.pool.domainFor answer.ip = none ∧
      tcpTarget s.pool answer.ip = answer.ip.toText

/-- Where the address of a managed name is asked for, the policy's static address for it lies
outside the fake range. -/
def StaticOutside (a : Action) : Prop :=
  a.question.qclass = classIn → a.question.qtype = typeA →
    a.policy.isManagedTcpDomain a.question.name →
    ∀ ip, a.policy.routedStaticIp a.question.name = some ip → ¬ FakeIpPool.contains ip

structure Agreement (s : State) : Prop where
  valid : s.pool.Valid
  fromPool : ∀ answer ∈ s.answers, ¬ answer.evicted → ¬ answer.fromPolicy →
    s.pool.domainFor answer.ip = some (normalize answer.name)
  fromPolicy : ∀ answer ∈ s.answers, answer.fromPolicy → ¬ FakeIpPool.contains answer.ip

theorem agreement_initial : Agreement initial where
  valid := FakeIpPool.valid_empty
  fromPool _ h := absurd h List.not_mem_nil
  fromPolicy _ h := absurd h List.not_mem_nil

theorem Agreement.answersAgree {s : State} (hs : Agreement s) : AnswersAgree s := by
  intro answer hmem hev
  by_cases hp : answer.fromPolicy
  · right
    have hn : s.pool.domainFor answer.ip = none := if_neg (hs.fromPolicy answer hmem hp)
    refine ⟨hp, hn, ?_⟩
    unfold tcpTarget
    rw [hn, Option.getD_none]
  · exact .inl (hs.fromPool answer hmem hev hp)

section Step

variable {pool pool' : FakeIpPool} {answer : Answer} {s t : State} {a : Action}

@[simp] theorem markEvicted_ip : (markEvicted pool pool' answer).ip = answer.ip := by
  unfold markEvicted
  split_ifs <;> rfl

@[simp] theorem markEvicted_name : (markEvicted pool pool' answer).name = answer.name := by
  unfold markEvicted
  split_ifs <;> rfl

@[simp] theorem markEvicted_fromPolicy :
    (markEvicted pool pool' answer).fromPolicy = answer.fromPolicy := by
  unfold markEvicted
  split_ifs <;> rfl

/-- An answer that is not marked keeps the name its address stood for. -/
theorem domainFor_of_not_evicted (h : ¬ (markEvicted pool pool' answer).evicted)
    (hd : ¬ answer.evicted → pool.domainFor answer.ip = some (normalize answer.name)) :
    pool'.domainFor answer.ip = some (normalize answer.name) := by
  unfold markEvicted at h
  split_ifs at h with hm
  · exact absurd rfl h
  · have hold := hd h
    by_contra hnew
    refine hm ⟨?_, ?_, hnew⟩
    · simp [hold]
    · rw [hold]
      exact hnew

/-- What `decide` may answer, and with which pool. -/
theorem decide_spec (hv : pool.Valid) (hok : StaticOutside a) {decision : Decision}
    (h : decide a.policy pool a.question = (decision, pool')) :
    pool'.Valid ∧ ∀ ips, decision = .answer ips → ∃ ip, ips = [ip] ∧
      ((a.answered ip).fromPolicy → ¬ FakeIpPool.contains ip) ∧
      (¬ (a.answered ip).fromPolicy → pool'.domainFor ip = some (normalize a.question.name)) := by
  unfold decide at h
  split_ifs at h with hf ha
  · obtain ⟨rfl, rfl⟩ := Prod.mk.inj h
    exact ⟨hv, by simp⟩
  · obtain ⟨hclass, hmanaged⟩ := not_or.mp hf
    rw [not_not] at hclass hmanaged
    cases hs : a.policy.routedStaticIp a.question.name with
    | some ip =>
      simp only [hs] at h
      obtain ⟨rfl, rfl⟩ := Prod.mk.inj h
      refine ⟨hv, ?_⟩
      rintro ips hips
      obtain rfl := Decision.answer.inj hips
      refine ⟨ip, rfl, fun _ => hok hclass ha hmanaged ip hs, fun hn => ?_⟩
      simp [Action.answered, hs] at hn
    | none =>
      simp only [hs] at h
      obtain ⟨rfl, rfl⟩ := Prod.mk.inj h
      refine ⟨hv.allocate _, ?_⟩
      rintro ips hips
      obtain rfl := Decision.answer.inj hips
      refine ⟨_, rfl, fun hp => ?_, fun _ => FakeIpPool.domainFor_allocate hv _⟩
      simp [Action.answered, hs] at hp
  · obtain ⟨rfl, rfl⟩ := Prod.mk.inj h
    exact ⟨hv, by simp⟩

theorem step_cases (h : step s a = some t) : ∃ decision,
    decide a.policy s.pool a.question = (decision, t.pool) ∧ ∀ answer ∈ t.answers,
      (∃ old ∈ s.answers, markEvicted s.pool t.pool old = answer) ∨
      ∃ ips, decision = .answer ips ∧ ∃ ip ∈ ips, a.answered ip = answer := by
  unfold step at h
  generalize decide a.policy s.pool a.question = d at h
  obtain ⟨decision, pool⟩ := d
  refine ⟨decision, ?_⟩
  cases decision with
  | answer ips =>
    obtain rfl := Option.some.inj h
    refine ⟨rfl, fun answer hmem => ?_⟩
    obtain hnew | hold := List.mem_append.mp hmem
    · obtain ⟨ip, hip, rfl⟩ := List.mem_map.mp hnew
      exact .inr ⟨ips, rfl, ip, hip, rfl⟩
    · exact .inl (List.mem_map.mp hold)
  | noData | forward =>
    obtain rfl := Option.some.inj h
    exact ⟨rfl, fun answer hmem => .inl (List.mem_map.mp hmem)⟩

theorem Agreement.step (hs : Agreement s) (hok : StaticOutside a) (h : FakeDns.step s a = some t) :
    Agreement t := by
  obtain ⟨decision, hd, hmem⟩ := step_cases h
  obtain ⟨hv, hans⟩ := decide_spec hs.valid hok hd
  refine ⟨hv, ?_, ?_⟩
  · intro answer ha hev hp
    obtain ⟨old, hold, rfl⟩ | ⟨ips, hips, ip, hip, rfl⟩ := hmem answer ha
    · rw [markEvicted_fromPolicy] at hp
      rw [markEvicted_ip, markEvicted_name]
      exact domainFor_of_not_evicted hev fun hev' => hs.fromPool old hold hev' hp
    · obtain ⟨ip', rfl, -, hd'⟩ := hans ips hips
      obtain rfl := List.mem_singleton.mp hip
      exact hd' hp
  · intro answer ha hp
    obtain ⟨old, hold, rfl⟩ | ⟨ips, hips, ip, hip, rfl⟩ := hmem answer ha
    · rw [markEvicted_fromPolicy] at hp
      rw [markEvicted_ip]
      exact hs.fromPolicy old hold hp
    · obtain ⟨ip', rfl, hout, -⟩ := hans ips hips
      obtain rfl := List.mem_singleton.mp hip
      exact hout hp

end Step

/-- In every history in which the policy's static addresses lie outside the fake range,
connections agree with the answers given. -/
theorem answersAgree_of_staticOutside {s : State}
    (h : system.ReachUnder (fun _ a => StaticOutside a) s) : AnswersAgree s := by
  refine Agreement.answersAgree (h.invariant ?_ ?_)
  · rintro s rfl
    exact agreement_initial
  · intro s a t _ hs hok ht
    exact hs.step hok ht

section Examples

/-- The address the pool hands out first. -/
private def firstIp : Ipv4Addr := slotIp 0

private def asks (name : String) (static : Option Ipv4Addr) : Action where
  policy := { isManagedTcpDomain := fun _ => true, routedStaticIp := fun _ => static }
  question := { name := name.toList, qtype := typeA, qclass := classIn }

/-- Two names, one answered from the pool and one by the policy. -/
theorem answersAgree_two : ∃ s : State, s.answers.length = 2 ∧ AnswersAgree s := by
  have h0 : system.ReachUnder (fun _ a => StaticOutside a) initial := .init rfl
  have h1 := h0.step (a := asks "b.example" none) (fun _ _ _ _ h => by cases h) rfl
  have h2 := h1.step (a := asks "a.example" (some (Ipv4Addr.ofOctets 10 0 0 1)))
    (fun _ _ _ ip h => by obtain rfl := Option.some.inj h; decide) rfl
  exact ⟨_, rfl, answersAgree_of_staticOutside h2⟩

/-- The policy's static address for one name is the address the pool has handed out for
another; a connection to it goes to the other name. -/
theorem static_answer_misled : ∃ s : State, system.Reachable s ∧
    (∃ answer ∈ s.answers, answer.name = "a.example".toList ∧ ¬ answer.evicted ∧
      tcpTarget s.pool answer.ip = "b.example".toList) ∧ ¬ AnswersAgree s := by
  have h0 : system.Reachable initial := .init rfl
  have hr := System.Reachable.run h0 [asks "b.example" none, asks "a.example" (some firstIp)] rfl
  refine ⟨_, hr, ⟨_, .head _, rfl, by decide, rfl⟩, fun h => ?_⟩
  obtain h | ⟨-, h, -⟩ := h _ (.head _) (by decide)
  · revert h
    decide
  · revert h
    decide

end Examples

end NulConnect.FakeDns
