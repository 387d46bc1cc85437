import NulConnect.FakeDns.Pool
import NulConnect.Net.Fragment
import NulConnect.TunStack.Ownership

/-! `accept_packet`, and what it and the stack loop take for the port of a fragment. -/
namespace NulConnect.TunStack
open Net Transition FakeDns

/-- `RouteDecision`, as far as its values are told apart. -/
inductive RouteDecision where
  | managed
  | other
deriving DecidableEq

/-- The rules of the client, for a destination as text and its port. -/
structure AtrClient where
  routeTcp : Text → UInt16 → RouteDecision
  routeUdp : Text → UInt16 → RouteDecision

/-- `fakePool` is whether there is one, and `receiving` whether the loop still holds the other end
of the input channel. -/
structure TunProtocolStack where
  client : AtrClient
  fakePool : Bool
  receiving : Bool

namespace TunProtocolStack

/-- `input.send(..).is_ok()`, and the packet that is in the channel after it. -/
def send (stack : TunProtocolStack) (packet : Packet) : Bool × Option Packet :=
  if stack.receiving then (true, some packet) else (false, none)

def isFake (stack : TunProtocolStack) (destination : Ipv4Addr) : Bool :=
  stack.fakePool && FakeIpPool.contains destination

def isManaged (stack : TunProtocolStack) (protocol : UInt8) (destination : Ipv4Addr)
    (port : UInt16) : Bool :=
  if protocol = 6 then stack.client.routeTcp destination.toText port = .managed
  else if protocol = 17 then stack.client.routeUdp destination.toText port = .managed
  else false

/-- The result of `accept_packet`, and the packet that it gives to the stack loop. -/
def acceptPacket (stack : TunProtocolStack) (packet : Packet) : Bool × Option Packet :=
  match ipv4ProtocolAndPort packet with
  | none => (false, none)
  | some (protocol, destination, port) =>
    if stack.isFake destination then
      if protocol = 6 then stack.send packet
      -- nothing else can be carried by name: dropped
      else (true, none)
    else if stack.isManaged protocol destination port then stack.send packet
    else (false, none)

end TunProtocolStack

/-- Where a packet goes. -/
inductive Choice where
  | stack
  | dropped
  | fallback
deriving DecidableEq

/-- The caller sends what is not accepted through the L3 tunnel. -/
def TunProtocolStack.choice (stack : TunProtocolStack) (packet : Packet) : Choice :=
  match stack.acceptPacket packet with
  | (_, some _) => .stack
  | (true, none) => .dropped
  | (false, none) => .fallback

/-- What the listeners hold of a destination. -/
def StackState.marks (s : StackState) (target : Endpoint) :
    (Option ℕ × Option ℕ) × (Option ℕ × Option ℕ) :=
  ((s.tcpListeners.byTarget target, s.tcpListeners.lastUsed target),
    (s.udpListeners.byTarget target, s.udpListeners.lastUsed target))

/-- The loop takes the packet off the channel without a listener or a time of use for any other
destination. -/
def OnlyMarks (R : PacketReader) (p : Packet) (target : Endpoint) : Prop :=
  ∀ s t, (stackSystem R).Reachable s → (stackSystem R).step s (.packet p) = some t →
    ∀ other, other ≠ target → t.marks other = s.marks other

/-- A datagram and one of its fragments are told apart by nothing. -/
structure TreatedAlike (R : PacketReader) (stack : TunProtocolStack) (d f : Ipv4Packet) : Prop where
  choice : stack.choice f.bytes = stack.choice d.bytes
  listeners : ∀ p, (stack.acceptPacket f.bytes).2 = some p →
    OnlyMarks R p ⟨d.destination, d.destinationPort⟩
  /-- What a later fragment carries has no part in the port that is read. -/
  payload : f.fragmentOffset ≠ 0 → ∀ g : Ipv4Packet, g.header = f.header →
    g.payload.length = f.payload.length →
    ipv4ProtocolAndPort g.bytes = ipv4ProtocolAndPort f.bytes

/-- The destination is treated alike under both ports, and not given to the loop under the wrong
one. -/
def TunProtocolStack.Agrees (stack : TunProtocolStack) (d : Ipv4Packet) (port : UInt16) : Prop :=
  port = d.destinationPort ∨ stack.receiving = false ∨
    if stack.isFake d.destination then d.protocol = 17
    else stack.isManaged d.protocol d.destination d.destinationPort = false ∧
      stack.isManaged d.protocol d.destination port = false

section Classify

variable {R : PacketReader} {stack : TunProtocolStack} {d f : Ipv4Packet} {p : Packet}
  {protocol : UInt8} {destination : Ipv4Addr} {port : UInt16}

/-- What both `accept_packet` and the loop read of a packet: bytes 2 and 3 behind its header,
whatever they are. -/
def portRead (f : Ipv4Packet) : UInt16 :=
  if f.payload.length < 4 then 0 else f.destinationPort

theorem ipv4ProtocolAndPort_bytes (ht : f.protocol = 6 ∨ f.protocol = 17) :
    ipv4ProtocolAndPort f.bytes = some (f.protocol, f.destination, portRead f) := by
  have hmin := f.minimal
  have hlen : f.bytes.length = f.header.length + f.payload.length := List.length_append
  have hhead : ∀ i < 20, f.bytes.getD i 0 = f.header.getD i 0 := fun i hi =>
    List.getD_append _ _ _ _ (by omega)
  have htail : ∀ i, f.bytes.getD (f.header.length + i) 0 = f.payload.getD i 0 := by
    intro i
    unfold Ipv4Packet.bytes
    rw [List.getD_append_right _ _ _ _ (by omega), Nat.add_sub_cancel_left]
  have hprotocol : f.bytes.getD 9 0 = f.protocol := hhead 9 (by omega)
  unfold ipv4ProtocolAndPort
  simp only [hhead 0 (by omega), ← f.headerLength, htail, hprotocol, hhead 16 (by omega),
    hhead 17 (by omega), hhead 18 (by omega), hhead 19 (by omega), hlen]
  rw [if_neg (by simp only [f.version, ne_eq, not_true_eq_false, or_false]; omega),
    if_neg (by omega)]
  unfold portRead
  by_cases hshort : f.payload.length < 4
  · rw [if_pos (Or.inr (by omega)), if_pos hshort]
    rfl
  · have hread : ¬ (¬ (f.protocol = 6 ∨ f.protocol = 17) ∨
        f.header.length + f.payload.length < f.header.length + 4) := by
      rw [not_or, not_not]
      exact ⟨ht, by omega⟩
    rw [if_neg hread, if_neg hshort]
    rfl

/-- The packet is given to the loop. -/
def TunProtocolStack.Sends (stack : TunProtocolStack) (protocol : UInt8) (destination : Ipv4Addr)
    (port : UInt16) : Prop :=
  stack.receiving ∧ if stack.isFake destination then protocol = 6
    else stack.isManaged protocol destination port

theorem acceptPacket_sent (h : ipv4ProtocolAndPort p = some (protocol, destination, port)) :
    (stack.acceptPacket p).2 = some p ↔ stack.Sends protocol destination port := by
  unfold TunProtocolStack.acceptPacket TunProtocolStack.Sends TunProtocolStack.send
  rw [h]
  dsimp only
  split_ifs
  all_goals simp_all

theorem acceptPacket_same {q : Packet} (h : (stack.acceptPacket p).2 = some q) : q = p := by
  unfold TunProtocolStack.acceptPacket TunProtocolStack.send at h
  split at h
  · cases h
  · split_ifs at h
    all_goals exact (Option.some.inj h).symm

theorem choice_eq (h : ipv4ProtocolAndPort p = some (protocol, destination, port)) :
    stack.choice p = if stack.isFake destination then
        if protocol = 6 then if stack.receiving then .stack else .fallback else .dropped
      else if stack.isManaged protocol destination port ∧ stack.receiving then .stack
      else .fallback := by
  unfold TunProtocolStack.choice TunProtocolStack.acceptPacket TunProtocolStack.send
  rw [h]
  dsimp only
  split_ifs
  all_goals simp_all

end Classify

section Marks

variable {R : PacketReader} {s : StackState} {p : Packet} {protocol : UInt8} {addr : Ipv4Addr}
  {port : UInt16} {target : Endpoint}

/-- A packet changes what the listeners hold of its destination, and of no other. -/
theorem marks_drain (h : ipv4ProtocolAndPort p = some (protocol, addr, port)) {other : Endpoint}
    (hother : other ≠ ⟨addr, port⟩) : (s.drain p).marks other = s.marks other := by
  unfold StackState.drain
  rw [h]
  dsimp only
  split_ifs
  · obtain ⟨_, ht, -⟩ | ⟨_, _, _, ht, -⟩ := s.ensureTcpListener_cases ⟨addr, port⟩
    all_goals simp [ht, StackState.marks, Listeners.touch, Listeners.insert, hother]
  · obtain ⟨_, ht, -⟩ | ⟨_, _, ht, -⟩ := s.ensureUdpListener_cases ⟨addr, port⟩
    all_goals simp [ht, StackState.marks, Listeners.touch, Listeners.insert, hother]
  · rfl

/-- The destination of a packet that the loop takes is marked as used at once. -/
theorem marks_drain_self (h : ipv4ProtocolAndPort p = some (protocol, addr, port))
    (ht : protocol = 6 ∨ protocol = 17) : ((s.drain p).marks ⟨addr, port⟩).1.2 = some s.nowMs ∨
      ((s.drain p).marks ⟨addr, port⟩).2.2 = some s.nowMs := by
  unfold StackState.drain
  rw [h]
  dsimp only
  cases ht with
  | inl h6 =>
    rw [if_pos h6]
    simp [StackState.marks, Listeners.touch]
  | inr h17 =>
    have h6 : protocol ≠ 6 := by
      rw [h17]
      decide
    rw [if_neg h6, if_pos h17]
    simp [StackState.marks, Listeners.touch]

/-- Before its first packet the loop has marked nothing. -/
theorem onlyMarks_iff (h : ipv4ProtocolAndPort p = some (protocol, addr, port))
    (ht : protocol = 6 ∨ protocol = 17) : OnlyMarks R p target ↔ target = ⟨addr, port⟩ := by
  constructor
  · intro hm
    by_contra hne
    have h0 : (stackSystem R).Reachable (.initial 0) := .init ⟨0, rfl⟩
    have hr : (stackSystem R).Reachable { StackState.initial 0 with phase := .draining } :=
      h0.run [.wake 0] rfl
    have hsame := hm _ _ hr rfl ⟨addr, port⟩ (Ne.symm hne)
    obtain hmark | hmark :=
      marks_drain_self (s := { StackState.initial 0 with phase := .draining }) h ht
    all_goals
      rw [hsame] at hmark
      cases hmark
  · rintro rfl s t - hs other hother
    obtain ⟨-, rfl⟩ := when_eq_some.mp hs
    exact marks_drain h hother

end Marks

section Alike

variable {R : PacketReader} {stack : TunProtocolStack} {d f : Ipv4Packet} {fs : List Ipv4Packet}

theorem portRead_datagram (hd : d.Datagram) : portRead d = d.destinationPort := by
  have hlen : ¬ d.payload.length < 4 := by
    obtain ⟨-, h⟩ | ⟨-, h⟩ := hd.transport
    all_goals omega
  exact if_neg hlen

theorem transport_or (hd : d.Datagram) : d.protocol = 6 ∨ d.protocol = 17 := by
  obtain ⟨h, -⟩ | ⟨h, -⟩ := hd.transport
  · exact Or.inl h
  · exact Or.inr h

/-- Both places read the destination of the datagram and the port at which they look. -/
theorem reads_fragment (hd : d.Datagram) (hs : f.SameDatagram d) :
    ipv4ProtocolAndPort f.bytes = some (d.protocol, d.destination, portRead f) := by
  have ht : f.protocol = 6 ∨ f.protocol = 17 := by
    rw [hs.protocol]
    exact transport_or hd
  rw [ipv4ProtocolAndPort_bytes ht, hs.protocol, hs.destination]

theorem reads_datagram (hd : d.Datagram) :
    ipv4ProtocolAndPort d.bytes = some (d.protocol, d.destination, d.destinationPort) := by
  rw [ipv4ProtocolAndPort_bytes (transport_or hd), portRead_datagram hd]

theorem listeners_iff (hd : d.Datagram) (hs : f.SameDatagram d) :
    (∀ p, (stack.acceptPacket f.bytes).2 = some p →
        OnlyMarks R p ⟨d.destination, d.destinationPort⟩) ↔
      (stack.Sends d.protocol d.destination (portRead f) → portRead f = d.destinationPort) := by
  have hreads := reads_fragment hd hs
  have hmarks : OnlyMarks R f.bytes ⟨d.destination, d.destinationPort⟩ ↔
      portRead f = d.destinationPort := by
    rw [onlyMarks_iff hreads (transport_or hd), Endpoint.mk.injEq]
    exact ⟨fun h => h.2.symm, fun h => ⟨rfl, h.symm⟩⟩
  rw [← acceptPacket_sent hreads, ← hmarks]
  constructor
  · exact fun h => h f.bytes
  · intro h p hp
    obtain rfl := acceptPacket_same hp
    exact h hp

/-- When the port that is read of a fragment makes no difference. -/
theorem agrees_iff (hd : d.Datagram) (hs : f.SameDatagram d) :
    stack.choice f.bytes = stack.choice d.bytes ∧
        (stack.Sends d.protocol d.destination (portRead f) → portRead f = d.destinationPort) ↔
      stack.Agrees d (portRead f) := by
  rw [choice_eq (reads_fragment hd hs), choice_eq (reads_datagram hd)]
  unfold TunProtocolStack.Agrees TunProtocolStack.Sends
  by_cases hport : portRead f = d.destinationPort
  · simp [hport]
  cases hreceiving : stack.receiving with
  | false => simp
  | true =>
    cases hfake : stack.isFake d.destination with
    | true =>
      obtain h6 | h17 := transport_or hd
      · simp [h6, hport]
      · simp [h17]
    | false =>
      cases stack.isManaged d.protocol d.destination d.destinationPort
      all_goals
        cases stack.isManaged d.protocol d.destination (portRead f)
        all_goals simp [hport]

/-- The bytes of a fragment are read as soon as there are four of them. -/
theorem payload_iff (hd : d.Datagram) (hs : f.SameDatagram d) :
    (∀ g : Ipv4Packet, g.header = f.header → g.payload.length = f.payload.length →
        ipv4ProtocolAndPort g.bytes = ipv4ProtocolAndPort f.bytes) ↔ f.payload.length < 4 := by
  have hg : ∀ g : Ipv4Packet, g.header = f.header → g.SameDatagram d := by
    intro g hheader
    have hsame : g.SameDatagram f := by
      constructor
      all_goals
        simp only [Ipv4Packet.identification, Ipv4Packet.protocol, Ipv4Packet.source,
          Ipv4Packet.destination, hheader]
    exact ⟨hsame.identification.trans hs.identification, hsame.protocol.trans hs.protocol,
      hsame.source.trans hs.source, hsame.destination.trans hs.destination⟩
  constructor
  · intro hall
    by_contra hlong
    obtain ⟨g, hheader, hlen, hport⟩ := Ipv4Packet.exists_other_port (Nat.not_lt.mp hlong)
    have hsame := hall g hheader hlen
    rw [reads_fragment hd (hg g hheader), reads_fragment hd hs] at hsame
    have hread : portRead g = portRead f := by simpa using hsame
    unfold portRead at hread
    rw [if_neg (by omega), if_neg hlong] at hread
    exact hport hread
  · intro hshort g hheader hlen
    rw [reads_fragment hd (hg g hheader), reads_fragment hd hs]
    unfold portRead
    rw [if_pos hshort, if_pos (by omega)]

/-- The first fragment has the ports. -/
theorem treatedAlike_first (hd : d.Datagram) (hs : f.SameDatagram d) (hfirst : f.fragmentOffset = 0)
    (hport : portRead f = d.destinationPort) : TreatedAlike R stack d f where
  choice := ((agrees_iff hd hs).mpr (Or.inl hport)).1
  listeners := (listeners_iff hd hs).mpr fun _ => hport
  payload := fun hne => absurd hfirst hne

/-- A later fragment is read as if it were to port 0, where it is not read at all. -/
theorem treatedAlike_later (hd : d.Datagram) (hs : f.SameDatagram d)
    (hlater : f.fragmentOffset ≠ 0) :
    TreatedAlike R stack d f ↔ f.payload.length < 4 ∧ stack.Agrees d 0 := by
  have hzero : f.payload.length < 4 → portRead f = 0 := fun h => if_pos h
  constructor
  · intro h
    have hshort := (payload_iff hd hs).mp (h.payload hlater)
    have hagrees := (agrees_iff hd hs).mp ⟨h.choice, (listeners_iff hd hs).mp h.listeners⟩
    rw [hzero hshort] at hagrees
    exact ⟨hshort, hagrees⟩
  · rintro ⟨hshort, hagrees⟩
    rw [← hzero hshort] at hagrees
    obtain ⟨hchoice, hsends⟩ := (agrees_iff hd hs).mpr hagrees
    exact ⟨hchoice, (listeners_iff hd hs).mpr hsends, fun _ => (payload_iff hd hs).mpr hshort⟩

/-- The fragments of a datagram are treated alike just if those behind the first have no bytes
where a port would be, and port 0 makes no difference. -/
theorem fragments_treatedAlike_iff (R : PacketReader) (stack : TunProtocolStack)
    (hd : d.Datagram) (hf : d.Fragmentation fs) :
    (∀ f ∈ fs, TreatedAlike R stack d f) ↔
      ∀ f ∈ fs, f.fragmentOffset ≠ 0 → f.payload.length < 4 ∧ stack.Agrees d 0 := by
  constructor
  · intro h f hmem hlater
    exact (treatedAlike_later hd (hf.pieces.sameDatagram f hmem) hlater).mp (h f hmem)
  · intro h f hmem
    have hs := hf.pieces.sameDatagram f hmem
    by_cases hfirst : f.fragmentOffset = 0
    · obtain ⟨hlen, hport⟩ := hf.first hd hmem hfirst
      have hread : portRead f = d.destinationPort := by
        unfold portRead
        rw [if_neg (by omega), hport]
      exact treatedAlike_first hd hs hfirst hread
    · exact (treatedAlike_later hd hs hfirst).mpr (h f hmem hfirst)

end Alike

/-- A name server is managed for UDP. -/
private def dnsRules : TunProtocolStack where
  client :=
    { routeTcp := fun _ _ => .other
      routeUdp := fun _ port => if port = 53 then .managed else .other }
  fakePool := true
  receiving := true

/-- Eleven bytes of UDP from 10.8.0.2 port 40000 to 10.0.0.53 port 5353. -/
private def announcement : Ipv4Packet where
  header := [69, 0, 0, 31, 18, 52, 0, 0, 64, 17, 84, 92, 10, 8, 0, 2, 10, 0, 0, 53]
  payload := [156, 64, 20, 233, 0, 11, 0, 0, 1, 2, 3]

private def announcementHead : Ipv4Packet where
  header := [69, 0, 0, 28, 18, 52, 32, 0, 64, 17, 52, 95, 10, 8, 0, 2, 10, 0, 0, 53]
  payload := [156, 64, 20, 233, 0, 11, 0, 0]

private def announcementTail : Ipv4Packet where
  header := [69, 0, 0, 23, 18, 52, 0, 1, 64, 17, 84, 99, 10, 8, 0, 2, 10, 0, 0, 53]
  payload := [1, 2, 3]

private theorem announcement_fragmentation :
    announcement.Fragmentation [announcementHead, announcementTail] where
  pieces := by
    have htail : Ipv4Packet.Pieces announcement (announcementHead.fragmentOffset + 1)
        announcementTail.payload [announcementTail] :=
      .last (f := announcementTail) ⟨rfl, rfl, rfl, rfl⟩ rfl
    exact .more (f := announcementHead) ⟨rfl, rfl, rfl, rfl⟩ rfl (by decide) rfl
      (List.cons_ne_nil _ _) htail
  allowed := by decide

/-- Both fragments go past the stack, as the datagram does. -/
theorem divided_announcement : TreatedAlike .plain dnsRules announcement announcementHead ∧
    TreatedAlike .plain dnsRules announcement announcementTail := by
  have hd : announcement.Datagram := ⟨by decide, by decide⟩
  have hreal : dnsRules.isFake announcement.destination = false := by decide +kernel
  have hagrees : dnsRules.Agrees announcement 0 := by
    apply Or.inr
    apply Or.inr
    rw [hreal, if_neg Bool.false_ne_true]
    constructor
    all_goals decide +kernel
  have hall := (fragments_treatedAlike_iff .plain dnsRules hd announcement_fragmentation).mpr
    fun f hf hlater => by
      obtain rfl | rfl : f = announcementHead ∨ f = announcementTail := by simpa using hf
      · exact absurd rfl hlater
      · exact ⟨by decide, hagrees⟩
  exact ⟨hall _ (by simp), hall _ (by simp)⟩

/-- Sixteen bytes of UDP from 10.8.0.2 port 40000 to 10.0.0.53 port 53. -/
private def query : Ipv4Packet where
  header := [69, 0, 0, 36, 18, 52, 0, 0, 64, 17, 84, 87, 10, 8, 0, 2, 10, 0, 0, 53]
  payload := [156, 64, 0, 53, 0, 16, 0, 0, 18, 52, 1, 0, 0, 1, 0, 0]

private def queryHead : Ipv4Packet where
  header := [69, 0, 0, 28, 18, 52, 32, 0, 64, 17, 52, 95, 10, 8, 0, 2, 10, 0, 0, 53]
  payload := [156, 64, 0, 53, 0, 16, 0, 0]

private def queryTail : Ipv4Packet where
  header := [69, 0, 0, 28, 18, 52, 0, 1, 64, 17, 84, 94, 10, 8, 0, 2, 10, 0, 0, 53]
  payload := [18, 52, 1, 0, 0, 1, 0, 0]

private theorem query_datagram : query.Datagram := ⟨by decide, by decide⟩

private theorem query_fragmentation : query.Fragmentation [queryHead, queryTail] where
  pieces := by
    have htail : Ipv4Packet.Pieces query (queryHead.fragmentOffset + 1) queryTail.payload
        [queryTail] := .last (f := queryTail) ⟨rfl, rfl, rfl, rfl⟩ rfl
    exact .more (f := queryHead) ⟨rfl, rfl, rfl, rfl⟩ rfl (by decide) rfl (List.cons_ne_nil _ _)
      htail
  allowed := by decide

/-- The query goes to the stack, and its second fragment, whose bytes read as port 256, past it. -/
theorem divided_query : query.Datagram ∧ query.Fragmentation [queryHead, queryTail] ∧
    dnsRules.choice query.bytes = .stack ∧ dnsRules.choice queryTail.bytes = .fallback ∧
    ¬ ∀ f ∈ [queryHead, queryTail], TreatedAlike .plain dnsRules query f := by
  have hwhole : dnsRules.choice query.bytes = .stack := by decide +kernel
  have htail : dnsRules.choice queryTail.bytes = .fallback := by decide +kernel
  refine ⟨query_datagram, query_fragmentation, hwhole, htail, fun h => ?_⟩
  have hsame := (h queryTail (by simp)).choice
  rw [hwhole, htail] at hsame
  cases hsame

end NulConnect.TunStack
