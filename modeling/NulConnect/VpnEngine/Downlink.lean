import NulConnect.VpnEngine.Workers

/-! The way of a packet to the device: the downlink worker and the transmissions of the stack, which
share the device and the counters of what has come down. -/
namespace NulConnect.VpnEngine.Downlink
open Net Transition

/-- The packet information of a platform: the address family, or zeros. -/
inductive HeaderKind where
  | family (inet inet6 : UInt32)
  | zeros

def toBeBytes (n : UInt32) : Bytes :=
  [(n >>> 24).toUInt8, (n >>> 16).toUInt8, (n >>> 8).toUInt8, n.toUInt8]

def packetInformationHeader (kind : HeaderKind) (packet : Bytes) : Bytes :=
  match kind with
  | .family inet inet6 => toBeBytes (if isIpv6Packet packet then inet6 else inet)
  | .zeros => [0, 0, 0, 0]

def addPacketInformation (kind : HeaderKind) (packet : Bytes) (enabled : Bool) : Bytes :=
  if ¬ enabled then packet else packetInformationHeader kind packet ++ packet

structure Config where
  worker : WorkerConfig
  kind : HeaderKind

/-- The threads that write to the device. -/
inductive Sender where
  | downlink
  | stack
deriving DecidableEq

/-- A call of `send_packet`: what was to be sent, what the device was given, and its answer. -/
structure Sent where
  sender : Sender
  packet : Bytes
  frame : Bytes
  result : Except IoError Unit

/-- `reads` are the packets that `read_packet` has given; `call` is the one that is being sent.
`delivered` is what the stack has passed on to the sockets of the applications. -/
structure State where
  engine : Engine
  call : Option Bytes
  downloadBytes : UInt64
  downloadPackets : UInt64
  reads : List Bytes
  calls : List Sent
  delivered : List Bytes

inductive Action where
  /-- A step of the workers outside the downlink's turn with a packet. -/
  | engine (a : VpnEngine.Action)
  | read (read : Except ReatrustError Bytes)
  | send (sent : Except IoError Unit)
  /-- `StackTxToken::consume` -/
  | transmit (packet : Bytes) (sent : Except IoError Unit)
  /-- A socket takes what `deliver_download` or the UDP relay gives it. -/
  | deliver (data : Bytes)

def initial : State where
  engine := VpnEngine.initial
  call := none
  downloadBytes := 0
  downloadPackets := 0
  reads := []
  calls := []
  delivered := []

/-- The actions of the workers outside the downlink's turn with a packet. -/
def OfWorkers : VpnEngine.Action → Prop
  | .downlinkPacket .. => False
  | _ => True

instance (a : VpnEngine.Action) : Decidable (OfWorkers a) := by
  rcases a with ⟨⟩
  all_goals unfold OfWorkers; infer_instance

/-- The device is given a packet. -/
def sendPacket (c : Config) (sender : Sender) (packet : Bytes) (result : Except IoError Unit) :
    Sent where
  sender := sender
  packet := packet
  frame := addPacketInformation c.kind packet c.worker.packetInformation
  result := result

def step (c : Config) (s : State) : Action → Option State
  | .engine a =>
    if OfWorkers a then (VpnEngine.step c.worker s.engine a).map fun e => { s with engine := e }
    else none
  | .read read =>
    match s.call, read with
    | some _, _ => none
    | none, .error _ =>
      (VpnEngine.step c.worker s.engine (.downlinkPacket read (.ok ()))).map fun e =>
        { s with engine := e }
    | none, .ok packet => when (s.engine.downlink = .packet)
        { s with call := some packet, reads := s.reads ++ [packet] }
  | .send sent =>
    match s.call with
    | none => none
    | some packet =>
      let outcome := downlinkTurn c.worker (.ok packet) sent
      (VpnEngine.step c.worker s.engine (.downlinkPacket (.ok packet) sent)).map fun e =>
        { s with
          engine := e
          call := none
          downloadBytes := s.downloadBytes + UInt64.ofNat outcome.bytes
          downloadPackets := s.downloadPackets + UInt64.ofNat outcome.packets
          calls := s.calls ++ [sendPacket c .downlink packet sent] }
  | .transmit packet sent => some { s with calls := s.calls ++ [sendPacket c .stack packet sent] }
  -- The stack counts bytes, and no packets.
  | .deliver data => some { s with
      downloadBytes := s.downloadBytes + UInt64.ofNat data.length
      delivered := s.delivered ++ [data] }

/-- The workers of an engine and the stack at their device. -/
def system (c : Config) : System State Action where
  init s := s = initial
  step := step c

/-- The packets of the tunnel that the device was given. -/
def given (calls : List Sent) : List Bytes :=
  (calls.filter (·.sender = .downlink)).map (·.packet)

/-- The packets of the tunnel that the device took. -/
def taken (calls : List Sent) : List Bytes :=
  (calls.filter fun x => x.sender = .downlink ∧ x.result.isOk).map (·.packet)

/-- An answer of the device that ends the engine. -/
def Sent.Ends (c : Config) (x : Sent) (err : IoError) : Prop :=
  x.sender = .downlink ∧ x.result = .error err ∧ err.kind ≠ .wouldBlock ∧
    c.worker.exitOnFatalError = true

/-- Every packet of the tunnel goes to the device once, in its turn and under its header; what the
device refuses is dropped, or ends the engine. -/
structure Carried (c : Config) (s : State) : Prop where
  order : given s.calls ++ s.call.toList = s.reads
  framed : ∀ x ∈ s.calls, x.frame = addPacketInformation c.kind x.packet c.worker.packetInformation
  stripped : ∀ x ∈ s.calls, c.worker.packetInformation = false ∨ x.packet ≠ [] →
    stripPacketInformation x.frame c.worker.packetInformation = .ok x.packet
  packets : s.downloadPackets = UInt64.ofNat (taken s.calls).length
  bytes : s.downloadBytes =
    UInt64.ofNat ((taken s.calls).flatten.length + s.delivered.flatten.length)
  ended : ∀ front x rest err, s.calls = front ++ x :: rest → x.Ends c err →
    .networkFailed err.message ∈ s.engine.shared.failures ∧ s.call = none ∧
      ∀ y ∈ rest, y.sender = .stack

section Header

/-- The device reads back what was written, but for a packet without a byte behind its header. -/
theorem strip_addPacketInformation (kind : HeaderKind) {packet : Bytes} {enabled : Bool}
    (h : enabled = false ∨ packet ≠ []) :
    stripPacketInformation (addPacketInformation kind packet enabled) enabled = .ok packet := by
  cases enabled with
  | false => rfl
  | true =>
    have hne : packet ≠ [] := h.resolve_left Bool.false_ne_true.symm
    have hlength : (packetInformationHeader kind packet).length = packetInformationLength := by
      cases kind <;> rfl
    have hpos : 0 < packet.length := List.length_pos_iff.mpr hne
    have hlong : ¬ (packetInformationHeader kind packet ++ packet).length ≤
        packetInformationLength := by
      rw [List.length_append, hlength]
      omega
    simp only [addPacketInformation, stripPacketInformation, not_true_eq_false, if_false]
    rw [if_neg hlong, ← hlength, List.drop_left]

end Header

section Workers

variable {Retry : Type} {onOpen : Retry → Option AtrError} {stopped : AtrError} {s t : Shared}
  {w w' : Worker Retry}

/-- A worker that has left its loop does not come back. -/
theorem advance_working (h : advance onOpen stopped s w = some (t, w')) (hw : w'.Working) :
    w.Working := by
  cases w with
  | condition | unlessClosed => trivial
  | packet | done => cases h
  | behind =>
    simp only [advance] at h
    split_ifs at h
    · obtain ⟨rfl, rfl⟩ := Prod.mk.inj (Option.some.inj h)
      exact hw
    · obtain ⟨rfl, rfl⟩ := Prod.mk.inj (Option.some.inj h)
      exact hw
  | setResult | storeClose =>
    obtain ⟨rfl, rfl⟩ := Prod.mk.inj (Option.some.inj h)
    exact hw

theorem advance_failures (h : advance onOpen stopped s w = some (t, w')) :
    s.failures ⊆ t.failures := by
  cases w with
  | packet | done => cases h
  | condition | setResult | storeClose =>
    obtain ⟨rfl, rfl⟩ := Prod.mk.inj (Option.some.inj h)
    exact List.Subset.refl _
  | behind =>
    simp only [advance] at h
    split_ifs at h
    · obtain ⟨rfl, rfl⟩ := Prod.mk.inj (Option.some.inj h)
      exact List.Subset.refl _
    · obtain ⟨rfl, rfl⟩ := Prod.mk.inj (Option.some.inj h)
      exact List.subset_cons_self _ _
  | unlessClosed retry =>
    simp only [advance] at h
    split_ifs at h
    · obtain ⟨rfl, rfl⟩ := Prod.mk.inj (Option.some.inj h)
      exact List.Subset.refl _
    · split at h
      · obtain ⟨rfl, rfl⟩ := Prod.mk.inj (Option.some.inj h)
        exact List.Subset.refl _
      · obtain ⟨rfl, rfl⟩ := Prod.mk.inj (Option.some.inj h)
        exact List.subset_cons_self _ _

/-- A turn leaves the loop where it calls `fail_engine`. -/
theorem takeTurn_leaves {outcome : Outcome Retry} (h : takeTurn s outcome w = some (t, w')) :
    w = .packet ∧ s.failures ⊆ t.failures ∧
      ∀ err, outcome = .fail err → err ∈ t.failures ∧ ¬ w'.Working := by
  cases w with
  | packet =>
    cases outcome with
    | next | carried | unlessClosed =>
      obtain ⟨rfl, rfl⟩ := Prod.mk.inj (Option.some.inj h)
      refine ⟨rfl, List.Subset.refl _, fun err herr => ?_⟩
      cases herr
    | fail err =>
      obtain ⟨rfl, rfl⟩ := Prod.mk.inj (Option.some.inj h)
      refine ⟨rfl, List.subset_cons_self _ _, fun other hother => ?_⟩
      obtain rfl := Outcome.fail.inj hother
      exact ⟨List.mem_cons_self, id⟩
  | condition | unlessClosed | behind | setResult | storeClose | done => cases h

/-- What the other steps of the workers leave of the downlink. -/
structure Beside (e f : Engine) : Prop where
  working : f.downlink.Working → e.downlink.Working
  packet : e.downlink = .packet → f.downlink = .packet
  failures : e.shared.failures ⊆ f.shared.failures

theorem beside_of_workers {c : WorkerConfig} {e f : Engine} {a : VpnEngine.Action}
    (ha : OfWorkers a) (h : VpnEngine.step c e a = some f) : Beside e f := by
  cases a with
  | cancel | takeResult =>
    cases h
    exact ⟨id, id, List.Subset.refl _⟩
  | uplink =>
    obtain ⟨p, hp, rfl⟩ := Option.map_eq_some_iff.mp h
    exact ⟨id, id, advance_failures hp⟩
  | uplinkPacket received accepted written =>
    obtain ⟨p, hp, rfl⟩ := Option.map_eq_some_iff.mp h
    exact ⟨id, id, (takeTurn_leaves hp).2.1⟩
  | downlink =>
    obtain ⟨p, hp, rfl⟩ := Option.map_eq_some_iff.mp h
    refine ⟨advance_working hp, fun hpacket => ?_, advance_failures hp⟩
    rw [hpacket] at hp
    cases hp
  | downlinkPacket => exact ha.elim

end Workers

section Runs

variable {c : Config} {s t : State}

structure Invariant (c : Config) (s : State) : Prop extends Carried c s where
  sending : s.call ≠ none → s.engine.downlink = .packet
  left : ∀ x ∈ s.calls, ∀ err, x.Ends c err → ¬ s.engine.downlink.Working

/-- Where the last of the calls stands in a cut of them. -/
theorem cut_last {calls front rest : List Sent} {x y : Sent}
    (h : calls ++ [y] = front ++ x :: rest) :
    (rest = [] ∧ x = y) ∨ ∃ before, rest = before ++ [y] ∧ calls = front ++ x :: before := by
  cases List.eq_nil_or_concat' rest with
  | inl hnil =>
    subst hnil
    have hlast := List.append_inj' h rfl
    exact .inl ⟨rfl, (List.cons.inj hlast.2).1.symm⟩
  | inr hconcat =>
    obtain ⟨before, z, rfl⟩ := hconcat
    rw [← List.cons_append, ← List.append_assoc] at h
    obtain ⟨hcalls, hlast⟩ := List.append_inj' h rfl
    obtain rfl := (List.cons.inj hlast).1
    exact .inr ⟨before, rfl, hcalls⟩

theorem Invariant.engine_step (hs : Invariant c s) {e : Engine} (he : Beside s.engine e) :
    Invariant c { s with engine := e } where
  order := hs.order
  framed := hs.framed
  stripped := hs.stripped
  packets := hs.packets
  bytes := hs.bytes
  ended front x rest err hcalls hends := by
    obtain ⟨hfail, hrest⟩ := hs.ended front x rest err hcalls hends
    exact ⟨he.failures hfail, hrest⟩
  sending hcall := he.packet (hs.sending hcall)
  left x hx err hends hworking := hs.left x hx err hends (he.working hworking)

/-- A call of the device is framed as the others are. -/
theorem sendPacket_stripped (sender : Sender) (packet : Bytes) (result : Except IoError Unit)
    (h : c.worker.packetInformation = false ∨ packet ≠ []) :
    stripPacketInformation (sendPacket c sender packet result).frame c.worker.packetInformation =
      .ok packet := strip_addPacketInformation c.kind h

/-- While the worker is at a packet, no answer of the device has ended the engine. -/
theorem Invariant.not_ends (hs : Invariant c s) (hpacket : s.engine.downlink = .packet) :
    ∀ x ∈ s.calls, ∀ err, ¬ x.Ends c err := by
  intro x hx err hends
  apply hs.left x hx err hends
  rw [hpacket]
  trivial

theorem Invariant.read_error (hs : Invariant c s) (hcall : s.call = none) {err : ReatrustError}
    {e : Engine}
    (h : VpnEngine.step c.worker s.engine (.downlinkPacket (.error err) (.ok ())) = some e) :
    Invariant c { s with engine := e } := by
  obtain ⟨p, hp, rfl⟩ := Option.map_eq_some_iff.mp h
  have hnone := hs.not_ends (takeTurn_leaves hp).1
  constructor
  · constructor
    · exact hs.order
    · exact hs.framed
    · exact hs.stripped
    · exact hs.packets
    · exact hs.bytes
    · intro front x rest fault hcalls hends
      have hcalls : s.calls = front ++ x :: rest := hcalls
      have hx : x ∈ s.calls := by simp [hcalls]
      exact absurd hends (hnone x hx fault)
  · exact fun hsome => absurd hcall hsome
  · exact fun x hx fault hends => absurd hends (hnone x hx fault)

theorem Invariant.read_packet (hs : Invariant c s) (hcall : s.call = none)
    (hpacket : s.engine.downlink = .packet) (packet : Bytes) :
    Invariant c { s with call := some packet, reads := s.reads ++ [packet] } := by
  have hnone := hs.not_ends hpacket
  constructor
  · constructor
    · have horder := hs.order
      rw [hcall, Option.toList_none, List.append_nil] at horder
      dsimp only
      rw [horder, Option.toList_some]
    · exact hs.framed
    · exact hs.stripped
    · exact hs.packets
    · exact hs.bytes
    · intro front x rest fault hcalls hends
      have hcalls : s.calls = front ++ x :: rest := hcalls
      have hx : x ∈ s.calls := by simp [hcalls]
      exact absurd hends (hnone x hx fault)
  · exact fun _ => hpacket
  · exact fun x hx fault hends => absurd hends (hnone x hx fault)

theorem taken_send (calls : List Sent) (packet : Bytes) (sent : Except IoError Unit) :
    taken (calls ++ [sendPacket c .downlink packet sent]) =
      taken calls ++ if sent.isOk then [packet] else [] := by
  cases sent <;> simp [taken, sendPacket, Except.isOk, Except.toBool]

/-- The worker counts what the device takes. -/
theorem downlinkTurn_counts (w : WorkerConfig) (packet : Bytes) (sent : Except IoError Unit) :
    (downlinkTurn w (.ok packet) sent).packets = (if sent.isOk then [packet] else []).length ∧
      (downlinkTurn w (.ok packet) sent).bytes =
        (if sent.isOk then [packet] else []).flatten.length := by
  cases sent with
  | ok u => exact ⟨rfl, (congrArg List.length List.flatten_singleton).symm⟩
  | error err =>
    have hnone : (if (Except.error err : Except IoError Unit).isOk then [packet] else []) = [] :=
      rfl
    rw [hnone]
    simp only [downlinkTurn, Except.mapError]
    split_ifs <;> exact ⟨rfl, rfl⟩

/-- The worker sends its packet. -/
theorem Invariant.send (hs : Invariant c s) {packet : Bytes} (hcall : s.call = some packet)
    {sent : Except IoError Unit} {e : Engine}
    (h : VpnEngine.step c.worker s.engine (.downlinkPacket (.ok packet) sent) = some e) :
    Invariant c { s with
      engine := e
      call := none
      downloadBytes :=
        s.downloadBytes + UInt64.ofNat (downlinkTurn c.worker (.ok packet) sent).bytes
      downloadPackets :=
        s.downloadPackets + UInt64.ofNat (downlinkTurn c.worker (.ok packet) sent).packets
      calls := s.calls ++ [sendPacket c .downlink packet sent] } := by
  obtain ⟨hpackets, hbytes⟩ := downlinkTurn_counts c.worker packet sent
  obtain ⟨p, hp, rfl⟩ := Option.map_eq_some_iff.mp h
  obtain ⟨hpacket, -, hfail⟩ := takeTurn_leaves hp
  have hnone := hs.not_ends hpacket
  -- only the new call may end the engine
  have hends : ∀ err, (sendPacket c .downlink packet sent).Ends c err →
      downlinkTurn c.worker (.ok packet) sent = .fail (.networkFailed err.message) := by
    rintro err ⟨-, hresult, hkind, hexit⟩
    obtain rfl : sent = .error err := hresult
    simp [downlinkTurn, Except.mapError, hkind, hexit]
  constructor
  · constructor
    · have horder := hs.order
      rw [hcall, Option.toList_some] at horder
      rw [← horder]
      simp [given, sendPacket]
    · intro x hx
      cases List.mem_append.mp hx with
      | inl hold => exact hs.framed x hold
      | inr hnew =>
        obtain rfl := List.mem_singleton.mp hnew
        rfl
    · intro x hx hbytes
      cases List.mem_append.mp hx with
      | inl hold => exact hs.stripped x hold hbytes
      | inr hnew =>
        obtain rfl := List.mem_singleton.mp hnew
        exact sendPacket_stripped .downlink packet sent hbytes
    · dsimp only
      rw [hpackets, hs.packets, taken_send, List.length_append, UInt64.ofNat_add]
    · dsimp only
      rw [hbytes, hs.bytes, taken_send, ← UInt64.ofNat_add, List.flatten_append, List.length_append,
        Nat.add_right_comm]
    · intro front x rest err hcalls hx
      obtain ⟨rfl, rfl⟩ | ⟨before, rfl, hbefore⟩ := cut_last hcalls
      · refine ⟨(hfail _ (hends err hx)).1, rfl, fun y hy => ?_⟩
        cases hy
      · exact absurd hx (hnone x (by simp [hbefore]) err)
  · exact fun hsome => absurd rfl hsome
  · intro x hx err hx'
    cases List.mem_append.mp hx with
    | inl hold => exact absurd hx' (hnone x hold err)
    | inr hnew =>
      obtain rfl := List.mem_singleton.mp hnew
      exact (hfail _ (hends err hx')).2

/-- The stack transmits, at any time. -/
theorem Invariant.transmit (hs : Invariant c s) (packet : Bytes) (sent : Except IoError Unit) :
    Invariant c { s with calls := s.calls ++ [sendPacket c .stack packet sent] } := by
  constructor
  · constructor
    · have horder := hs.order
      simpa [given, sendPacket] using horder
    · intro x hx
      cases List.mem_append.mp hx with
      | inl hold => exact hs.framed x hold
      | inr hnew =>
        obtain rfl := List.mem_singleton.mp hnew
        rfl
    · intro x hx hbytes
      cases List.mem_append.mp hx with
      | inl hold => exact hs.stripped x hold hbytes
      | inr hnew =>
        obtain rfl := List.mem_singleton.mp hnew
        exact sendPacket_stripped .stack packet sent hbytes
    · have hpackets := hs.packets
      simpa [taken, sendPacket] using hpackets
    · have hbytes := hs.bytes
      simpa [taken, sendPacket] using hbytes
    · intro front x rest err hcalls hx
      obtain ⟨-, rfl⟩ | ⟨before, rfl, hbefore⟩ := cut_last hcalls
      · cases hx.1
      · obtain ⟨hfail, hcall, hrest⟩ := hs.ended front x before err hbefore hx
        refine ⟨hfail, hcall, fun y hy => ?_⟩
        cases List.mem_append.mp hy with
        | inl hold => exact hrest y hold
        | inr hnew =>
          obtain rfl := List.mem_singleton.mp hnew
          rfl
  · exact hs.sending
  · intro x hx err hx'
    cases List.mem_append.mp hx with
    | inl hold => exact hs.left x hold err hx'
    | inr hnew =>
      obtain rfl := List.mem_singleton.mp hnew
      cases hx'.1

/-- The stack delivers, at any time. -/
theorem Invariant.deliver (hs : Invariant c s) (data : Bytes) : Invariant c { s with
    downloadBytes := s.downloadBytes + UInt64.ofNat data.length
    delivered := s.delivered ++ [data] } := by
  constructor
  · refine ⟨hs.order, hs.framed, hs.stripped, hs.packets, ?_, hs.ended⟩
    dsimp only
    rw [hs.bytes, ← UInt64.ofNat_add, List.flatten_append, List.flatten_singleton,
      List.length_append, Nat.add_assoc]
  · exact hs.sending
  · exact hs.left

theorem Invariant.step {a : Action} (hs : Invariant c s) (h : step c s a = some t) :
    Invariant c t := by
  cases a with
  | engine a =>
    simp only [Downlink.step] at h
    split_ifs at h with ha
    obtain ⟨e, he, rfl⟩ := Option.map_eq_some_iff.mp h
    exact hs.engine_step (beside_of_workers ha he)
  | read read =>
    simp only [Downlink.step] at h
    split at h
    · cases h
    · rename_i hcall
      obtain ⟨e, he, rfl⟩ := Option.map_eq_some_iff.mp h
      exact hs.read_error hcall he
    · rename_i packet hcall
      obtain ⟨hpacket, rfl⟩ := when_eq_some.mp h
      exact hs.read_packet hcall hpacket packet
  | send sent =>
    simp only [Downlink.step] at h
    split at h
    · cases h
    · rename_i packet hcall
      obtain ⟨e, he, rfl⟩ := Option.map_eq_some_iff.mp h
      exact hs.send hcall he
  | transmit packet sent =>
    cases h
    exact hs.transmit packet sent
  | deliver data =>
    cases h
    exact hs.deliver data

theorem invariant_of_reachable (hs : (system c).Reachable s) : Invariant c s := by
  refine System.ReachUnder.invariant hs ?_ fun _ _ _ _ ih _ h => ih.step h
  intro s hinit
  obtain rfl : s = initial := hinit
  constructor
  · constructor
    · rfl
    · exact fun x hx => absurd hx List.not_mem_nil
    · exact fun x hx => absurd hx List.not_mem_nil
    · rfl
    · rfl
    · intro front x rest err hcalls
      exact absurd hcalls (by simp [initial])
  · exact fun hcall => absurd rfl hcall
  · exact fun x hx => absurd hx List.not_mem_nil

end Runs

end NulConnect.VpnEngine.Downlink
