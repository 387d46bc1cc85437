import NulConnect.TunStack.Listening

/-! The times of use of the listeners over the iterations of the stack loop: which of them
belong to a listener, and when the last one is gone. -/
namespace NulConnect.TunStack
open Transition Net

/-- Before `process_udp` reads the clock again in an iteration. -/
def StackPhase.early : StackPhase → Bool
  | .draining | .polling | .accepting | .serving | .reaping => true
  | _ => false

namespace Listeners

variable {l l' : Listeners} {target : Endpoint} {handle now : ℕ} {use : Option (Endpoint × ℕ)}

/-- Every time of use is the one of a listener. -/
def Listed (l : Listeners) : Prop :=
  ∀ target, (l.lastUsed target).isSome → (l.byTarget target).isSome

/-- The destinations in any of the three maps. -/
def Mentions (l : Listeners) (target : Endpoint) : Prop :=
  (l.byTarget target).isSome ∨ (∃ handle, l.byHandle handle = some target) ∨
    (l.lastUsed target).isSome

/-- A listener that a sweep at the given time leaves alone. -/
def Busy (l : Listeners) (target : Endpoint) (now : ℕ) : Prop :=
  (l.byTarget target).isSome ∧ ¬ l.idle target now

/-- What a step of the loop does to a table of listeners, with the destination and the time
that it records. -/
inductive Edit (l : Listeners) : Option (Endpoint × ℕ) → Listeners → Prop where
  | kept : Edit l none l
  | touched {target : Endpoint} (h : (l.byTarget target).isSome ∨ target.port = 0) (now : ℕ) :
      Edit l (some (target, now)) (l.touch target now)
  | added {target : Endpoint} (hp : target.port ≠ 0) (handle now : ℕ) :
      Edit l (some (target, now)) ((l.insert target handle).touch target now)
  | replaced {target : Endpoint} {handle : ℕ} (hb : l.byHandle handle = some target)
      (handle' : ℕ) : Edit l none ((l.removeHandle handle target).insert target handle')
  | swept {target : Endpoint} {handle : ℕ} (hb : l.byHandle handle = some target) :
      Edit l none (l.sweep handle target)

/-- `listen` and `bind` refuse port 0, so that no listener stands for it. -/
structure Keyed (l : Listeners) : Prop where
  port : ∀ target, (l.byTarget target).isSome → target.port ≠ 0
  listed : ∀ target, (l.lastUsed target).isSome → target.port ≠ 0 → (l.byTarget target).isSome

/-- A time of use that no listener has. -/
def Stray (l : Listeners) : Prop := ∃ target, target.port = 0 ∧ (l.lastUsed target).isSome

theorem Keyed.listed_iff (hk : l.Keyed) : l.Listed ↔ ¬ l.Stray := by
  constructor
  · rintro hl ⟨target, hp, hu⟩
    exact hk.port target (hl target hu) hp
  · intro hn target hu
    exact hk.listed target hu fun hp => hn ⟨target, hp, hu⟩

namespace Edit

theorem keyed (he : l.Edit use l') (hi : Inverse l.byTarget l.byHandle) (hk : l.Keyed) :
    l'.Keyed := by
  cases he with
  | kept => exact hk
  | @touched target h now =>
    refine ⟨hk.port, fun x hx hp => ?_⟩
    by_cases hxt : x = target
    · subst x
      exact h.resolve_right hp
    · exact hk.listed x (by simpa [touch, hxt] using hx) hp
  | @added target hp handle now =>
    constructor
    · intro x hx
      by_cases hxt : x = target
      · exact hxt ▸ hp
      · exact hk.port x (by simpa [touch, insert, hxt] using hx)
    · intro x hx hxp
      by_cases hxt : x = target
      · simp [touch, insert, hxt]
      · have hold := hk.listed x (by simpa [touch, insert, hxt] using hx) hxp
        simpa [touch, insert, hxt] using hold
  | @replaced target handle hb handle' =>
    have ht : (l.byTarget target).isSome := by simp [(hi target handle).mpr hb]
    have hsame (x : Endpoint) : (((l.removeHandle handle target).insert target handle').byTarget
        x).isSome = (l.byTarget x).isSome := by
      by_cases hxt : x = target
      · simp [removeHandle, insert, hxt, ht]
      · simp [removeHandle, insert, hxt]
    refine ⟨fun x hx => hk.port x (hsame x ▸ hx), fun x hx hp => ?_⟩
    rw [hsame]
    exact hk.listed x hx hp
  | @swept target handle hb =>
    constructor
    · intro x hx
      by_cases hxt : x = target
      · simp [sweep, removeHandle, hxt] at hx
      · exact hk.port x (by simpa [sweep, removeHandle, hxt] using hx)
    · intro x hx hp
      by_cases hxt : x = target
      · simp [sweep, hxt] at hx
      · have hold := hk.listed x (by simpa [sweep, hxt] using hx) hp
        simpa [sweep, removeHandle, hxt] using hold

/-- The sweep finds listeners by their handles, and no handle leads to port 0. -/
theorem stray_iff (he : l.Edit use l') (hi : Inverse l.byTarget l.byHandle) (hk : l.Keyed) :
    l'.Stray ↔ l.Stray ∨ ∃ u, use = some u ∧ u.1.port = 0 := by
  cases he with
  | kept | replaced => simp [Stray, removeHandle, insert]
  | @touched target h now =>
    constructor
    · rintro ⟨x, hp, hx⟩
      by_cases hxt : x = target
      · exact .inr ⟨_, rfl, hxt ▸ hp⟩
      · exact .inl ⟨x, hp, by simpa [touch, hxt] using hx⟩
    · rintro (⟨x, hp, hx⟩ | ⟨u, hu, hp⟩)
      · refine ⟨x, hp, ?_⟩
        by_cases hxt : x = target
        · simp [touch, hxt]
        · simpa [touch, hxt] using hx
      · obtain rfl := Option.some.inj hu
        exact ⟨target, hp, by simp [touch]⟩
  | @added target hpt handle now =>
    constructor
    · rintro ⟨x, hp, hx⟩
      have hxt : x ≠ target := fun hxt => hpt (hxt ▸ hp)
      exact .inl ⟨x, hp, by simpa [touch, insert, hxt] using hx⟩
    · rintro (⟨x, hp, hx⟩ | ⟨u, hu, hp⟩)
      · have hxt : x ≠ target := fun hxt => hpt (hxt ▸ hp)
        exact ⟨x, hp, by simpa [touch, insert, hxt] using hx⟩
      · obtain rfl := Option.some.inj hu
        exact absurd hp hpt
  | @swept target handle hb =>
    have hpt : target.port ≠ 0 := hk.port target (by simp [(hi target handle).mpr hb])
    constructor
    · rintro ⟨x, hp, hx⟩
      have hxt : x ≠ target := fun hxt => hpt (hxt ▸ hp)
      exact .inl ⟨x, hp, by simpa [sweep, hxt] using hx⟩
    · rintro (⟨x, hp, hx⟩ | ⟨u, hu, -⟩)
      · have hxt : x ≠ target := fun hxt => hpt (hxt ▸ hp)
        exact ⟨x, hp, by simpa [sweep, hxt] using hx⟩
      · cases hu

theorem lastUsed (he : l.Edit use l') {used : ℕ} (hu : l'.lastUsed target = some used) :
    l.lastUsed target = some used ∨ use = some (target, used) := by
  cases he with
  | kept | replaced => exact .inl hu
  | @touched x h now =>
    by_cases hxt : target = x
    · subst x
      obtain rfl : now = used := by simpa [touch] using hu
      exact .inr rfl
    · exact .inl (by simpa [touch, hxt] using hu)
  | @added x hp handle now =>
    by_cases hxt : target = x
    · subst x
      obtain rfl : now = used := by simpa [touch] using hu
      exact .inr rfl
    · exact .inl (by simpa [touch, insert, hxt] using hu)
  | @swept x handle hb =>
    by_cases hxt : target = x
    · simp [sweep, hxt] at hu
    · exact .inl (by simpa [sweep, removeHandle, hxt] using hu)

/-- Only a packet brings a listener to an empty table. -/
theorem empty (he : l.Edit none l') (hi : Inverse l.byTarget l.byHandle)
    (hn : ∀ target, l.byTarget target = none) (target : Endpoint) :
    l'.byTarget target = none := by
  cases he with
  | kept => exact hn target
  | @replaced x handle hb | @swept x handle hb =>
    have hx := (hi x handle).mpr hb
    rw [hn] at hx
    cases hx

end Edit

end Listeners

namespace StackState

variable {R : PacketReader} {s t : StackState} {a : StackAction} {h g : ℕ}

/-- The destination that a packet of the protocol names, and the time of that use. -/
def use (s : StackState) (protocol : UInt8) : StackAction → Option (Endpoint × ℕ)
  | .packet p =>
    match ipv4ProtocolAndPort p with
    | some (q, addr, port) => if q = protocol then some (⟨addr, port⟩, s.nowMs) else none
    | none => none
  | _ => none

/-- What the steps on the sockets and the listeners leave alone. -/
structure Paused (s t : StackState) : Prop where
  phase : t.phase = s.phase
  nowMs : t.nowMs = s.nowMs
  udpNow : t.udpNow = s.udpNow
  nextListenerSweep : t.nextListenerSweep = s.nextListenerSweep
  udpFlows : t.udpFlows = s.udpFlows

theorem Framed.paused (hf : Framed s t) : Paused s t := by
  rw [hf]
  exact ⟨rfl, rfl, rfl, rfl, rfl⟩

theorem Framed.udpListeners (hf : Framed s t) : t.udpListeners = s.udpListeners := by rw [hf]

theorem framed_of_ingress {es : List PollEvent} (h' : s.ingress R es = some t) :
    ∃ u rest, Framed s u ∧ t = { u with incoming := rest } := by
  unfold ingress at h'
  split at h'
  · cases h'
  · rename_i p rest hp
    obtain ⟨u, hu, rfl⟩ := Option.map_eq_some_iff.mp h'
    exact ⟨u, rest, framed_of_receive hu, rfl⟩

theorem framed_of_serve {b : FlowAction} (h' : s.serve h b = some t) : Framed s t := by
  obtain ⟨k, f, f', hw, -⟩ := worked_of_serve h'
  exact hw.framed

theorem framed_of_reap (h' : s.reap h = some t) : Framed s t := by
  obtain ⟨u, hu, rfl⟩ := Option.map_eq_some_iff.mp h'
  have hf := framed_of_serve hu
  split_ifs
  · unfold Framed at hf ⊢
    rw [hf]
  · exact hf

theorem edits_drain (s : StackState) (p : Packet) :
    s.tcpListeners.Edit (s.use 6 (.packet p)) (s.drain p).tcpListeners ∧
      s.udpListeners.Edit (s.use 17 (.packet p)) (s.drain p).udpListeners ∧
      Paused s (s.drain p) := by
  have hkept : Paused s s := ⟨rfl, rfl, rfl, rfl, rfl⟩
  cases hip : ipv4ProtocolAndPort p with
  | none =>
    simp only [use, drain, hip]
    exact ⟨.kept, .kept, hkept⟩
  | some r =>
    obtain ⟨protocol, addr, port⟩ := r
    by_cases h6 : protocol = 6
    · obtain ⟨_, ht, -, hp⟩ | ⟨_, _, _, ht, -, hl, -⟩ := ensureTcpListener_cases s ⟨addr, port⟩
      · simp only [use, drain, hip, h6, ht, if_true]
        exact ⟨.touched hp _, .kept, rfl, rfl, rfl, rfl, rfl⟩
      · have hp : port ≠ 0 := (when_eq_some.mp hl).1
        simp only [use, drain, hip, h6, ht, if_true]
        exact ⟨.added hp _ _, .kept, rfl, rfl, rfl, rfl, rfl⟩
    by_cases h17 : protocol = 17
    · obtain ⟨_, ht, -, hp⟩ | ⟨_, _, ht, -, hp, -⟩ := ensureUdpListener_cases s ⟨addr, port⟩
      · simp only [use, drain, hip, h17, ht, if_true]
        exact ⟨.kept, .touched hp _, rfl, rfl, rfl, rfl, rfl⟩
      · simp only [use, drain, hip, h17, ht, if_true]
        exact ⟨.kept, .added hp _ _, rfl, rfl, rfl, rfl, rfl⟩
    simp only [use, drain, hip, if_neg h6, if_neg h17]
    exact ⟨.kept, .kept, hkept⟩

/-- The listener that takes the place of an accepted one is always opened: its port is one
that could be listened on before. -/
theorem edit_accept {now : ℕ} (hs : s.Owned) (hk : s.tcpListeners.Keyed)
    (h' : s.accept h now = some t) : s.tcpListeners.Edit none t.tcpListeners ∧
      t.udpListeners = s.udpListeners ∧ Paused s t := by
  unfold StackState.accept at h'
  split at h'
  · rename_i target k hb hg
    obtain ⟨-, rfl⟩ := when_eq_some.mp h'
    obtain ⟨_, ht, -, hp⟩ | ⟨_, _, _, ht, -⟩ := ensureTcpListener_cases { s with
      tcpListeners := s.tcpListeners.removeHandle h target
      tcpFlows := Function.update s.tcpFlows h (some (.started k now)) } target
    · have hport : target.port ≠ 0 := hk.port target (by simp [(hs.tcpInverse target h).mpr hb])
      simp [Listeners.removeHandle, hport] at hp
    · rw [ht]
      exact ⟨.replaced hb _, rfl, rfl, rfl, rfl, rfl, rfl⟩
  · cases h'

/-- The tables of listeners over a step. -/
theorem edits_step (hs : s.Owned) (hk : s.tcpListeners.Keyed) (h' : s.step R a = some t) :
    s.tcpListeners.Edit (s.use 6 a) t.tcpListeners ∧
      s.udpListeners.Edit (s.use 17 a) t.udpListeners := by
  have hframed {u : StackState} (hf : Framed s u) : s.tcpListeners.Edit none u.tcpListeners ∧
      s.udpListeners.Edit none u.udpListeners := by
    rw [hf.tcpListeners, hf.udpListeners]
    exact ⟨.kept, .kept⟩
  cases a with
  | wake | stop | endDrain | endAccept | endServe | endReap | endRelay | reapUdp | endExpire
  | endSweep | serveUdp =>
    obtain ⟨-, rfl⟩ := when_eq_some.mp h'
    exact ⟨.kept, .kept⟩
  | packet p =>
    obtain ⟨-, rfl⟩ := when_eq_some.mp h'
    have hd := edits_drain s p
    exact ⟨hd.1, hd.2.1⟩
  | ingress es =>
    simp only [StackState.step] at h'
    split_ifs at h'
    obtain ⟨u, rest, hf, rfl⟩ := framed_of_ingress h'
    have he := hframed hf
    exact he
  | egress h e =>
    simp only [StackState.step] at h'
    split_ifs at h'
    obtain ⟨k, k', hw, -⟩ := worked_of_poll h'
    exact hframed hw.framed
  | endPoll =>
    simp only [StackState.step] at h'
    split_ifs at h'
    all_goals obtain ⟨-, rfl⟩ := when_eq_some.mp h'
    all_goals exact ⟨.kept, .kept⟩
  | accept h now =>
    simp only [StackState.step] at h'
    split_ifs at h'
    obtain ⟨he, hu, -⟩ := edit_accept hs hk h'
    exact ⟨he, hu ▸ .kept⟩
  | serve h b =>
    simp only [StackState.step] at h'
    split_ifs at h'
    exact hframed (framed_of_serve h')
  | reap h =>
    simp only [StackState.step] at h'
    split_ifs at h'
    exact hframed (framed_of_reap h')
  | datagram key =>
    obtain ⟨-, rfl⟩ := when_eq_some.mp h'
    unfold datagram
    split_ifs
    all_goals exact ⟨.kept, .kept⟩
  | sweepTcp h =>
    obtain ⟨-, rfl⟩ := when_eq_some.mp h'
    unfold sweepTcp
    split
    · rename_i target hb
      exact ⟨.swept hb, .kept⟩
    · exact ⟨.kept, .kept⟩
  | sweepUdp h =>
    obtain ⟨-, rfl⟩ := when_eq_some.mp h'
    unfold sweepUdp
    split
    · rename_i target hb
      exact ⟨.kept, .swept hb⟩
    · exact ⟨.kept, .kept⟩

end StackState

/-- What a run of the loop has seen of its traffic: a TCP or UDP packet to port 0, and the
clock when something last came in. -/
structure Seen where
  portZero : Bool
  lastTraffic : ℕ

namespace Seen

def nothing : Seen := ⟨false, 0⟩

def record (o : Seen) (s : StackState) (a : StackAction) : Seen where
  portZero := o.portZero || (s.use 6 a).any (·.1.port = 0) || (s.use 17 a).any (·.1.port = 0)
  lastTraffic := match a with
    | .packet _ => s.nowMs
    | .datagram _ | .serveUdp _ true _ => s.udpNow
    | _ => o.lastTraffic

end Seen

/-- The stack loop with what it has seen. -/
abbrev seenSystem (R : PacketReader) : System (StackState × Seen) StackAction :=
  (stackSystem R).observe Seen.nothing Seen.record

namespace StackState

variable {R : PacketReader} {s t : StackState} {a : StackAction} {h : ℕ} {o : Seen}

/-- The times of use that no listener has are those of packets to port 0. -/
structure Kept (s : StackState) (o : Seen) : Prop where
  owned : s.Owned
  tcp : s.tcpListeners.Keyed
  udp : s.udpListeners.Keyed
  stray : s.tcpListeners.Stray ∨ s.udpListeners.Stray ↔ o.portZero

theorem kept_initial (now : ℕ) : (initial now).Kept .nothing where
  owned := owned_initial now
  tcp := ⟨by simp [initial, Listeners.empty], by simp [initial, Listeners.empty]⟩
  udp := ⟨by simp [initial, Listeners.empty], by simp [initial, Listeners.empty]⟩
  stray := by simp [Listeners.Stray, initial, Listeners.empty, Seen.nothing]

theorem Kept.step (hs : s.Kept o) (h' : s.step R a = some t) : t.Kept (o.record s a) := by
  obtain ⟨htcp, hudp⟩ := edits_step hs.owned hs.tcp h'
  refine ⟨hs.owned.step h', htcp.keyed hs.owned.tcpInverse hs.tcp,
    hudp.keyed hs.owned.udpInverse hs.udp, ?_⟩
  rw [htcp.stray_iff hs.owned.tcpInverse hs.tcp, hudp.stray_iff hs.owned.udpInverse hs.udp]
  have hany (q : UInt8) : (∃ u, s.use q a = some u ∧ u.1.port = 0) ↔
      (s.use q a).any (·.1.port = 0) := by
    cases s.use q a <;> simp
  have hzero : (o.record s a).portZero ↔ (o.portZero ∨ (s.use 6 a).any (·.1.port = 0)) ∨
      (s.use 17 a).any (·.1.port = 0) := by
    show (_ || _ || _) = true ↔ _
    rw [Bool.or_eq_true, Bool.or_eq_true]
  rw [hany, hany, hzero, ← hs.stray]
  tauto

theorem kept_of_reachable {p : StackState × Seen} (hp : (seenSystem R).Reachable p) :
    p.1.Kept p.2 := by
  refine hp.invariant (I := fun q => q.1.Kept q.2) ?_ ?_
  · rintro ⟨s, o⟩ ⟨⟨now, rfl⟩, rfl⟩
    exact kept_initial now
  · intro p a q _ hk _ hq
    obtain ⟨hstep, hseen⟩ := System.observe_step.mp hq
    rw [hseen]
    exact hk.step hstep

/-- One packet to port 0 leaves a time of use for good. -/
theorem listed_iff {p : StackState × Seen} (hp : (seenSystem R).Reachable p) :
    p.1.tcpListeners.Listed ∧ p.1.udpListeners.Listed ↔ ¬ p.2.portZero := by
  have hk := kept_of_reachable hp
  rw [hk.tcp.listed_iff, hk.udp.listed_iff, ← hk.stray, not_or]

/-- The packet is of TCP or UDP and does not name a port, or it names port 0. -/
def namesPortZero (p : Packet) : Bool :=
  (ipv4ProtocolAndPort p).any fun (protocol, _, port) =>
    (protocol = 6 || protocol = 17) && port = 0

/-- The packets that the loop is given have a port, and its clock does not run back. -/
def Regular (s : StackState) : StackAction → Prop
  | .packet p => ¬ namesPortZero p
  | .wake now => s.nowMs ≤ now ∧ s.udpNow ≤ now
  | .endReap now => s.nowMs ≤ now
  | _ => True

theorem Kept.record_portZero (hr : s.Regular a) (ho : ¬ o.portZero) :
    ¬ (o.record s a).portZero := by
  have hnone (q : UInt8) (hq : q = 6 ∨ q = 17) : (s.use q a).any (·.1.port = 0) = false := by
    cases a with
    | packet p =>
      have hn : ¬ namesPortZero p := hr
      cases hip : ipv4ProtocolAndPort p with
      | none => simp [use, hip]
      | some r =>
        obtain ⟨protocol, addr, port⟩ := r
        by_cases hpq : protocol = q
        · have hport : port ≠ 0 := by
            simpa [namesPortZero, hip, hpq, hq] using hn
          simp [use, hip, hpq, hport]
        · simp [use, hip, hpq]
    | _ => rfl
  show ¬ (_ || _ || _) = true
  rw [hnone 6 (.inl rfl), hnone 17 (.inr rfl)]
  simpa using ho

/-- The clocks of a loop whose last traffic came at time `g`, and what is left in its tables:
nothing, once a sweep has come late enough. -/
structure Timed (s : StackState) (g : ℕ) : Prop where
  used : ∀ target u, s.tcpListeners.lastUsed target = some u ∨
    s.udpListeners.lastUsed target = some u → u ≤ g
  active : ∀ q ∈ s.udpFlows, q.2.lastActivity ≤ g
  early : s.phase.early → s.udpNow ≤ s.nowMs ∧ g ≤ s.nowMs
  late : ¬ s.phase.early → s.nowMs ≤ s.udpNow ∧ g ≤ s.udpNow
  due : s.nextListenerSweep ≤ s.nowMs + listenerSweepIntervalMs
  quiet : s.phase ≠ .sweeping →
    g + listenerIdleTimeoutMs + listenerSweepIntervalMs ≤ s.nextListenerSweep →
    (∀ target, s.tcpListeners.byTarget target = none) ∧
      ∀ target, s.udpListeners.byTarget target = none
  expired : s.phase = .repolling ∨ s.phase = .sweeping → ∀ q ∈ s.udpFlows,
    ¬ udpFlowExpired q.2.closed q.2.lastActivity s.udpNow
  sweeping : s.phase = .sweeping → s.nextListenerSweep = s.nowMs + listenerSweepIntervalMs
  waiting : s.phase = .waiting → s.nowMs ≤ s.nextListenerSweep

theorem timed_initial (now : ℕ) : (initial now).Timed 0 where
  used _ _ h := by simp [initial, Listeners.empty] at h
  active _ h := absurd h List.not_mem_nil
  early h := by cases h
  late _ := ⟨le_rfl, Nat.zero_le _⟩
  due := le_rfl
  quiet _ _ := ⟨fun _ => rfl, fun _ => rfl⟩
  expired _ _ h := absurd h List.not_mem_nil
  sweeping h := by cases h
  waiting _ := Nat.le_add_right _ _

theorem idle_of_used {l : Listeners} {target : Endpoint} {g now : ℕ}
    (hu : ∀ u, l.lastUsed target = some u → u ≤ g) (hg : g + listenerIdleTimeoutMs ≤ now) :
    l.idle target now := by
  unfold Listeners.idle
  cases hl : l.lastUsed target with
  | none => rfl
  | some u =>
    have hle := hu u hl
    simp only [Option.elim_some, decide_eq_true_eq]
    omega

namespace Timed

variable {g : ℕ}

theorem expired_flow (ht : s.Timed g) (hg : g + listenerIdleTimeoutMs ≤ s.udpNow)
    {q : UdpKey × UdpFlow} (hq : q ∈ s.udpFlows) :
    udpFlowExpired q.2.closed q.2.lastActivity s.udpNow := by
  have hle := ht.active q hq
  have hT : udpFlowIdleTimeoutMs ≤ s.udpNow - q.2.lastActivity := by
    unfold listenerIdleTimeoutMs at hg
    unfold udpFlowIdleTimeoutMs
    omega
  simp [udpFlowExpired, hT]

/-- A sweep that comes late enough leaves no listener. -/
theorem swept (ht : s.Timed g) (hl : s.Listening) (hp : s.phase = .sweeping)
    (hn : ∀ h < s.sockets.length, ¬ s.staleTcp h ∧ ¬ s.staleUdp h)
    (hg : g + listenerIdleTimeoutMs + listenerSweepIntervalMs ≤ s.nextListenerSweep) :
    (∀ target, s.tcpListeners.byTarget target = none) ∧
      ∀ target, s.udpListeners.byTarget target = none := by
  have hown := hl.owned
  have hnow : g + listenerIdleTimeoutMs ≤ s.nowMs := by
    have hnext := ht.sweeping hp
    omega
  have hudpNow : s.nowMs ≤ s.udpNow := (ht.late (by simp [hp, StackPhase.early])).1
  constructor
  · intro target
    by_contra hne
    obtain ⟨h, hb⟩ := Option.ne_none_iff_exists'.mp hne
    have hh := (hown.tcpInverse target h).mp hb
    obtain ⟨k, hk, -⟩ := hown.tcpListener h target hh
    have hlisten := listen_of_listenerSocket (hl.listener h target k hh hk) (by simp [hp])
      (by simp [hp])
    have hidle := idle_of_used (fun u hu => ht.used target u (.inl hu)) hnow
    have hstale : s.staleTcp h := by
      simp [staleTcp, hh, hidle, tcpSocket_eq_some.mpr hk, hlisten]
    exact (hn h (Slots.lt_length_of_get hk)).1 hstale
  · intro target
    by_contra hne
    obtain ⟨h, hb⟩ := Option.ne_none_iff_exists'.mp hne
    have hh := (hown.udpInverse target h).mp hb
    have hk := hown.udpListener h target hh
    have hidle := idle_of_used (fun u hu => ht.used target u (.inr hu)) hnow
    have hflows : s.udpFlows = [] := by
      by_contra hf
      obtain ⟨q, hq⟩ := List.exists_mem_of_ne_nil _ hf
      exact ht.expired (.inr hp) q hq (ht.expired_flow (by omega) hq)
    have hstale : s.staleUdp h := by
      simp [staleUdp, hh, hidle, hflows]
    exact (hn h (Slots.lt_length_of_get hk)).2 hstale

/-- The sockets and the tables change, and no packet comes in. -/
theorem paused (ht : s.Timed g) (hs : s.Owned) (hp : Paused s t)
    (htcp : s.tcpListeners.Edit none t.tcpListeners)
    (hudp : s.udpListeners.Edit none t.udpListeners) : t.Timed g := by
  obtain ⟨hphase, hnow, hudpNow, hnext, hflows⟩ := hp
  constructor
  · intro target u hu
    refine ht.used target u (hu.imp (fun h => ?_) fun h => ?_)
    · exact (htcp.lastUsed h).resolve_right (by simp)
    · exact (hudp.lastUsed h).resolve_right (by simp)
  · simpa only [hflows] using ht.active
  · simpa only [hphase, hudpNow, hnow] using ht.early
  · simpa only [hphase, hudpNow, hnow] using ht.late
  · simpa only [hnow, hnext] using ht.due
  · rw [hphase, hnext]
    intro hne hg
    obtain ⟨h₁, h₂⟩ := ht.quiet hne hg
    exact ⟨htcp.empty hs.tcpInverse h₁, hudp.empty hs.udpInverse h₂⟩
  · simpa only [hphase, hflows, hudpNow] using ht.expired
  · simpa only [hphase, hnext, hnow] using ht.sweeping
  · simpa only [hphase, hnext, hnow] using ht.waiting

/-- Traffic at the time that the loop goes by puts off the sweep that ends everything. -/
theorem not_due (ht : s.Timed g) {now : ℕ} (hn : s.nowMs ≤ now) :
    ¬ now + listenerIdleTimeoutMs + listenerSweepIntervalMs ≤ s.nextListenerSweep := by
  have hdue := ht.due
  unfold listenerIdleTimeoutMs
  omega

theorem drain (ht : s.Timed g) (hp : s.phase = .draining) (p : Packet) :
    (s.drain p).Timed s.nowMs := by
  obtain ⟨htcp, hudp, hphase, hnow, hudpNow, hnext, hflows⟩ := edits_drain s p
  have hearly : s.phase.early := by simp [hp, StackPhase.early]
  have hg := ht.early hearly
  have huse (q : UInt8) {target : Endpoint} {u : ℕ} (hu : s.use q (.packet p) = some (target, u)) :
      u = s.nowMs := by
    cases hip : ipv4ProtocolAndPort p with
    | none => simp [use, hip] at hu
    | some r =>
      simp only [use, hip] at hu
      split_ifs at hu
      exact (congrArg Prod.snd (Option.some.inj hu)).symm
  constructor
  · intro target u hu
    obtain hu | hu := hu
    · obtain hold | hnew := htcp.lastUsed hu
      · exact (ht.used target u (.inl hold)).trans hg.2
      · exact (huse 6 hnew).le
    · obtain hold | hnew := hudp.lastUsed hu
      · exact (ht.used target u (.inr hold)).trans hg.2
      · exact (huse 17 hnew).le
  · rw [hflows]
    exact fun q hq => (ht.active q hq).trans hg.2
  · rw [hudpNow, hnow]
    exact fun _ => ⟨hg.1, le_rfl⟩
  · rw [hphase]
    exact fun hlate => absurd hearly hlate
  · simpa only [hnow, hnext] using ht.due
  · rw [hnext]
    exact fun _ hdue => absurd hdue (ht.not_due le_rfl)
  all_goals
    rw [hphase, hp]
    simp

/-- What comes in at a UDP flow comes in at the clock of `process_udp`. -/
theorem relay (ht : s.Timed g) (hp : s.phase = .relaying) {flows : List (UdpKey × UdpFlow)}
    (hf : ∀ q ∈ flows, q.2.lastActivity ≤ s.udpNow) :
    { s with udpFlows := flows }.Timed s.udpNow := by
  obtain ⟨hnow, hg⟩ := ht.late (by simp [hp, StackPhase.early])
  constructor
  · exact fun target u hu => (ht.used target u hu).trans hg
  · exact hf
  · simp [hp, StackPhase.early]
  · exact fun _ => ⟨hnow, le_rfl⟩
  · exact ht.due
  · exact fun _ hdue => absurd hdue (ht.not_due hnow)
  all_goals simp [hp]

theorem datagram (ht : s.Timed g) (hp : s.phase = .relaying) (key : UdpKey) :
    (s.datagram key).Timed s.udpNow := by
  have hg : g ≤ s.udpNow := (ht.late (by simp [hp, StackPhase.early])).2
  have hold (q : UdpKey × UdpFlow) (hq : q ∈ s.udpFlows) : q.2.lastActivity ≤ s.udpNow :=
    (ht.active q hq).trans hg
  unfold StackState.datagram
  split_ifs
  · refine ht.relay hp fun q hq => ?_
    obtain ⟨q₀, hq₀, rfl⟩ := List.mem_map.mp hq
    split_ifs
    · exact le_rfl
    · exact hold q₀ hq₀
  · refine ht.relay hp fun q hq => ?_
    obtain hq | hq := List.mem_append.mp hq
    · exact hold q hq
    · obtain rfl := List.mem_singleton.mp hq
      exact le_rfl
  · exact ht.relay hp hold

theorem serveUdp_active (ht : s.Timed g) (hp : s.phase = .relaying) (key : UdpKey)
    (closed : Bool) : (s.serveUdp key true closed).Timed s.udpNow := by
  have hg : g ≤ s.udpNow := (ht.late (by simp [hp, StackPhase.early])).2
  refine ht.relay hp fun q hq => ?_
  obtain ⟨q₀, hq₀, rfl⟩ := List.mem_map.mp hq
  by_cases hkey : q₀.1 = key
  · simp [hkey]
  · simpa [hkey] using (ht.active q₀ hq₀).trans hg

/-- Flows that go, or that only close, do not keep the tables any longer. -/
theorem setUdpFlows (ht : s.Timed g) {flows : List (UdpKey × UdpFlow)}
    (hp : s.phase ≠ .repolling ∧ s.phase ≠ .sweeping)
    (hf : ∀ q ∈ flows, ∃ q₀ ∈ s.udpFlows, q.2.lastActivity = q₀.2.lastActivity) :
    { s with udpFlows := flows }.Timed g := { ht with
  active := fun q hq => by
    obtain ⟨q₀, hq₀, heq⟩ := hf q hq
    exact heq ▸ ht.active q₀ hq₀
  expired := fun hph => absurd hph (by simp [hp]) }

theorem endPoll (ht : s.Timed g) (h' : s.step R .endPoll = some t) : t.Timed g := by
  simp only [StackState.step] at h'
  split_ifs at h' with hp hdue
  · obtain ⟨-, rfl⟩ := when_eq_some.mp h'
    have hg := ht.early (by simp [hp, StackPhase.early])
    exact { ht with
      early := fun _ => hg
      late := fun hl => absurd rfl hl
      quiet := fun _ => ht.quiet (by simp [hp])
      expired := by simp
      sweeping := by simp
      waiting := by simp }
  · obtain ⟨hp, rfl⟩ := when_eq_some.mp h'
    have hg := ht.late (by simp [hp, StackPhase.early])
    exact { ht with
      early := by simp [StackPhase.early]
      late := fun _ => hg
      due := le_rfl
      quiet := fun hne => absurd rfl hne
      expired := fun _ => ht.expired (.inl hp)
      sweeping := fun _ => rfl
      waiting := by simp }
  · obtain ⟨hp, rfl⟩ := when_eq_some.mp h'
    have hg := ht.late (by simp [hp, StackPhase.early])
    exact { ht with
      early := by simp [StackPhase.early]
      late := fun _ => hg
      quiet := fun _ => ht.quiet (by simp [hp])
      expired := by simp
      sweeping := by simp
      waiting := fun _ => (Nat.lt_of_not_le hdue).le }

/-- The phases that follow one another with the clock as it is. -/
theorem move (ht : s.Timed g) {phase : StackPhase} (hp : phase.early = s.phase.early)
    (hs : s.phase ≠ .sweeping)
    (hn : phase ≠ .repolling ∧ phase ≠ .sweeping ∧ phase ≠ .waiting) :
    { s with phase := phase }.Timed g := { ht with
  early := fun h => ht.early (hp ▸ h)
  late := fun h => ht.late (hp ▸ h)
  quiet := fun _ => ht.quiet hs
  expired := by simp [hn]
  sweeping := by simp [hn]
  waiting := by simp [hn] }

theorem step (ht : s.Timed o.lastTraffic) (hl : s.Listening) (hk : s.tcpListeners.Keyed)
    (hr : s.Regular a) (h' : s.step R a = some t) : t.Timed (o.record s a).lastTraffic := by
  have hedits := edits_step hl.owned hk h'
  cases a with
  | wake now =>
    obtain ⟨hp, rfl⟩ := when_eq_some.mp h'
    obtain ⟨hnow, hudp⟩ := hr
    have hg := ht.late (by simp [hp, StackPhase.early])
    exact { ht with
      early := fun _ => ⟨hudp, hg.2.trans hudp⟩
      late := fun hlate => absurd rfl hlate
      due := ht.due.trans (Nat.add_le_add_right hnow _)
      quiet := fun _ => ht.quiet (by simp [hp])
      expired := by simp
      sweeping := by simp
      waiting := by simp }
  | stop =>
    obtain ⟨hp, rfl⟩ := when_eq_some.mp h'
    have hmoved : { s with phase := .stopped }.Timed o.lastTraffic :=
      ht.move (by simp [hp, StackPhase.early]) (by simp [hp]) (by simp)
    refine { hmoved with active := fun q hq => ?_, expired := by simp [StackState.stop] }
    obtain ⟨q₀, hq₀, rfl⟩ := List.mem_map.mp hq
    exact ht.active q₀ hq₀
  | packet p =>
    obtain ⟨hp, rfl⟩ := when_eq_some.mp h'
    exact ht.drain hp p
  | endDrain | endRelay =>
    obtain ⟨hp, rfl⟩ := when_eq_some.mp h'
    exact ht.move (by simp [hp, StackPhase.early]) (by simp [hp]) (by simp)
  | endAccept | endServe =>
    obtain ⟨⟨hp, -⟩, rfl⟩ := when_eq_some.mp h'
    exact ht.move (by simp [hp, StackPhase.early]) (by simp [hp]) (by simp)
  | ingress es =>
    simp only [StackState.step] at h'
    split_ifs at h'
    obtain ⟨u, rest, hf, rfl⟩ := framed_of_ingress h'
    obtain ⟨h₁, h₂, h₃, h₄, h₅⟩ := hf.paused
    exact ht.paused hl.owned ⟨h₁, h₂, h₃, h₄, h₅⟩ hedits.1 hedits.2
  | egress h e =>
    simp only [StackState.step] at h'
    split_ifs at h'
    obtain ⟨k, k', hw, -⟩ := worked_of_poll h'
    exact ht.paused hl.owned hw.framed.paused hedits.1 hedits.2
  | endPoll => exact ht.endPoll h'
  | accept h now =>
    simp only [StackState.step] at h'
    split_ifs at h'
    exact ht.paused hl.owned (edit_accept hl.owned hk h').2.2 hedits.1 hedits.2
  | serve h b =>
    simp only [StackState.step] at h'
    split_ifs at h'
    exact ht.paused hl.owned (framed_of_serve h').paused hedits.1 hedits.2
  | reap h =>
    simp only [StackState.step] at h'
    split_ifs at h'
    exact ht.paused hl.owned (framed_of_reap h').paused hedits.1 hedits.2
  | endReap now =>
    obtain ⟨⟨hp, -⟩, rfl⟩ := when_eq_some.mp h'
    have hnow : s.nowMs ≤ now := hr
    have hg := ht.early (by simp [hp, StackPhase.early])
    exact { ht with
      early := by simp [StackPhase.early]
      late := fun _ => ⟨hnow, hg.2.trans hnow⟩
      quiet := fun _ => ht.quiet (by simp [hp])
      expired := by simp
      sweeping := by simp
      waiting := by simp }
  | datagram key =>
    obtain ⟨⟨hp, -⟩, rfl⟩ := when_eq_some.mp h'
    exact ht.datagram hp key
  | serveUdp key active closed =>
    obtain ⟨⟨hp, -⟩, rfl⟩ := when_eq_some.mp h'
    cases active with
    | true => exact ht.serveUdp_active hp key closed
    | false =>
      refine ht.setUdpFlows (by simp [hp]) fun q hq => ?_
      obtain ⟨q₀, hq₀, rfl⟩ := List.mem_map.mp hq
      refine ⟨q₀, hq₀, ?_⟩
      by_cases hkey : q₀.1 = key
      all_goals simp [hkey]
  | reapUdp key =>
    obtain ⟨⟨hp, -⟩, rfl⟩ := when_eq_some.mp h'
    exact ht.setUdpFlows (by simp [hp]) fun q hq => ⟨q, List.mem_of_mem_filter hq, rfl⟩
  | endExpire =>
    obtain ⟨⟨hp, hn⟩, rfl⟩ := when_eq_some.mp h'
    have hg := ht.late (by simp [hp, StackPhase.early])
    exact { ht with
      early := by simp [StackPhase.early]
      late := fun _ => hg
      quiet := fun _ => ht.quiet (by simp [hp])
      expired := fun _ q hq hexp => hn q hq (List.any_eq_true.mpr ⟨q, hq, by simp [hexp]⟩)
      sweeping := by simp
      waiting := by simp }
  | sweepTcp h =>
    obtain ⟨-, rfl⟩ := when_eq_some.mp h'
    refine ht.paused hl.owned ?_ hedits.1 hedits.2
    unfold StackState.sweepTcp
    split
    all_goals exact ⟨rfl, rfl, rfl, rfl, rfl⟩
  | sweepUdp h =>
    obtain ⟨-, rfl⟩ := when_eq_some.mp h'
    refine ht.paused hl.owned ?_ hedits.1 hedits.2
    unfold StackState.sweepUdp
    split
    all_goals exact ⟨rfl, rfl, rfl, rfl, rfl⟩
  | endSweep =>
    obtain ⟨⟨hp, hn⟩, rfl⟩ := when_eq_some.mp h'
    have hg := ht.late (by simp [hp, StackPhase.early])
    have hnext := ht.sweeping hp
    exact { ht with
      early := by simp [StackPhase.early]
      late := fun _ => hg
      quiet := fun _ => ht.swept hl hp hn
      expired := by simp
      sweeping := by simp
      waiting := fun _ => hnext ▸ Nat.le_add_right _ _ }

end Timed

theorem timed_of_regular {p : StackState × Seen}
    (hp : (seenSystem R).ReachUnder (fun q a => q.1.Regular a) p) :
    p.1.Listening ∧ p.1.Kept p.2 ∧ ¬ p.2.portZero ∧ p.1.Timed p.2.lastTraffic := by
  refine hp.invariant (I := fun q => q.1.Listening ∧ q.1.Kept q.2 ∧ ¬ q.2.portZero ∧
    q.1.Timed q.2.lastTraffic) ?_ ?_
  · rintro ⟨s, o⟩ ⟨⟨now, rfl⟩, rfl⟩
    exact ⟨listening_initial now, kept_initial now, Bool.false_ne_true, timed_initial now⟩
  · intro p a q _ hi hr hq
    obtain ⟨hl, hk, hz, ht⟩ := hi
    obtain ⟨hstep, hseen⟩ := System.observe_step.mp hq
    rw [hseen]
    exact ⟨hl.step hstep, hk.step hstep, Kept.record_portZero hr hz, ht.step hl hk.tcp hr hstep⟩

/-- A connection to the destination. -/
def TcpLive (s : StackState) (target : Endpoint) : Prop :=
  ∃ h f k, s.tcpFlows h = some f ∧ s.tcpSocket h = some k ∧ k.listenEndpoint = target

/-- A UDP flow to the destination. -/
def UdpLive (s : StackState) (target : Endpoint) : Prop :=
  ∃ q ∈ s.udpFlows, s.udpListeners.byHandle q.1.handle = some target

/-- What is in the tables is still of use. -/
def OnlyNeeded (s : StackState) : Prop :=
  (∀ target, s.tcpListeners.Mentions target →
    s.TcpLive target ∨ s.tcpListeners.Busy target s.nowMs) ∧
  ∀ target, s.udpListeners.Mentions target →
    s.UdpLive target ∨ s.udpListeners.Busy target s.nowMs

theorem not_mentions {l : Listeners} (hi : Inverse l.byTarget l.byHandle) (hl : l.Listed)
    (hn : ∀ target, l.byTarget target = none) (target : Endpoint) : ¬ l.Mentions target := by
  rintro (h | ⟨handle, h⟩ | h)
  · simp [hn] at h
  · have hb := (hi target handle).mpr h
    simp [hn] at hb
  · have hb := hl target h
    simp [hn] at hb

/-- The tables of a loop that has had no traffic for long enough. -/
theorem nothing_mentioned {p : StackState × Seen}
    (hp : (seenSystem R).ReachUnder (fun q a => q.1.Regular a) p) (hw : p.1.phase = .waiting)
    (hq : p.2.lastTraffic + listenerIdleTimeoutMs + listenerSweepIntervalMs ≤ p.1.nowMs)
    (target : Endpoint) :
    ¬ p.1.tcpListeners.Mentions target ∧ ¬ p.1.udpListeners.Mentions target := by
  obtain ⟨-, hk, hz, ht⟩ := timed_of_regular hp
  obtain ⟨htcp, hudp⟩ := (listed_iff hp.reachable).mpr hz
  obtain ⟨htn, hun⟩ := ht.quiet (by simp [hw]) (hq.trans (ht.waiting hw))
  exact ⟨not_mentions hk.owned.tcpInverse htcp htn target,
    not_mentions hk.owned.udpInverse hudp hun target⟩

/-- While no packet names port 0 and the clock does not run back, every time of use belongs to
a listener, and what has not been of use for long enough is gone. -/
theorem listed_and_onlyNeeded {p : StackState × Seen}
    (hp : (seenSystem R).ReachUnder (fun q a => q.1.Regular a) p) (hw : p.1.phase = .waiting) :
    (p.1.tcpListeners.Listed ∧ p.1.udpListeners.Listed) ∧
      (p.2.lastTraffic + listenerIdleTimeoutMs + listenerSweepIntervalMs ≤ p.1.nowMs →
        p.1.OnlyNeeded) := by
  obtain ⟨-, -, hz, -⟩ := timed_of_regular hp
  refine ⟨(listed_iff hp.reachable).mpr hz, fun hq => ⟨fun target hm => ?_, fun target hm => ?_⟩⟩
  · exact absurd hm (nothing_mentioned hp hw hq target).1
  · exact absurd hm (nothing_mentioned hp hw hq target).2

instance (s : StackState) (a : StackAction) : Decidable (s.Regular a) := by
  rcases a with ⟨⟩
  all_goals
    unfold Regular
    infer_instance

/-- An iteration that is given packets, at a time that it reads twice. -/
def iteration (now : ℕ) (packets : List Packet) (sweeps : List StackAction) : List StackAction :=
  StackAction.wake now :: packets.map StackAction.packet ++
    StackAction.endDrain :: packets.map (fun _ => StackAction.ingress []) ++
    [StackAction.endPoll, .endAccept, .endServe, .endReap now, .endRelay, .endExpire, .endPoll] ++
    sweeps

/-- A DNS query from 10.8.0.2 to 198.51.100.1, without its payload. -/
def dnsPacket : Packet :=
  [69, 0, 0, 28, 0, 0, 64, 0, 64, 17, 0, 0, 10, 8, 0, 2, 198, 51, 100, 1, 195, 81, 0, 53,
    0, 8, 0, 0]

theorem listed_after_query : ∃ p, (seenSystem .plain).ReachUnder (fun q a => q.1.Regular a) p ∧
    p.1.phase = .waiting ∧ p.2.lastTraffic = 0 ∧ p.1.nowMs = 330000 ∧
    (p.1.tcpListeners.Listed ∧ p.1.udpListeners.Listed) ∧ p.1.OnlyNeeded := by
  have h0 : (seenSystem .plain).ReachUnder (fun q a => q.1.Regular a) (initial 0, .nothing) :=
    .init ⟨⟨0, rfl⟩, rfl⟩
  have hr := h0.run
    (iteration 0 [dnsPacket] [] ++ iteration 330000 [] [.sweepUdp 0, .endSweep])
    (by decide +kernel) rfl
  obtain ⟨hl, hn⟩ := listed_and_onlyNeeded hr rfl
  exact ⟨_, hr, rfl, rfl, rfl, hl, hn (by decide)⟩

/-- A SYN to port 0 of 198.19.0.2, an address that stands for a domain. -/
def synToPortZero : Packet :=
  [69, 0, 0, 40, 0, 0, 64, 0, 64, 6, 106, 177, 10, 8, 0, 2, 198, 19, 0, 2, 195, 81, 0, 0,
    0, 0, 0, 1, 0, 0, 0, 0, 80, 2, 255, 255, 28, 113, 0, 0]

theorem unlisted_after_syn : ∃ p, (seenSystem .plain).Reachable p ∧ p.1.phase = .waiting ∧
    ¬ p.1.tcpListeners.Listed ∧
    p.2.lastTraffic + listenerIdleTimeoutMs + listenerSweepIntervalMs ≤ p.1.nowMs ∧
    ¬ p.1.OnlyNeeded := by
  have h0 : (seenSystem .plain).Reachable (initial 0, .nothing) := .init ⟨⟨0, rfl⟩, rfl⟩
  have hr := h0.run (iteration 0 [synToPortZero] [] ++ iteration 330000 [] [.endSweep]) rfl
  refine ⟨_, hr, rfl, fun hl => ?_, by decide, fun hn => ?_⟩
  · exact Bool.false_ne_true (hl ⟨.ofOctets 198 19 0 2, 0⟩ rfl)
  · obtain ⟨h, f, k, hf, -⟩ | ⟨hb, -⟩ := hn.1 ⟨.ofOctets 198 19 0 2, 0⟩ (.inr (.inr rfl))
    · cases hf
    · exact Bool.false_ne_true hb

end StackState

end NulConnect.TunStack
