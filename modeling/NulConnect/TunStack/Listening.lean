import NulConnect.TunStack.Ownership

/-! The states of the sockets over an iteration: a listener waits for a SYN outside of the
poll and of what follows it in `process_tcp`, and no flow that outlives the pass listens. -/
namespace NulConnect.TunStack
open Transition

namespace Socket

variable {k k' : Socket} {e : PollEvent}

/-- No connection, or one whose handshake is not over. -/
def opening (k : Socket) : Bool := k.state = .listen || k.state = .synReceived

/-- Only a SYN takes a socket out of listening. -/
theorem poll_listen (h : k.poll e = some k') (he : ∀ source, e ≠ .syn source)
    (hk : k.state = .listen) : k'.state = .listen := by
  cases e with
  | syn source => exact absurd rfl (he source)
  | ack n =>
    obtain ⟨-, rfl⟩ := when_eq_some.mp h
    exact hk
  | handshake | data | finAck | fin | rst | expire | transmitSynAck | transmit | transmitFin
  | transmitRst =>
    obtain ⟨hg, -⟩ := when_eq_some.mp h
    simp [hk, TcpState.receives, TcpState.finQueued, TcpState.afterFin, TcpState.transmits] at hg

/-- Only a RST in the handshake brings a socket back to listening. -/
theorem poll_to_listen (h : k.poll e = some k') (hk : k'.state = .listen) :
    k.state = .listen ∨ k.state = .synReceived ∧ e = .rst := by
  cases e with
  | rst =>
    obtain ⟨-, rfl⟩ := when_eq_some.mp h
    dsimp only at hk
    split_ifs at hk with hs
    exact .inr ⟨hs, rfl⟩
  | finAck =>
    obtain ⟨⟨hq, -⟩, rfl⟩ := when_eq_some.mp h
    cases hs : k.state <;> simp [hs, TcpState.finQueued, TcpState.afterFinAck] at hq hk
  | fin =>
    obtain ⟨⟨hf, -⟩, rfl⟩ := when_eq_some.mp h
    cases hs : k.state <;> simp [hs, TcpState.afterFin] at hf hk
  | syn | handshake | data | ack | expire | transmitSynAck | transmit | transmitFin
  | transmitRst =>
    obtain ⟨-, rfl⟩ := when_eq_some.mp h
    first
    | exact .inl hk
    | cases hk

theorem poll_to_synReceived (h : k.poll e = some k') (he : ∀ source, e ≠ .syn source)
    (hk : k'.state = .synReceived) : k.state = .synReceived := by
  cases e with
  | syn source => exact absurd rfl (he source)
  | rst =>
    obtain ⟨-, rfl⟩ := when_eq_some.mp h
    dsimp only at hk
    split_ifs at hk
  | finAck =>
    obtain ⟨⟨hq, -⟩, rfl⟩ := when_eq_some.mp h
    cases hs : k.state <;> simp [hs, TcpState.finQueued, TcpState.afterFinAck] at hq hk
  | fin =>
    obtain ⟨⟨hf, -⟩, rfl⟩ := when_eq_some.mp h
    cases hs : k.state <;> simp [hs, TcpState.afterFin] at hf hk
  | handshake | data | ack | expire | transmitSynAck | transmit | transmitFin | transmitRst =>
    obtain ⟨-, rfl⟩ := when_eq_some.mp h
    first
    | exact hk
    | cases hk

/-- A handshake that the app cannot answer yet, or that only sends, goes on unless it is
reset. -/
theorem poll_synReceived (h : k.poll e = some k') (hk : k.state = .synReceived)
    (he : e.egress ∨ ¬ k.synAckSent) :
    k'.state = .synReceived ∧ k'.tuple = k.tuple ∧
      (¬ e.egress → k'.synAckSent = k.synAckSent) ∨ k'.state = .listen ∧ e = .rst := by
  cases e with
  | rst =>
    obtain ⟨-, rfl⟩ := when_eq_some.mp h
    exact .inr ⟨by simp [hk], rfl⟩
  | ack n =>
    obtain ⟨-, rfl⟩ := when_eq_some.mp h
    exact .inl ⟨hk, rfl, fun _ => rfl⟩
  | transmitSynAck =>
    obtain ⟨-, rfl⟩ := when_eq_some.mp h
    exact .inl ⟨hk, rfl, fun hn => absurd rfl hn⟩
  | handshake =>
    obtain ⟨⟨-, hs⟩, -⟩ := when_eq_some.mp h
    simp [PollEvent.egress, hs] at he
  | fin =>
    obtain ⟨⟨-, hs⟩, -⟩ := when_eq_some.mp h
    simp [PollEvent.egress, hs hk] at he
  | syn | data | finAck | expire | transmit | transmitFin | transmitRst =>
    obtain ⟨hg, -⟩ := when_eq_some.mp h
    simp [hk, TcpState.receives, TcpState.finQueued, TcpState.transmits] at hg

theorem poll_unused (h : k.poll e = some k') (hu : k.opening → k.Unused) (hk : k'.opening) :
    k'.Unused := by
  have hk' : k'.state = .listen ∨ k'.state = .synReceived := by simpa [opening] using hk
  cases e with
  | syn =>
    obtain ⟨hs, rfl⟩ := when_eq_some.mp h
    have := hu (by simp [opening, hs])
    exact ⟨this.rx, this.inFlight, this.unsent, this.finSent⟩
  | rst =>
    obtain ⟨-, rfl⟩ := when_eq_some.mp h
    have hs : k.state = .synReceived := by
      by_contra hn
      simp [hn] at hk'
    have := hu (by simp [opening, hs])
    exact ⟨this.rx, this.inFlight, this.unsent, this.finSent⟩
  | ack n =>
    obtain ⟨-, rfl⟩ := when_eq_some.mp h
    have := hu (by simpa [opening] using hk')
    exact ⟨this.rx, by simp [this.inFlight], this.unsent, this.finSent⟩
  | transmitSynAck | transmitRst =>
    obtain ⟨hs, rfl⟩ := when_eq_some.mp h
    have := hu (by simpa [opening] using hk')
    exact ⟨this.rx, this.inFlight, this.unsent, this.finSent⟩
  | finAck =>
    obtain ⟨⟨hq, -⟩, rfl⟩ := when_eq_some.mp h
    cases hs : k.state <;> simp [hs, TcpState.finQueued, TcpState.afterFinAck] at hq hk'
  | fin =>
    obtain ⟨⟨hf, -⟩, rfl⟩ := when_eq_some.mp h
    cases hs : k.state <;> simp [hs, TcpState.afterFin] at hf hk'
  | handshake | expire =>
    obtain ⟨-, rfl⟩ := when_eq_some.mp h
    simp at hk'
  | data | transmit | transmitFin =>
    obtain ⟨hg, rfl⟩ := when_eq_some.mp h
    obtain hs | hs := hk'
    all_goals
      dsimp only at hs
      simp [hs, TcpState.receives, TcpState.transmits, TcpState.finQueued] at hg

end Socket

namespace FlowState

variable {f f' : FlowState} {a : FlowAction}

theorem step_unused (h : f.step a = some f') (hu : f.socket.opening → f.socket.Unused)
    (hk : f'.socket.opening) : f'.socket.Unused := by
  by_cases ha : ∃ e, a = .poll e
  · obtain ⟨e, rfl⟩ := ha
    obtain ⟨-, k, hp, rfl⟩ := step_poll h
    exact Socket.poll_unused hp hu hk
  · obtain ⟨-, hs | ⟨hs, -⟩ | hs⟩ := socket_of_step h fun e he => ha ⟨e, he⟩
    · have ho : f.socket.opening := by simpa [Socket.opening, hs.state] using hk
      refine hs.unused ?_ (hu ho)
      obtain ho | ho : f.socket.state = .listen ∨ f.socket.state = .synReceived := by
        simpa [Socket.opening] using ho
      all_goals simp [Socket.maySend, ho]
    · simp [hs, Socket.opening, Socket.abort] at hk
    · rw [hs] at hk
      cases hc : f.socket.state <;> simp [Socket.opening, Socket.close, hc] at hk

/-- A pass judges a socket that is back to listening as finished. -/
theorem closed_of_judged (h : f.step a = some f') (ha : a.visits) (hp : f'.phase = .reaping)
    (hu : f.socket.opening → f.socket.Unused) (hk : f'.socket.state = .listen) :
    f'.flow.closed := by
  cases a with
  | judge now =>
    obtain ⟨-, rfl⟩ := when_eq_some.mp h
    have hk' : f.socket.state = .listen := hk
    have hrx := (hu (by simp [Socket.opening, hk'])).rx
    simp [judge, tcpFlowFinished, hk', Socket.mayRecv, Socket.maySend, hrx]
  | visit | stopUpload | recvSlice =>
    obtain ⟨-, rfl⟩ := when_eq_some.mp h
    cases hp
  | tryConnect =>
    obtain ⟨-, rfl⟩ := when_eq_some.mp h
    dsimp only at hp
    split_ifs at hp
  | send =>
    simp only [step] at h
    split at h
    · obtain rfl := Option.some.inj h
      unfold send at hp
      split_ifs at hp
    · cases h
  | tryRecv =>
    obtain ⟨-, rfl⟩ := when_eq_some.mp h
    unfold tryRecv at hp
    split at hp
    any_goals split_ifs at hp
    all_goals cases hp
  | sendSlice =>
    obtain ⟨-, rfl⟩ := when_eq_some.mp h
    unfold sendSlice at hp
    split at hp
    · cases hp
    · split_ifs at hp
      dsimp only at hp
      split_ifs at hp
  | closeSocket =>
    obtain ⟨-, rfl⟩ := when_eq_some.mp h
    unfold closeSocket at hp
    split_ifs at hp
  | _ => cases ha

end FlowState

/-- The socket of a listener. While a poll still reads packets, the app cannot have answered
what only goes out at its end. -/
def ListenerSocket (phase : StackPhase) (incoming : List Packet) (k : Socket) : Prop :=
  k.state = .listen ∨ k.state = .synReceived ∧ k.tuple ≠ none ∧
    (phase = .accepting ∨ phase = .polling ∧ (incoming ≠ [] → ¬ k.synAckSent))

/-- Where the socket of a flow may be back to listening. -/
def MayListen (phase : StackPhase) (f : FlowState) : Prop :=
  match phase with
  | .polling | .accepting => f.phase ≠ .reaping
  | .serving => f.phase = .reaping → f.flow.closed
  | .reaping => f.phase = .reaping ∧ f.flow.closed
  | _ => False

namespace StackState

variable {s t : StackState} {h i : ℕ} {a : FlowAction} {e : PollEvent} {k k' : Socket}
  {target : Endpoint}

structure Listening (s : StackState) : Prop where
  owned : s.Owned
  listener : ∀ h target k, s.tcpListeners.byHandle h = some target →
    s.sockets.get h = some (.tcp k) → ListenerSocket s.phase s.incoming k
  flow : ∀ h f k, s.tcpFlows h = some f → s.sockets.get h = some (.tcp k) →
    k.state = .listen → MayListen s.phase f
  unused : ∀ h k, s.sockets.get h = some (.tcp k) → k.opening → k.Unused

theorem listening_initial (now : ℕ) : (initial now).Listening where
  owned := owned_initial now
  listener _ _ _ h := by cases h
  flow _ _ _ h := by cases h
  unused _ _ h := by cases h

namespace Listening

theorem worked (hs : s.Listening) (hw : Worked s t h k k')
    (he : k'.listenEndpoint = k.listenEndpoint)
    (hu : (k.opening → k.Unused) → k'.opening → k'.Unused)
    (hl : ∀ target, s.tcpListeners.byHandle h = some target →
      ListenerSocket s.phase s.incoming k → ListenerSocket s.phase s.incoming k')
    (hf : ∀ f', t.tcpFlows h = some f' → k'.state = .listen → MayListen s.phase f') :
    t.Listening := by
  have hget (i : ℕ) := hw.get (i := i)
  have hph : t.phase = s.phase := by rw [hw.result]
  have hin : t.incoming = s.incoming := by rw [hw.result]
  have htl : t.tcpListeners = s.tcpListeners := by rw [hw.result]
  refine ⟨hs.owned.worked hw he, ?_, ?_, ?_⟩
  · intro i target k₀ hi hk₀
    rw [htl] at hi
    rw [hph, hin]
    rw [hget] at hk₀
    split_ifs at hk₀ with hih
    · subst i
      obtain rfl : k' = k₀ := by simpa using hk₀
      exact hl target hi (hs.listener h target k hi hw.socket)
    · exact hs.listener i target k₀ hi hk₀
  · intro i f' k₀ hi hk₀ hst
    rw [hph]
    rw [hget] at hk₀
    split_ifs at hk₀ with hih
    · subst i
      obtain rfl : k' = k₀ := by simpa using hk₀
      exact hf f' hi hst
    · rw [hw.others i hih] at hi
      exact hs.flow i f' k₀ hi hk₀ hst
  · intro i k₀ hk₀
    rw [hget] at hk₀
    split_ifs at hk₀ with hih
    · obtain rfl : k' = k₀ := by simpa using hk₀
      exact hu (hs.unused h k hw.socket)
    · exact hs.unused i k₀ hk₀

theorem ensureTcpListener (hs : s.Listening) (target : Endpoint) :
    (s.ensureTcpListener target).Listening := by
  have hown := hs.owned.ensureTcpListener target
  obtain ⟨sockets, ht, hg, -⟩ | ⟨h, k, sockets, ht, -, hl, hn, hg⟩ :=
    ensureTcpListener_cases s target
  · rw [ht] at hown ⊢
    refine ⟨hown, ?_, ?_, ?_⟩
    · simpa only [hg] using hs.listener
    · simpa only [hg] using hs.flow
    · simpa only [hg] using hs.unused
  · obtain ⟨hth, -, hfh⟩ := hs.owned.unnamed hn
    obtain ⟨hk, hku⟩ : k.state = .listen ∧ k.Unused := by
      obtain ⟨-, rfl⟩ := when_eq_some.mp hl
      exact ⟨rfl, ⟨rfl, rfl, rfl, rfl⟩⟩
    rw [ht] at hown ⊢
    refine ⟨hown, ?_, ?_, ?_⟩
    · intro i target' k₀ hi hk₀
      by_cases hih : i = h
      · subst i
        obtain rfl : k = k₀ := by simpa [hg] using hk₀
        exact .inl hk
      · simp only [hg, if_neg hih] at hk₀
        exact hs.listener i target' k₀ (by simpa [Listeners.insert, hih] using hi) hk₀
    · intro i f k₀ hf hk₀
      have hih : i ≠ h := by
        rintro rfl
        simp [hfh] at hf
      simp only [hg, if_neg hih] at hk₀
      exact hs.flow i f k₀ hf hk₀
    · intro i k₀ hk₀
      by_cases hih : i = h
      · subst i
        obtain rfl : k = k₀ := by simpa [hg] using hk₀
        exact fun _ => hku
      · simp only [hg, if_neg hih] at hk₀
        exact hs.unused i k₀ hk₀

theorem ensureUdpListener (hs : s.Listening) (target : Endpoint) :
    (s.ensureUdpListener target).Listening := by
  have hown := hs.owned.ensureUdpListener target
  obtain ⟨sockets, ht, hg, -⟩ | ⟨h, sockets, ht, -, -, hn, hg⟩ :=
    ensureUdpListener_cases s target
  · rw [ht] at hown ⊢
    refine ⟨hown, ?_, ?_, ?_⟩
    · simpa only [hg] using hs.listener
    · simpa only [hg] using hs.flow
    · simpa only [hg] using hs.unused
  · have htcp {i : ℕ} {k₀ : Socket} (hi : sockets.get i = some (.tcp k₀)) :
        s.sockets.get i = some (.tcp k₀) := by
      rw [hg] at hi
      split_ifs at hi
      · cases hi
      · exact hi
    rw [ht] at hown ⊢
    exact ⟨hown, fun i target' k₀ hi hk₀ => hs.listener i target' k₀ hi (htcp hk₀),
      fun i f k₀ hf hk₀ => hs.flow i f k₀ hf (htcp hk₀), fun i k₀ hk₀ => hs.unused i k₀ (htcp hk₀)⟩

/-- Changes that leave the listeners' part of the state alone. -/
theorem congr (hs : s.Listening) (ht : t.Owned) (hk : t.sockets = s.sockets)
    (hl : t.tcpListeners.byHandle = s.tcpListeners.byHandle)
    (hp : ∀ k, ListenerSocket s.phase s.incoming k → ListenerSocket t.phase t.incoming k)
    (hf : ∀ h f k, t.tcpFlows h = some f → s.sockets.get h = some (.tcp k) → k.state = .listen →
      MayListen t.phase f) : t.Listening := by
  refine ⟨ht, ?_, ?_, ?_⟩
  · intro h target k hb hg
    rw [hl] at hb
    rw [hk] at hg
    exact hp k (hs.listener h target k hb hg)
  · intro h f k hh hg
    rw [hk] at hg
    exact hf h f k hh hg
  · rw [hk]
    exact hs.unused

theorem drain (hs : s.Listening) (hp : s.phase = .draining) (p : Packet) :
    (s.drain p).Listening := by
  have hown := hs.owned.drain p
  unfold StackState.drain at hown ⊢
  have hdrain (q r : List Packet) (k : Socket) (hk : ListenerSocket s.phase q k) :
      ListenerSocket s.phase r k := by
    simpa [ListenerSocket, hp] using hk
  split at hown
  · rename_i protocol addr port hip
    simp only
    split_ifs at hown ⊢
    · have ht := hs.ensureTcpListener ⟨addr, port⟩
      have hph : (s.ensureTcpListener ⟨addr, port⟩).phase = s.phase := by
        obtain ⟨_, h, -⟩ | ⟨_, _, _, h, -⟩ := ensureTcpListener_cases s ⟨addr, port⟩
        all_goals rw [h]
      refine ht.congr hown rfl rfl (fun k hk => ?_) fun h f k hf hk => ht.flow h f k hf hk
      rw [hph] at hk ⊢
      exact hdrain _ _ k hk
    · have ht := hs.ensureUdpListener ⟨addr, port⟩
      have hph : (s.ensureUdpListener ⟨addr, port⟩).phase = s.phase := by
        obtain ⟨_, h, -⟩ | ⟨_, _, h, -⟩ := ensureUdpListener_cases s ⟨addr, port⟩
        all_goals rw [h]
      refine ht.congr hown rfl rfl (fun k hk => ?_) fun h f k hf hk => ht.flow h f k hf hk
      rw [hph] at hk ⊢
      exact hdrain _ _ k hk
    · exact hs
  · rename_i hip
    simpa [hip] using hs

/-- An event of a poll: of a packet while there are packets, of the socket itself after
them. -/
theorem poll (hs : s.Listening) (hsyn : ∀ source, e ≠ .syn source)
    (hq : ¬ e.egress ∧ s.phase = .polling ∧ s.incoming ≠ [] ∨
      e.egress ∧ (s.phase = .polling ∨ s.phase = .repolling) ∧ s.incoming = [])
    (h' : s.poll h e = some t) : t.Listening := by
  obtain ⟨k, k', hw, hk, hfl⟩ := worked_of_poll h'
  refine hs.worked hw (Socket.poll_endpoint hk) (Socket.poll_unused hk) ?_ ?_
  · rintro target - (hl | ⟨hl, htu, hph⟩)
    · exact .inl (Socket.poll_listen hk hsyn hl)
    · have hpoll : s.phase = .polling ∧ (s.incoming ≠ [] → ¬ k.synAckSent) := by
        obtain hacc | hpoll := hph
        · simp [hacc] at hq
        · exact hpoll
      have he : e.egress ∨ ¬ k.synAckSent :=
        hq.symm.imp (fun h => h.1) fun h => hpoll.2 h.2.2
      obtain ⟨hst, htu', hsent⟩ | ⟨hst, -⟩ := Socket.poll_synReceived hk hl he
      · refine .inr ⟨hst, htu' ▸ htu, .inr ⟨hpoll.1, fun hne => ?_⟩⟩
        obtain ⟨hne', -⟩ | ⟨-, -, hnil⟩ := hq
        · rw [hsent hne']
          exact hpoll.2 hne
        · exact absurd hnil hne
      · exact .inl hst
  · intro f' hf' hst
    obtain ⟨hph', hsome⟩ := hfl f' hf'
    obtain ⟨f, hf⟩ := Option.isSome_iff_exists.mp hsome
    obtain ⟨-, hph, -⟩ | ⟨he, hph | hph, -⟩ := hq
    · simp [MayListen, hph, hph']
    · simp [MayListen, hph, hph']
    · obtain hl | ⟨-, rfl⟩ := Socket.poll_to_listen hk hst
      · have hm := hs.flow h f k hf hw.socket hl
        rw [hph] at hm
        exact hm.elim
      · cases he

theorem pollAll (hs : s.Listening) {es : List PollEvent}
    (hes : ∀ e ∈ es, (∀ source, e ≠ .syn source) ∧ ¬ e.egress) (hph : s.phase = .polling)
    (hin : s.incoming ≠ []) (h' : s.pollAll h es = some t) : t.Listening := by
  induction es generalizing s with
  | nil =>
    obtain rfl := Option.some.inj h'
    exact hs
  | cons e es ih =>
    obtain ⟨u, hu, ht⟩ := Option.bind_eq_some_iff.mp h'
    obtain ⟨hsyn, heg⟩ := hes e (.head _)
    obtain ⟨k, k', hw, -⟩ := worked_of_poll hu
    exact ih (hs.poll hsyn (.inl ⟨heg, hph, hin⟩) hu) (fun e he => hes e (.tail _ he))
      (hw.framed.phase.trans hph) (by rwa [hw.framed.incoming]) ht

/-- A listening socket takes a SYN. -/
theorem syn (hs : s.Listening) {source : Endpoint} (hph : s.phase = .polling)
    (h' : s.poll h (.syn source) = some t) : t.Listening := by
  obtain ⟨k, k', hw, hk, -⟩ := worked_of_poll h'
  refine hs.worked hw (Socket.poll_endpoint hk) (Socket.poll_unused hk) ?_ ?_
  · rintro target - -
    obtain ⟨-, rfl⟩ := when_eq_some.mp hk
    exact .inr ⟨rfl, by simp, .inr ⟨hph, fun _ => by simp⟩⟩
  · intro f' hf' hst
    obtain ⟨-, rfl⟩ := when_eq_some.mp hk
    cases hst

theorem allows_event {g : TcpSegment} (he : g.allows e) :
    (∀ source, e ≠ .syn source) ∧ ¬ e.egress := by
  cases e with
  | syn | expire | transmitSynAck | transmit | transmitFin | transmitRst => cases he
  | handshake | data | ack | finAck | fin | rst => exact ⟨by simp, by simp [PollEvent.egress]⟩

theorem receive {R : PacketReader} {p : Packet} {es : List PollEvent} (hs : s.Listening)
    (hph : s.phase = .polling) (hin : s.incoming ≠ []) (h' : s.receive R p es = some t) :
    t.Listening := by
  unfold StackState.receive at h'
  split at h'
  · obtain rfl := Option.some.inj h'
    exact hs
  · split at h'
    · obtain rfl := Option.some.inj h'
      exact hs
    · split_ifs at h' with hl hsyn hes
      · exact hs.syn hph h'
      · obtain rfl := Option.some.inj h'
        exact hs
      · exact hs.pollAll (fun e he => allows_event (List.all_eq_true.mp hes e he)) hph hin h'

theorem ingress {R : PacketReader} {es : List PollEvent} (hs : s.Listening)
    (hph : s.phase = .polling) (h' : s.ingress R es = some t) : t.Listening := by
  unfold StackState.ingress at h'
  split at h'
  · cases h'
  · rename_i p rest hin
    obtain ⟨u, hu, rfl⟩ := Option.map_eq_some_iff.mp h'
    have hl := hs.receive hph (by simp [hin]) hu
    have hfr := framed_of_receive hu
    have huph : u.phase = .polling ∧ u.incoming = s.incoming :=
      ⟨hfr.phase.trans hph, hfr.incoming⟩
    refine hl.congr (hl.owned.frame _ _ _ _ _) rfl rfl (fun k hk => ?_) hl.flow
    obtain hk | ⟨hst, htu, hk⟩ := hk
    · exact .inl hk
    · refine .inr ⟨hst, htu, .inr ⟨huph.1, fun _ => ?_⟩⟩
      obtain hk | hk := hk
      · simp [huph.1] at hk
      · exact hk.2 (by simp [huph.2, hin])

theorem accept {now : ℕ} (hs : s.Listening) (hph : s.phase = .accepting)
    (h' : s.accept h now = some t) : t.Listening := by
  have hown := hs.owned
  unfold StackState.accept at h'
  split at h'
  · rename_i target k hb hk
    obtain ⟨-, rfl⟩ := when_eq_some.mp h'
    refine ensureTcpListener ⟨hown.toFlow hb (tcpSocket_eq_some.mp hk) _, ?_, ?_, hs.unused⟩ target
    · intro i target' k' hi hk'
      by_cases hih : i = h
      · subst i
        simp [Listeners.removeHandle] at hi
      · exact hs.listener i target' k' (by simpa [Listeners.removeHandle, hih] using hi) hk'
    · intro i f k' hi hk' hst
      by_cases hih : i = h
      · subst i
        obtain rfl : FlowState.started k now = f := by simpa using hi
        simp [MayListen, hph, FlowState.started]
      · exact hs.flow i f k' (by simpa [hih] using hi) hk' hst
  · cases h'

/-- A step of a flow whose socket may listen after it only where that is allowed. -/
theorem serve (hs : s.Listening) (h' : s.serve h a = some t)
    (hm : ∀ k f f', s.sockets.get h = some (.tcp k) → s.tcpFlows h = some f →
      FlowState.step { f with socket := k } a = some f' → f'.socket.state = .listen →
      MayListen s.phase f') : t.Listening := by
  obtain ⟨k, f, f', hw, hf, hstep, hf'⟩ := worked_of_serve h'
  refine hs.worked hw (FlowState.step_endpoint hstep) (FlowState.step_unused hstep) ?_ ?_
  · intro target hb
    simp [(hs.owned.tcpFlow h f hf).1] at hb
  · intro f'' hf'' hst
    obtain rfl := Option.some.inj (hf'.symm.trans hf'')
    exact hm k f f' hw.socket hf hstep hst

theorem serve_threads (hs : s.Listening) (ha : a.threads) (h' : s.serve h a = some t) :
    t.Listening := by
  refine hs.serve h' fun k f f' hk hf hstep hst => ?_
  obtain ⟨hsock, hph, hcl⟩ := FlowState.threads_step hstep ha
  have hst' : k.state = .listen := by simpa [hsock] using hst
  have hm := hs.flow h f k hf hk hst'
  dsimp only at hph hcl
  unfold MayListen at hm ⊢
  split at hm
  · exact fun hp => hm (hph ▸ hp)
  · exact fun hp => hm (hph ▸ hp)
  · exact fun hp => hcl (hm (hph ▸ hp))
  · exact ⟨hph ▸ hm.1, hcl hm.2⟩
  · exact hm.elim

theorem serve_visits (hs : s.Listening) (ha : a.visits) (hp : s.phase = .serving)
    (h' : s.serve h a = some t) : t.Listening := by
  refine hs.serve h' fun k f f' hk hf hstep hst => ?_
  rw [hp]
  exact fun hph => FlowState.closed_of_judged hstep ha hph (hs.unused h k hk) hst

theorem reap (hs : s.Listening) (hp : s.phase = .reaping) (h' : s.reap h = some t) :
    t.Listening := by
  have hown := hs.owned.reap h'
  obtain ⟨u, hu, rfl⟩ := Option.map_eq_some_iff.mp h'
  obtain ⟨k, f, f', hw, hf, hstep, hf'⟩ := worked_of_serve hu
  obtain ⟨-, rfl⟩ := when_eq_some.mp hstep
  have hget (i : ℕ) := hw.get (i := i)
  by_cases hc : f.flow.closed
  · simp only [hf', hc, Option.any_some, if_true, decide_true] at hown ⊢
    have hk {i : ℕ} {k₀ : Socket} (hi : (u.sockets.remove h).get i = some (.tcp k₀)) :
        i ≠ h ∧ s.sockets.get i = some (.tcp k₀) := by
      rw [Slots.get_remove, hget] at hi
      split_ifs at hi with hih
      exact ⟨hih, hi⟩
    refine ⟨hown, fun i target k₀ hb hi => ?_, fun i f₀ k₀ hfl hi hst => ?_, fun i k₀ hi => ?_⟩
    · dsimp only at hb ⊢
      rw [hw.framed.tcpListeners] at hb
      rw [hw.framed.phase, hw.framed.incoming]
      exact hs.listener i target k₀ hb (hk hi).2
    · obtain ⟨hih, hg⟩ := hk hi
      have hfl' : s.tcpFlows i = some f₀ := by
        rw [← hw.others i hih]
        simpa [hih] using hfl
      rw [show u.phase = s.phase from hw.framed.phase]
      exact hs.flow i f₀ k₀ hfl' hg hst
    · exact hs.unused i k₀ (hk hi).2
  · have hne : ¬ (u.tcpFlows h).any (·.phase = .removed) := by simp [hf', hc]
    rw [if_neg hne]
    refine hs.serve hu fun k₀ f₀ f₁ hk₀ hf₀ hstep₀ hst => ?_
    obtain rfl : f = f₀ := Option.some.inj (hf.symm.trans hf₀)
    obtain ⟨-, rfl⟩ := when_eq_some.mp hstep₀
    have hm := hs.flow h f k₀ hf hk₀ hst
    rw [hp] at hm
    exact absurd hm.2 hc

/-- A listener or a socket of another kind leaves the set. -/
theorem remove (hs : s.Listening) (ht : t.Owned) (hk : t.sockets = s.sockets.remove h)
    (hb : ∀ i target, t.tcpListeners.byHandle i = some target →
      s.tcpListeners.byHandle i = some target)
    (hf : t.tcpFlows = s.tcpFlows) (hp : t.phase = s.phase) (hi : t.incoming = s.incoming) :
    t.Listening := by
  have hget {i : ℕ} {k₀ : Socket} (hi : t.sockets.get i = some (.tcp k₀)) :
      s.sockets.get i = some (.tcp k₀) := by
    rw [hk, Slots.get_remove] at hi
    split_ifs at hi
    exact hi
  refine ⟨ht, fun i target k₀ hl hg => ?_, fun i f k₀ hl hg => ?_, fun i k₀ hg => ?_⟩
  · rw [hp, hi]
    exact hs.listener i target k₀ (hb i target hl) (hget hg)
  · rw [hp]
    exact hs.flow i f k₀ (hf ▸ hl) (hget hg)
  · exact hs.unused i k₀ (hget hg)

theorem sweepTcp (hs : s.Listening) (h : ℕ) : (s.sweepTcp h).Listening := by
  have hown := hs.owned.sweepTcp h
  unfold StackState.sweepTcp at hown ⊢
  split at hown
  · rename_i target hb
    refine hs.remove hown rfl (fun i target' hi => ?_) rfl rfl rfl
    by_cases hih : i = h
    · subst i
      simp [Listeners.sweep, Listeners.removeHandle] at hi
    · simpa [Listeners.sweep, Listeners.removeHandle, hih] using hi
  · exact hs

theorem sweepUdp (hs : s.Listening) (hst : s.staleUdp h) : (s.sweepUdp h).Listening := by
  have hown := hs.owned.sweepUdp hst
  unfold StackState.sweepUdp at hown ⊢
  split at hown
  · rename_i target hb
    exact hs.remove hown rfl (fun _ _ hi => hi) rfl rfl rfl
  · exact hs

/-- The loop moves on to a phase in which its sockets may be as they are. -/
theorem move (hs : s.Listening) (ht : t.Owned) (hk : t.sockets = s.sockets)
    (hl : t.tcpListeners = s.tcpListeners) (hf : t.tcpFlows = s.tcpFlows)
    (hp : ∀ h target k, s.tcpListeners.byHandle h = some target → s.sockets.get h = some (.tcp k) →
      ListenerSocket s.phase s.incoming k → ListenerSocket t.phase t.incoming k)
    (hm : ∀ h f, s.tcpFlows h = some f → h < s.sockets.length → MayListen s.phase f →
      MayListen t.phase f) : t.Listening := by
  refine ⟨ht, fun h target k hb hg => ?_, fun h f k hh hg hst => ?_, fun h k hg => ?_⟩
  · rw [hl] at hb
    rw [hk] at hg
    exact hp h target k hb hg (hs.listener h target k hb hg)
  · rw [hf] at hh
    rw [hk] at hg
    exact hm h f hh (Slots.lt_length_of_get hg) (hs.flow h f k hh hg hst)
  · rw [hk] at hg
    exact hs.unused h k hg

end Listening

theorem allFlows_eq {p : FlowPhase} (ha : s.allFlows p) {f : FlowState} (hf : s.tcpFlows h = some f)
    (hlt : h < s.sockets.length) : f.phase = p := by
  have hall := List.all_eq_true.mp ha h (List.mem_range.mpr hlt)
  simpa [hf] using hall

/-- The socket of a listener once `process_tcp` has accepted what there was to accept. -/
theorem listen_of_endAccept (hn : ∀ h < s.sockets.length, ¬ s.accepted h)
    (hb : s.tcpListeners.byHandle h = some target) (hg : s.sockets.get h = some (.tcp k))
    {phase : StackPhase} {incoming : List Packet} (hk : ListenerSocket phase incoming k) :
    k.state = .listen := by
  obtain hk | ⟨hk, -⟩ := hk
  · exact hk
  · have hacc : s.accepted h := by
      simp [accepted, hb, tcpSocket_eq_some.mpr hg, Socket.isActive, hk]
    exact absurd hacc (hn h (Slots.lt_length_of_get hg))

theorem listen_of_listenerSocket {phase : StackPhase} {incoming : List Packet}
    (hk : ListenerSocket phase incoming k) (hp : phase ≠ .polling) (ha : phase ≠ .accepting) :
    k.state = .listen := by
  obtain hk | ⟨-, -, hk | ⟨hk, -⟩⟩ := hk
  · exact hk
  · exact absurd hk ha
  · exact absurd hk hp

theorem Listening.step {R : PacketReader} {b : StackAction} (hs : s.Listening)
    (h' : s.step R b = some t) : t.Listening := by
  have hown := hs.owned.step h'
  cases b with
  | wake now =>
    obtain ⟨hp, rfl⟩ := when_eq_some.mp h'
    refine hs.move hown rfl rfl rfl (fun h target k _ _ hk => ?_) fun h f _ _ hm => ?_
    · exact .inl (listen_of_listenerSocket hk (by simp [hp]) (by simp [hp]))
    · rw [hp] at hm
      exact hm.elim
  | stop =>
    obtain ⟨hp, rfl⟩ := when_eq_some.mp h'
    refine hs.congr hown rfl rfl (fun k hk => ?_) fun h f k hf hk hst => ?_
    · exact .inl (listen_of_listenerSocket hk (by simp [hp]) (by simp [hp]))
    · obtain ⟨f₀, hf₀, -⟩ := Option.map_eq_some_iff.mp hf
      have hm := hs.flow h f₀ k hf₀ hk hst
      rw [hp] at hm
      exact hm.elim
  | packet p =>
    obtain ⟨hp, rfl⟩ := when_eq_some.mp h'
    exact hs.drain hp p
  | endDrain =>
    obtain ⟨hp, rfl⟩ := when_eq_some.mp h'
    refine hs.move hown rfl rfl rfl (fun h target k _ _ hk => ?_) fun h f _ _ hm => ?_
    · exact .inl (listen_of_listenerSocket hk (by simp [hp]) (by simp [hp]))
    · rw [hp] at hm
      exact hm.elim
  | ingress es =>
    simp only [StackState.step] at h'
    split_ifs at h' with hp
    exact hs.ingress hp h'
  | egress h e =>
    simp only [StackState.step] at h'
    split_ifs at h' with hg
    obtain ⟨hp, hin, he⟩ := hg
    refine hs.poll ?_ (.inr ⟨he, hp, hin⟩) h'
    rintro source rfl
    cases he
  | endPoll =>
    simp only [StackState.step] at h'
    split_ifs at h' with hp hsweep
    · obtain ⟨hin, rfl⟩ := when_eq_some.mp h'
      refine hs.move hown rfl rfl rfl (fun h target k _ _ hk => ?_) fun h f _ _ hm => ?_
      · exact hk.imp_right fun hk => ⟨hk.1, hk.2.1, .inl rfl⟩
      · rw [hp] at hm
        exact hm
    all_goals
      obtain ⟨hp', rfl⟩ := when_eq_some.mp h'
      refine hs.move hown rfl rfl rfl (fun h target k _ _ hk => ?_) fun h f _ _ hm => ?_
      · exact .inl (listen_of_listenerSocket hk (by simp [hp']) (by simp [hp']))
      · rw [hp'] at hm
        exact hm.elim
  | accept h now =>
    simp only [StackState.step] at h'
    split_ifs at h' with hp
    exact hs.accept hp h'
  | endAccept =>
    obtain ⟨⟨hp, hn⟩, rfl⟩ := when_eq_some.mp h'
    refine hs.move hown rfl rfl rfl (fun h target k hb hg hk => ?_) fun h f hf _ hm hph => ?_
    · exact .inl (listen_of_endAccept hn hb hg hk)
    · rw [hp] at hm
      exact absurd hph hm
  | serve h a =>
    simp only [StackState.step] at h'
    split_ifs at h' with ha
    obtain ha | ⟨ha, hp⟩ := ha
    · exact hs.serve_threads ha h'
    · exact hs.serve_visits ha hp h'
  | endServe =>
    obtain ⟨⟨hp, hall⟩, rfl⟩ := when_eq_some.mp h'
    refine hs.move hown rfl rfl rfl (fun h target k _ _ hk => ?_) fun h f hf hlt hm => ?_
    · exact .inl (listen_of_listenerSocket hk (by simp [hp]) (by simp [hp]))
    · have hph := allFlows_eq hall hf hlt
      rw [hp] at hm
      exact ⟨hph, hm hph⟩
  | reap h =>
    simp only [StackState.step] at h'
    split_ifs at h' with hp
    exact hs.reap hp h'
  | endReap now =>
    obtain ⟨⟨hp, hall⟩, rfl⟩ := when_eq_some.mp h'
    refine hs.move hown rfl rfl rfl (fun h target k _ _ hk => ?_) fun h f hf hlt hm => ?_
    · exact .inl (listen_of_listenerSocket hk (by simp [hp]) (by simp [hp]))
    · have hph := allFlows_eq hall hf hlt
      rw [hp] at hm
      simp [hph, MayListen] at hm
  | datagram key =>
    obtain ⟨⟨hp, -⟩, rfl⟩ := when_eq_some.mp h'
    have hfr : s.datagram key = { s with udpFlows := (s.datagram key).udpFlows } := by
      unfold datagram
      split_ifs
      all_goals rfl
    rw [hfr] at hown ⊢
    exact hs.move hown rfl rfl rfl (fun _ _ _ _ _ hk => hk) fun _ _ _ _ hm => hm
  | serveUdp key active closed =>
    obtain ⟨⟨hp, -⟩, rfl⟩ := when_eq_some.mp h'
    exact hs.move hown rfl rfl rfl (fun _ _ _ _ _ hk => hk) fun _ _ _ _ hm => hm
  | reapUdp key =>
    obtain ⟨-, rfl⟩ := when_eq_some.mp h'
    exact hs.move hown rfl rfl rfl (fun _ _ _ _ _ hk => hk) fun _ _ _ _ hm => hm
  | endRelay | endExpire | endSweep =>
    obtain ⟨hp, rfl⟩ := when_eq_some.mp h'
    refine hs.move hown rfl rfl rfl (fun h target k _ _ hk => ?_) fun h f _ _ hm => ?_
    · exact .inl (listen_of_listenerSocket hk (by simp [hp]) (by simp [hp]))
    · simp [hp, MayListen] at hm
  | sweepTcp h =>
    obtain ⟨-, rfl⟩ := when_eq_some.mp h'
    exact hs.sweepTcp h
  | sweepUdp h =>
    obtain ⟨⟨-, hst⟩, rfl⟩ := when_eq_some.mp h'
    exact hs.sweepUdp hst

end StackState

end NulConnect.TunStack
