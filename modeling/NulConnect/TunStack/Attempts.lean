import NulConnect.TunStack.Accept

/-! Every connection attempt of a batch gets a listener and then a flow of its own, where the
attempts of the batch do not get in each other's way. -/
namespace NulConnect.TunStack
open Transition Net

namespace StackState

variable {s t : StackState} {w : Batch} {h i : ℕ} {g : TcpSegment} {k k' : Socket}
  {R : PacketReader}

/-- The listener that took the SYN has become the socket of a flow. -/
structure HasFlow (s : StackState) (w : Batch) (g : TcpSegment) (h : ℕ) : Prop where
  accepted : h ∈ w.accepted
  flow : (s.tcpFlows h).isSome
  socket : ∃ k, s.sockets.get h = some (.tcp k) ∧ k.listenEndpoint = g.target

theorem HasFlow.worked (hf : HasFlow s w g i) (hw : Worked s t h k k')
    (he : k'.listenEndpoint = k.listenEndpoint) : HasFlow t w g i := by
  obtain ⟨hacc, hflow, k₀, hk₀, hend⟩ := hf
  refine ⟨hacc, by rwa [hw.flows], ?_⟩
  rw [hw.get]
  split_ifs with hih
  · subst i
    obtain rfl : k = k₀ := by simpa [hw.socket] using hk₀
    exact ⟨k', rfl, he.trans hend⟩
  · exact ⟨k₀, hk₀, hend⟩

theorem TakenBy.worked (ht : s.TakenBy g i) (hw : Worked s t h k k')
    (hb : s.tcpListeners.byHandle h = none) : t.TakenBy g i := by
  have hih : i ≠ h := by
    rintro rfl
    simp [ht.byHandle] at hb
  exact ⟨hw.framed.tcpListeners ▸ ht.byHandle, by simpa [hw.get, hih] using ht.socket⟩

/-- The batch once it has been processed: every SYN of it is with a handle, where `at_`
says how. -/
structure Settled (s : StackState) (w : Batch) (held : TcpSegment → ℕ → Prop) : Prop where
  incoming : s.incoming = []
  distinct : w.segments.Pairwise fun g g' => g.isSyn → g'.isSyn → g'.target ≠ g.target
  covered : ∀ g ∈ w.segments, g.isSyn → g.target.port ≠ 0 → ∃ h, (g, h) ∈ w.taken
  isSyn : ∀ g h, (g, h) ∈ w.taken → g.isSyn ∧ g ∈ w.segments
  held : ∀ g h, (g, h) ∈ w.taken → held g h

/-- What is known of the batch in each phase of the iteration. -/
def Stage (R : PacketReader) (s : StackState) (w : Batch) : Prop :=
  match s.phase with
  | .draining => w.taken = [] ∧ Pending s w (pending R s)
  | .polling => Pending s w (pending R s)
  | .accepting => Settled s w fun g h => s.TakenBy g h ∨ HasFlow s w g h
  | .serving => Settled s w (HasFlow s w)
  | _ => s.incoming = []

theorem Pending.settled (hp : Pending s w []) (hin : s.incoming = []) :
    Settled s w fun g h => s.TakenBy g h ∨ HasFlow s w g h where
  incoming := hin
  distinct := hp.distinct
  covered g hg hsg hport := (hp.covered g hg hsg hport).resolve_left List.not_mem_nil
  isSyn g h hmem := ⟨(hp.own g h hmem).1, (hp.own g h hmem).2.1⟩
  held g h hmem := .inl (hp.own g h hmem).2.2

theorem Settled.imp {held held' : TcpSegment → ℕ → Prop} (hs : Settled s w held)
    (hin : t.incoming = []) (hh : ∀ g h, (g, h) ∈ w.taken → held g h → held' g h) :
    Settled t w held' where
  incoming := hin
  distinct := hs.distinct
  covered := hs.covered
  isSyn := hs.isSyn
  held g h hmem := hh g h hmem (hs.held g h hmem)

theorem pending_nil : Pending s .empty [] where
  suffix := List.nil_suffix
  distinct := .nil
  behind := .nil
  ready _ hg := absurd hg List.not_mem_nil
  fresh _ hg := absurd hg List.not_mem_nil
  unowned _ hg := absurd hg List.not_mem_nil
  spared _ hr := absurd hr List.not_mem_nil
  covered _ hg := absurd hg List.not_mem_nil
  own _ _ hmem := absurd hmem List.not_mem_nil

/-- What is in the socket set stays there when a listener is ensured. -/
theorem ensureTcpListener_keeps (s : StackState) (target : Endpoint) {x : SetSocket}
    (hx : s.sockets.get i = some x) :
    (s.ensureTcpListener target).sockets.get i = some x ∧
      (s.ensureTcpListener target).tcpListeners.byHandle i = s.tcpListeners.byHandle i ∧
      (s.ensureTcpListener target).tcpFlows = s.tcpFlows ∧
      (s.ensureTcpListener target).incoming = s.incoming ∧
      (s.ensureTcpListener target).phase = s.phase := by
  obtain ⟨sockets, ht, hg, -⟩ | ⟨h, k, sockets, ht, -, -, hn, hg⟩ :=
    ensureTcpListener_cases s target
  · rw [ht]
    exact ⟨by simpa [hg] using hx, rfl, rfl, rfl, rfl⟩
  · have hih : i ≠ h := by
      rintro rfl
      simp [hn] at hx
    rw [ht]
    exact ⟨by simpa [hg, hih] using hx, by simp [Listeners.insert, hih], rfl, rfl, rfl⟩

theorem Settled.accept {now : ℕ} (hs : Settled s w fun g h => s.TakenBy g h ∨ HasFlow s w g h)
    (ho : s.Owned) (h' : s.accept h now = some t) :
    Settled t { w with accepted := h :: w.accepted }
      (fun g i => t.TakenBy g i ∨ HasFlow t { w with accepted := h :: w.accepted } g i) ∧
      t.phase = s.phase := by
  unfold StackState.accept at h'
  split at h'
  · rename_i target k hb hk
    obtain ⟨-, rfl⟩ := when_eq_some.mp h'
    have hk := tcpSocket_eq_some.mp hk
    have hkeep {i : ℕ} {x : SetSocket} (hx : s.sockets.get i = some x) :=
      ensureTcpListener_keeps { s with
        tcpListeners := s.tcpListeners.removeHandle h target
        tcpFlows := Function.update s.tcpFlows h (some (.started k now)) } target hx
    refine ⟨⟨(hkeep hk).2.2.2.1.trans hs.incoming, hs.distinct, hs.covered, hs.isSyn,
      fun g i hmem => ?_⟩, (hkeep hk).2.2.2.2⟩
    obtain ⟨hbi, k₀, hk₀, hst, htu⟩ | ⟨hacc, hflow, k₀, hk₀, hend⟩ := hs.held g i hmem
    · obtain ⟨hx, hbx, hfx, -⟩ := hkeep hk₀
      by_cases hih : i = h
      · subst i
        obtain ⟨k₁, hk₁, hend⟩ := ho.tcpListener h g.target hbi
        obtain rfl : k₀ = k₁ := by simpa [hk₀] using hk₁
        exact .inr ⟨.head _, by simp [hfx], k₀, hx, hend⟩
      · refine .inl ⟨?_, k₀, hx, hst, htu⟩
        rw [hbx]
        simpa [Listeners.removeHandle, hih] using hbi
    · obtain ⟨hx, -, hfx, -⟩ := hkeep hk₀
      refine .inr ⟨.tail _ hacc, ?_, k₀, hx, hend⟩
      rw [hfx]
      by_cases hih : i = h
      · simp [hih]
      · simpa [hih] using hflow
  · cases h'

/-- The step of a flow leaves the batch as it is. -/
theorem Stage.serve {a : FlowAction} (hs : Stage R s w) (ho : s.Owned)
    (ha : a.threads ∨ a.visits ∧ s.phase = .serving) (h' : s.serve h a = some t) :
    Stage R t w := by
  obtain ⟨k, f, f', hw, hf, hstep, -⟩ := worked_of_serve h'
  have hph : t.phase = s.phase := hw.framed.phase
  have hin : t.incoming = s.incoming := hw.framed.incoming
  have hpend : pending R t = pending R s := by rw [pending, hin, pending]
  have hend : f'.socket.listenEndpoint = k.listenEndpoint := FlowState.step_endpoint hstep
  have hsame (hne : s.phase ≠ .serving) : f'.socket = k := by
    obtain ha | ⟨-, hp⟩ := ha
    · exact (FlowState.threads_step hstep ha).1
    · exact absurd hp hne
  have hpending (hne : s.phase ≠ .serving) (hp : Pending s w (pending R s)) :
      Pending t w (pending R t) := by
    rw [hpend]
    rw [hsame hne] at hw
    exact hp.worked hw rfl id .inl id (fun _ hl ha => ⟨hl, ha⟩) fun _ _ hst => ⟨hst, rfl⟩
  unfold Stage at hs ⊢
  rw [hph]
  cases hp : s.phase with
  | draining =>
    rw [hp] at hs
    exact ⟨hs.1, hpending (by simp [hp]) hs.2⟩
  | polling =>
    rw [hp] at hs
    exact hpending (by simp [hp]) hs
  | accepting =>
    rw [hp] at hs
    refine Settled.imp hs (hin.trans hs.incoming) fun g i _ hg => ?_
    exact hg.imp (fun hg => hg.worked hw (ho.tcpFlow h f hf).1) fun hg => hg.worked hw hend
  | serving =>
    rw [hp] at hs
    exact Settled.imp hs (hin.trans hs.incoming) fun g i _ hg => hg.worked hw hend
  | reaping | relaying | expiring | repolling | sweeping | waiting | stopped =>
    rw [hp] at hs
    exact hin.trans hs

theorem Stage.incoming_eq_nil (hs : Stage R s w) (hd : s.phase ≠ .draining)
    (hp : s.phase ≠ .polling) : s.incoming = [] := by
  unfold Stage at hs
  split at hs
  · rename_i hph
    exact absurd hph hd
  · rename_i hph
    exact absurd hph hp
  · exact hs.incoming
  · exact hs.incoming
  · exact hs

/-- A phase that knows nothing of the batch but that it has been processed. -/
theorem Stage.idle (hin : t.incoming = []) (hd : t.phase ≠ .draining) (hp : t.phase ≠ .polling)
    (ha : t.phase ≠ .accepting) (hv : t.phase ≠ .serving) : Stage R t w := by
  unfold Stage
  split
  all_goals first
    | exact hin
    | contradiction

theorem Stage.step {b : StackAction} (hs : Stage R s w) (hl : s.Listening)
    (hc : NoClash R (s, w) b) (h' : s.step R b = some t) : Stage R t (w.record R s b) := by
  cases b with
  | wake now =>
    obtain ⟨hp, rfl⟩ := when_eq_some.mp h'
    have hin := hs.incoming_eq_nil (by simp [hp]) (by simp [hp])
    have hnil : pending R { s with phase := .draining, nowMs := now } = [] := by
      simp [pending, hin]
    exact ⟨rfl, hnil.symm ▸ pending_nil⟩
  | packet p =>
    obtain ⟨hp, rfl⟩ := when_eq_some.mp h'
    have hph := (drain_phase s p).trans hp
    unfold Stage at hs ⊢
    rw [hp] at hs
    rw [hph]
    exact ⟨hs.1, hs.2.drain hs.1 hl hp hc⟩
  | endDrain =>
    obtain ⟨hp, rfl⟩ := when_eq_some.mp h'
    unfold Stage at hs
    rw [hp] at hs
    exact hs.2.congr rfl rfl rfl
  | ingress es =>
    simp only [StackState.step] at h'
    split_ifs at h' with hp
    have hph : t.phase = .polling := by
      unfold StackState.ingress at h'
      split at h'
      · cases h'
      · obtain ⟨u, hu, rfl⟩ := Option.map_eq_some_iff.mp h'
        exact (framed_of_receive hu).phase.trans hp
    unfold Stage at hs ⊢
    rw [hp] at hs
    rw [hph]
    exact hs.ingress hl hp h'
  | egress h e =>
    simp only [StackState.step] at h'
    split_ifs at h' with hg
    obtain ⟨hp, hin, he⟩ := hg
    obtain ⟨k, k', hw, -⟩ := worked_of_poll h'
    have hph : t.phase = s.phase := hw.framed.phase
    have hin' : t.incoming = [] := hw.framed.incoming.trans hin
    obtain hpoll | hre := hp
    · have hpend : pending R t = pending R s := by rw [pending, hin', pending, hin]
      unfold Stage at hs ⊢
      rw [hpoll] at hs
      rw [hph, hpoll]
      have hsyn : ∀ source, e ≠ .syn source := by
        rintro source rfl
        cases he
      have hr : Pending.Harmless s w h e := by
        rintro rfl
        cases he
      exact hpend.symm ▸ hs.poll hl hsyn (.inr ⟨he, .inl hpoll, hin⟩) hr h'
    · exact .idle hin' (by simp [hph, hre]) (by simp [hph, hre]) (by simp [hph, hre])
        (by simp [hph, hre])
  | endPoll =>
    simp only [StackState.step] at h'
    split_ifs at h' with hp hsweep
    · obtain ⟨hin, rfl⟩ := when_eq_some.mp h'
      unfold Stage at hs
      rw [hp] at hs
      have hnil : pending R s = [] := by simp [pending, hin]
      rw [hnil] at hs
      exact (hs.settled hin).imp hin fun g h _ hg => hg.imp (fun hg => ⟨hg.1, hg.2⟩)
        fun hg => ⟨hg.1, hg.2, hg.3⟩
    all_goals
      obtain ⟨hre, rfl⟩ := when_eq_some.mp h'
      have hin := hs.incoming_eq_nil (by simp [hre]) (by simp [hre])
      exact .idle hin (by simp) (by simp) (by simp) (by simp)
  | accept h now =>
    simp only [StackState.step] at h'
    split_ifs at h' with hp
    unfold Stage at hs ⊢
    rw [hp] at hs
    obtain ⟨ht, hph⟩ := hs.accept hl.owned h'
    rw [hph, hp]
    exact ht
  | endAccept =>
    obtain ⟨⟨hp, hn⟩, rfl⟩ := when_eq_some.mp h'
    unfold Stage at hs
    rw [hp] at hs
    refine Settled.imp hs hs.incoming fun g h _ hg => ?_
    obtain ⟨hb, k, hk, hst, -⟩ | hg := hg
    · have hacc : s.accepted h := by
        simp [accepted, hb, tcpSocket_eq_some.mpr hk, Socket.isActive, hst]
      exact absurd hacc (hn h (Slots.lt_length_of_get hk))
    · exact ⟨hg.1, hg.2, hg.3⟩
  | serve h a =>
    simp only [StackState.step] at h'
    split_ifs at h' with ha
    exact hs.serve hl.owned ha h'
  | reap h =>
    simp only [StackState.step] at h'
    split_ifs at h' with hp
    have hin := hs.incoming_eq_nil (by simp [hp]) (by simp [hp])
    obtain ⟨u, hu, rfl⟩ := Option.map_eq_some_iff.mp h'
    obtain ⟨k, f, f', hw, -⟩ := worked_of_serve hu
    have huin := hw.framed.incoming.trans hin
    have hup := hw.framed.phase.trans hp
    split_ifs
    all_goals exact .idle huin (by simp [hup]) (by simp [hup]) (by simp [hup]) (by simp [hup])
  | datagram key =>
    obtain ⟨⟨hp, -⟩, rfl⟩ := when_eq_some.mp h'
    have hin := hs.incoming_eq_nil (by simp [hp]) (by simp [hp])
    have hfr : s.datagram key = { s with udpFlows := (s.datagram key).udpFlows } := by
      unfold datagram
      split_ifs
      all_goals rfl
    rw [hfr]
    exact .idle hin (by simp [hp]) (by simp [hp]) (by simp [hp]) (by simp [hp])
  | stop | endServe | endReap | serveUdp | endRelay | reapUdp | endExpire | endSweep =>
    obtain ⟨hp, rfl⟩ := when_eq_some.mp h'
    have hin := hs.incoming_eq_nil (by simp [hp]) (by simp [hp])
    exact .idle hin (by simp [hp, StackState.stop, StackState.serveUdp])
      (by simp [hp, StackState.stop, StackState.serveUdp])
      (by simp [hp, StackState.stop, StackState.serveUdp])
      (by simp [hp, StackState.stop, StackState.serveUdp])
  | sweepTcp h =>
    obtain ⟨⟨hp, -⟩, rfl⟩ := when_eq_some.mp h'
    have hin := hs.incoming_eq_nil (by simp [hp]) (by simp [hp])
    unfold StackState.sweepTcp
    split
    all_goals exact .idle hin (by simp [hp]) (by simp [hp]) (by simp [hp]) (by simp [hp])
  | sweepUdp h =>
    obtain ⟨⟨hp, -⟩, rfl⟩ := when_eq_some.mp h'
    have hin := hs.incoming_eq_nil (by simp [hp]) (by simp [hp])
    unfold StackState.sweepUdp
    split
    all_goals exact .idle hin (by simp [hp]) (by simp [hp]) (by simp [hp]) (by simp [hp])

/-- What a step refuses is no SYN that can be listened for. -/
theorem Stage.refused {b : StackAction} (hs : Stage R s w) (hl : s.Listening)
    (hr : ∀ r ∈ w.refused, r.isSyn → r.target.port = 0) (h' : s.step R b = some t) :
    ∀ r ∈ (w.record R s b).refused, r.isSyn → r.target.port = 0 := by
  intro r hmem hsg
  by_cases hn : r ∈ w.refused
  · exact hr r hn hsg
  · cases b with
    | ingress es =>
      simp only [StackState.step] at h'
      split_ifs at h' with hp
      unfold Stage at hs
      rw [hp] at hs
      exact hs.refused hl hmem hsg hn
    | wake now => cases hmem
    | _ => exact absurd hmem hn

end StackState

/-- No SYN that can be listened for is refused, and when the pass serves the flows each has
one of its own. -/
def AttemptsServed (p : StackState × Batch) : Prop :=
  (p.2.segments.Pairwise fun g g' => g.isSyn → g'.isSyn → g.source ≠ g'.source) →
    (∀ r ∈ p.2.refused, r.isSyn → r.target.port = 0) ∧
    (p.1.phase = .serving → ∀ g ∈ p.2.segments, g.isSyn → g.target.port ≠ 0 →
      ∃ h, (g, h) ∈ p.2.taken ∧ h ∈ p.2.accepted ∧ (p.1.tcpFlows h).isSome ∧
        ∀ g', (g', h) ∈ p.2.taken → g' = g)

open StackState

variable {R : PacketReader} {s : StackState} {w : Batch} {p : StackState × Batch}

/-- Two SYNs of a batch are not taken by the same socket. -/
theorem StackState.Settled.own (hs : Settled s w (HasFlow s w)) {g g' : TcpSegment} {h : ℕ}
    (hg : (g, h) ∈ w.taken) (hg' : (g', h) ∈ w.taken) : g' = g := by
  obtain ⟨-, -, k, hk, hend⟩ := hs.held g h hg
  obtain ⟨-, -, k', hk', hend'⟩ := hs.held g' h hg'
  obtain rfl : k = k' := by simpa [hk] using hk'
  have hsymm : Std.Symm fun g g' : TcpSegment => g.isSyn → g'.isSyn → g'.target ≠ g.target :=
    ⟨fun _ _ hne hg hg' => (hne hg' hg).symm⟩
  by_contra hne
  obtain ⟨hsg, hmem⟩ := hs.isSyn g h hg
  obtain ⟨hsg', hmem'⟩ := hs.isSyn g' h hg'
  exact hs.distinct.forall hmem' hmem hne hsg' hsg (hend.symm.trans hend')

structure Attempts (R : PacketReader) (p : StackState × Batch) : Prop where
  listening : p.1.Listening
  stage : Stage R p.1 p.2
  refused : ∀ r ∈ p.2.refused, r.isSyn → r.target.port = 0

theorem attempts_of_reach (h : (batches R).ReachUnder (NoClash R) p) : Attempts R p := by
  refine h.invariant ?_ ?_
  · rintro ⟨s, w⟩ ⟨⟨now, rfl⟩, rfl⟩
    exact ⟨listening_initial now, rfl, by simp [Batch.empty]⟩
  · intro p b q _ hp hc hq
    obtain ⟨ht, hw⟩ := System.observe_step.mp hq
    have hs := hp.stage.step hp.listening hc ht
    have hr := hp.stage.refused hp.listening hp.refused ht
    rw [← hw] at hs hr
    exact ⟨hp.listening.step ht, hs, hr⟩

theorem attemptsServed_of_noClash (h : (batches R).ReachUnder (NoClash R) p) :
    AttemptsServed p := by
  have ha := attempts_of_reach h
  refine fun _ => ⟨ha.refused, fun hp g hg hsg hport => ?_⟩
  have hs := ha.stage
  unfold Stage at hs
  rw [hp] at hs
  obtain ⟨h, hmem⟩ := hs.covered g hg hsg hport
  have hf := hs.held g h hmem
  exact ⟨h, hmem, hf.accepted, hf.flow, fun g' hg' => hs.own hmem hg'⟩

/-- The SYN again, from port 50002. -/
private def secondSyn : Packet :=
  [69, 0, 0, 40, 0, 0, 64, 0, 64, 6, 106, 177, 10, 8, 0, 2, 198, 19, 0, 2, 195, 82, 0, 22,
    0, 0, 0, 1, 0, 0, 0, 0, 80, 2, 255, 255, 28, 90, 0, 0]

/-- From port 50002 to port 80. -/
private def otherSyn : Packet :=
  [69, 0, 0, 40, 0, 0, 64, 0, 64, 6, 106, 177, 10, 8, 0, 2, 198, 19, 0, 2, 195, 82, 0, 80,
    0, 0, 0, 1, 0, 0, 0, 0, 80, 2, 255, 255, 28, 32, 0, 0]

private theorem batches_init : (batches .plain).init (.initial 0, .empty) := ⟨⟨0, rfl⟩, rfl⟩

instance (s : StackState) (r g : TcpSegment) : Decidable (Spares s r g) := by
  unfold Spares
  infer_instance

instance (q : StackState × Batch) (b : StackAction) : Decidable (NoClash R q b) := by
  rcases b with ⟨⟩
  all_goals
    unfold NoClash
    infer_instance

theorem attemptsServed_twoPorts : ∃ q : StackState × Batch,
    q.1.phase = .serving ∧ q.2.segments.length = 2 ∧ AttemptsServed q := by
  have h0 : (batches .plain).ReachUnder (NoClash .plain) (.initial 0, .empty) :=
    .init batches_init
  have hr := h0.run [.wake 0, .packet synPacket, .packet otherSyn, .endDrain, .ingress [],
    .ingress [], .endPoll, .accept 0 0, .accept 1 0, .endAccept] (by decide +kernel) rfl
  exact ⟨_, rfl, rfl, attemptsServed_of_noClash hr⟩

theorem second_attempt_refused :
    ¬ ∀ q : StackState × Batch, (batches .plain).Reachable q → AttemptsServed q := by
  intro h
  have h0 : (batches .plain).Reachable (.initial 0, .empty) := .init batches_init
  have hr := System.Reachable.run h0
    [.wake 0, .packet synPacket, .packet secondSyn, .endDrain, .ingress [], .ingress []] rfl
  have hserved := (h _ hr (by decide +kernel)).1
  exact absurd hserved (by decide +kernel)

end NulConnect.TunStack
