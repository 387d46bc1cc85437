import NulConnect.TunStack.FlowSteps
import NulConnect.TunStack.Loop

/-! Who owns the sockets of the stack loop: every member of the socket set is a listener or
belongs to a flow, and every handle in a table names a socket of the right kind. -/
namespace NulConnect.TunStack
open Transition

theorem Socket.poll_endpoint {k k' : Socket} {e : PollEvent} (h : k.poll e = some k') :
    k'.listenEndpoint = k.listenEndpoint := by
  cases e
  all_goals obtain ⟨-, rfl⟩ := when_eq_some.mp h
  all_goals rfl

theorem FlowState.step_endpoint {f f' : FlowState} {a : FlowAction} (h : f.step a = some f') :
    f'.socket.listenEndpoint = f.socket.listenEndpoint := by
  by_cases ha : ∃ e, a = .poll e
  · obtain ⟨e, rfl⟩ := ha
    obtain ⟨-, k, hk, rfl⟩ := step_poll h
    exact Socket.poll_endpoint hk
  · obtain ⟨-, hk | ⟨hk, -⟩ | hk⟩ := socket_of_step h fun e he => ha ⟨e, he⟩
    · exact hk.endpoint
    · rw [hk]
      rfl
    · rw [hk]
      rfl

namespace StackState

variable {s t : StackState} {h i : ℕ} {a : FlowAction} {e : PollEvent} {k k' : Socket}
  {target : Endpoint}

theorem tcpSocket_eq_some : s.tcpSocket h = some k ↔ s.sockets.get h = some (.tcp k) := by
  unfold tcpSocket
  cases hg : s.sockets.get h with
  | none => simp
  | some x => cases x <;> simp

/-- The TCP socket at a handle is worked on, by a poll or by the flow it belongs to. -/
structure Worked (s t : StackState) (h : ℕ) (k k' : Socket) : Prop where
  socket : s.sockets.get h = some (.tcp k)
  result : t = { s with sockets := s.sockets.put h (.tcp k'), tcpFlows := t.tcpFlows }
  flows : ∀ i, (t.tcpFlows i).isSome = (s.tcpFlows i).isSome
  others : ∀ i, i ≠ h → t.tcpFlows i = s.tcpFlows i

theorem Worked.get (hw : Worked s t h k k') :
    t.sockets.get i = if i = h then some (.tcp k') else s.sockets.get i := by
  rw [hw.result]
  exact Slots.get_put hw.socket

theorem serve_cases (hs : s.serve h a = some t) : ∃ k f f', s.sockets.get h = some (.tcp k) ∧
    s.tcpFlows h = some f ∧ FlowState.step { f with socket := k } a = some f' ∧
    t = { s with
      sockets := s.sockets.put h (.tcp f'.socket)
      tcpFlows := Function.update s.tcpFlows h (some f') } := by
  unfold serve at hs
  split at hs
  · rename_i k f hk hf
    obtain ⟨f', hf', rfl⟩ := Option.map_eq_some_iff.mp hs
    exact ⟨k, f, f', tcpSocket_eq_some.mp hk, hf, hf', rfl⟩
  · cases hs

theorem worked_of_serve (hs : s.serve h a = some t) : ∃ k f f', Worked s t h k f'.socket ∧
    s.tcpFlows h = some f ∧ FlowState.step { f with socket := k } a = some f' ∧
    t.tcpFlows h = some f' := by
  obtain ⟨k, f, f', hk, hf, hf', rfl⟩ := serve_cases hs
  refine ⟨k, f, f', ⟨hk, rfl, fun i => ?_, fun i hi => ?_⟩, hf, hf', by simp⟩
  · by_cases hi : i = h
    · subst i
      simp [hf]
    · simp [hi]
  · simp [hi]

theorem worked_of_poll (hs : s.poll h e = some t) : ∃ k k', Worked s t h k k' ∧
    k.poll e = some k' ∧ ∀ f', t.tcpFlows h = some f' →
      f'.phase = .polling ∧ (s.tcpFlows h).isSome := by
  unfold poll at hs
  split at hs
  · rename_i k hk hf
    obtain ⟨k', hk', rfl⟩ := Option.map_eq_some_iff.mp hs
    refine ⟨k, k', ⟨tcpSocket_eq_some.mp hk, rfl, fun _ => rfl, fun _ _ => rfl⟩, hk', ?_⟩
    intro f' hf'
    simp [hf] at hf'
  · obtain ⟨k, f, f', hw, hf, hf', ht⟩ := worked_of_serve hs
    obtain ⟨hp, k', hk', rfl⟩ := FlowState.step_poll hf'
    refine ⟨k, k', hw, hk', fun f'' hf'' => ?_⟩
    obtain rfl := Option.some.inj (ht.symm.trans hf'')
    exact ⟨hp, by simp [hf]⟩

/-- Only the socket set and the TCP flows differ. -/
def Framed (s t : StackState) : Prop := t = { s with sockets := t.sockets, tcpFlows := t.tcpFlows }

namespace Framed

theorem refl (s : StackState) : Framed s s := rfl

theorem trans {u : StackState} (hst : Framed s t) (htu : Framed t u) : Framed s u := by
  unfold Framed at *
  rw [htu, hst]

theorem phase (hf : Framed s t) : t.phase = s.phase := by rw [hf]

theorem incoming (hf : Framed s t) : t.incoming = s.incoming := by rw [hf]

theorem tcpListeners (hf : Framed s t) : t.tcpListeners = s.tcpListeners := by rw [hf]

end Framed

theorem Worked.framed (hw : Worked s t h k k') : Framed s t := by
  unfold Framed
  rw [hw.result]

theorem framed_of_pollAll {es : List PollEvent} (hs : s.pollAll h es = some t) : Framed s t := by
  induction es generalizing s with
  | nil =>
    obtain rfl := Option.some.inj hs
    exact .refl s
  | cons e es ih =>
    obtain ⟨u, hu, ht⟩ := Option.bind_eq_some_iff.mp hs
    obtain ⟨k, k', hw, -⟩ := worked_of_poll hu
    exact hw.framed.trans (ih ht)

theorem framed_of_receive {R : PacketReader} {p : Packet} {es : List PollEvent}
    (hs : s.receive R p es = some t) : Framed s t := by
  unfold receive at hs
  split at hs
  · obtain rfl := Option.some.inj hs
    exact .refl s
  · split at hs
    · obtain rfl := Option.some.inj hs
      exact .refl s
    · split_ifs at hs
      · obtain ⟨k, k', hw, -⟩ := worked_of_poll hs
        exact hw.framed
      · obtain rfl := Option.some.inj hs
        exact .refl s
      · exact framed_of_pollAll hs

/-- What `ensure_tcp_listener` does: nothing to speak of, or a listening socket in a free
slot. -/
theorem ensureTcpListener_cases (s : StackState) (target : Endpoint) :
    (∃ sockets : Slots SetSocket, s.ensureTcpListener target = { s with sockets := sockets } ∧
      (∀ i, sockets.get i = s.sockets.get i) ∧
      ((s.tcpListeners.byTarget target).isSome ∨ target.port = 0)) ∨
    ∃ h k, ∃ sockets : Slots SetSocket, s.ensureTcpListener target = { s with
        sockets := sockets
        tcpListeners := s.tcpListeners.insert target h } ∧
      s.tcpListeners.byTarget target = none ∧ Socket.new.listen target = some k ∧
      s.sockets.get h = none ∧
      ∀ i, sockets.get i = if i = h then some (.tcp k) else s.sockets.get i := by
  have hfree := Slots.get_add_slot s.sockets (.tcp .new)
  have hadd := Slots.get_add s.sockets (.tcp .new)
  unfold ensureTcpListener
  cases hb : s.tcpListeners.byTarget target with
  | some h => exact .inl ⟨s.sockets, by simp, fun _ => rfl, by simp⟩
  | none =>
    cases hl : Socket.new.listen target with
    | none =>
      refine .inl ⟨(s.sockets.add (.tcp .new)).1.remove (s.sockets.add (.tcp .new)).2, by simp,
        fun i => ?_, .inr ?_⟩
      · rw [Slots.get_remove, hadd]
        split_ifs with hi
        · rw [hi, hfree]
        · rfl
      · by_contra hp
        simp [Socket.listen, when, hp] at hl
    | some k =>
      refine .inr ⟨_, k, (s.sockets.add (.tcp .new)).1.put (s.sockets.add (.tcp .new)).2 (.tcp k),
        by simp, rfl, rfl, hfree, fun i => ?_⟩
      have hself : (s.sockets.add (.tcp .new)).1.get (s.sockets.add (.tcp .new)).2 =
          some (.tcp .new) := by
        rw [hadd, if_pos rfl]
      rw [Slots.get_put hself, hadd]
      split_ifs
      all_goals rfl

theorem ensureUdpListener_cases (s : StackState) (target : Endpoint) :
    (∃ sockets : Slots SetSocket, s.ensureUdpListener target = { s with sockets := sockets } ∧
      (∀ i, sockets.get i = s.sockets.get i) ∧
      ((s.udpListeners.byTarget target).isSome ∨ target.port = 0)) ∨
    ∃ h, ∃ sockets : Slots SetSocket, s.ensureUdpListener target = { s with
        sockets := sockets
        udpListeners := s.udpListeners.insert target h } ∧
      s.udpListeners.byTarget target = none ∧ target.port ≠ 0 ∧ s.sockets.get h = none ∧
      ∀ i, sockets.get i = if i = h then some (.udp (some target)) else s.sockets.get i := by
  have hfree := Slots.get_add_slot s.sockets (.udp none)
  have hadd := Slots.get_add s.sockets (.udp none)
  unfold ensureUdpListener
  cases hb : s.udpListeners.byTarget target with
  | some h => exact .inl ⟨s.sockets, by simp, fun _ => rfl, by simp⟩
  | none =>
    by_cases hp : target.port = 0
    · refine .inl ⟨(s.sockets.add (.udp none)).1.remove (s.sockets.add (.udp none)).2, by simp [hp],
        fun i => ?_, .inr hp⟩
      rw [Slots.get_remove, hadd]
      split_ifs with hi
      · rw [hi, hfree]
      · rfl
    · refine .inr ⟨_, (s.sockets.add (.udp none)).1.put (s.sockets.add (.udp none)).2
        (.udp (some target)), by simp [hp], rfl, hp, hfree, fun i => ?_⟩
      have hself : (s.sockets.add (.udp none)).1.get (s.sockets.add (.udp none)).2 =
          some (.udp none) := by
        rw [hadd, if_pos rfl]
      rw [Slots.get_put hself, hadd]
      split_ifs
      all_goals rfl

structure Owned (s : StackState) : Prop where
  tcpInverse : Inverse s.tcpListeners.byTarget s.tcpListeners.byHandle
  udpInverse : Inverse s.udpListeners.byTarget s.udpListeners.byHandle
  tcpListener : ∀ h target, s.tcpListeners.byHandle h = some target →
    ∃ k, s.sockets.get h = some (.tcp k) ∧ k.listenEndpoint = target
  udpListener : ∀ h target, s.udpListeners.byHandle h = some target →
    s.sockets.get h = some (.udp (some target))
  tcpFlow : ∀ h f, s.tcpFlows h = some f →
    s.tcpListeners.byHandle h = none ∧ ∃ k, s.sockets.get h = some (.tcp k)
  tcpOwner : ∀ h k, s.sockets.get h = some (.tcp k) →
    (s.tcpListeners.byHandle h).isSome ∨ (s.tcpFlows h).isSome
  udpOwner : ∀ h bound, s.sockets.get h = some (.udp bound) →
    (s.udpListeners.byHandle h).isSome
  udpFlow : ∀ q ∈ s.udpFlows, (s.udpListeners.byHandle q.1.handle).isSome

theorem owned_initial (now : ℕ) : (initial now).Owned where
  tcpInverse := .empty
  udpInverse := .empty
  tcpListener _ _ h := by cases h
  udpListener _ _ h := by cases h
  tcpFlow _ _ h := by cases h
  tcpOwner _ _ h := by cases h
  udpOwner _ _ h := by cases h
  udpFlow _ h := absurd h List.not_mem_nil

namespace Owned

/-- Only the tables and the socket set matter. -/
theorem congr (hs : s.Owned) (hk : ∀ i, t.sockets.get i = s.sockets.get i)
    (ht : t.tcpListeners.byTarget = s.tcpListeners.byTarget ∧
      t.tcpListeners.byHandle = s.tcpListeners.byHandle)
    (hu : t.udpListeners.byTarget = s.udpListeners.byTarget ∧
      t.udpListeners.byHandle = s.udpListeners.byHandle)
    (hf : ∀ i, (t.tcpFlows i).isSome = (s.tcpFlows i).isSome)
    (hq : ∀ q ∈ t.udpFlows, ∃ q' ∈ s.udpFlows, q'.1.handle = q.1.handle) : t.Owned := by
  refine ⟨?_, ?_, ?_, ?_, ?_, ?_, ?_, ?_⟩
  · rw [ht.1, ht.2]
    exact hs.tcpInverse
  · rw [hu.1, hu.2]
    exact hs.udpInverse
  · simpa only [hk, ht.2] using hs.tcpListener
  · simpa only [hk, hu.2] using hs.udpListener
  · intro h f hfl
    have hsome : (s.tcpFlows h).isSome := by
      rw [← hf h, hfl]
      rfl
    obtain ⟨f', hf'⟩ := Option.isSome_iff_exists.mp hsome
    simpa only [hk, ht.2] using hs.tcpFlow h f' hf'
  · simpa only [hk, ht.2, hf] using hs.tcpOwner
  · simpa only [hk, hu.2] using hs.udpOwner
  · intro q hmem
    obtain ⟨q', hq', he⟩ := hq q hmem
    rw [hu.2, ← he]
    exact hs.udpFlow q' hq'

theorem worked (hs : s.Owned) (hw : Worked s t h k k')
    (he : k'.listenEndpoint = k.listenEndpoint) : t.Owned := by
  have hget (i : ℕ) := hw.get (i := i)
  have htl : t.tcpListeners = s.tcpListeners := by rw [hw.result]
  have hul : t.udpListeners = s.udpListeners := by rw [hw.result]
  have huf : t.udpFlows = s.udpFlows := by rw [hw.result]
  refine ⟨?_, ?_, ?_, ?_, ?_, ?_, ?_, ?_⟩
  · rw [htl]
    exact hs.tcpInverse
  · rw [hul]
    exact hs.udpInverse
  · intro i target hi
    obtain ⟨k₀, hk₀, he₀⟩ := hs.tcpListener i target (htl ▸ hi)
    rw [hget]
    split_ifs with hih
    · subst i
      obtain rfl : k = k₀ := by simpa [hw.socket] using hk₀
      exact ⟨k', rfl, he.trans he₀⟩
    · exact ⟨k₀, hk₀, he₀⟩
  · intro i target hi
    have hg := hs.udpListener i target (hul ▸ hi)
    have hih : i ≠ h := by
      rintro rfl
      simp [hw.socket] at hg
    rw [hget, if_neg hih, hg]
  · intro i f hf
    have hsome : (s.tcpFlows i).isSome := by
      rw [← hw.flows i, hf]
      rfl
    obtain ⟨f', hf'⟩ := Option.isSome_iff_exists.mp hsome
    obtain ⟨hn, k₀, hk₀⟩ := hs.tcpFlow i f' hf'
    rw [htl, hget]
    refine ⟨hn, ?_⟩
    split_ifs
    · exact ⟨k', rfl⟩
    · exact ⟨k₀, hk₀⟩
  · intro i k₀ hi
    rw [hget] at hi
    rw [htl, hw.flows]
    split_ifs at hi with hih
    · subst i
      exact hs.tcpOwner h k hw.socket
    · exact hs.tcpOwner i k₀ hi
  · intro i bound hi
    rw [hget] at hi
    rw [hul]
    split_ifs at hi
    · cases hi
    · exact hs.udpOwner i bound hi
  · rw [huf, hul]
    exact hs.udpFlow

/-- A free slot is named by no table. -/
theorem unnamed (hs : s.Owned) (hn : s.sockets.get h = none) : s.tcpListeners.byHandle h = none ∧
    s.udpListeners.byHandle h = none ∧ s.tcpFlows h = none := by
  refine ⟨?_, ?_, ?_⟩
  · by_contra hc
    obtain ⟨target, ht⟩ := Option.ne_none_iff_exists'.mp hc
    obtain ⟨k, hk, -⟩ := hs.tcpListener h target ht
    simp [hn] at hk
  · by_contra hc
    obtain ⟨target, ht⟩ := Option.ne_none_iff_exists'.mp hc
    simp [hs.udpListener h target ht] at hn
  · by_contra hc
    obtain ⟨f, hf⟩ := Option.ne_none_iff_exists'.mp hc
    obtain ⟨-, k, hk⟩ := hs.tcpFlow h f hf
    simp [hn] at hk

theorem ensureTcpListener (hs : s.Owned) (target : Endpoint) :
    (s.ensureTcpListener target).Owned := by
  obtain ⟨sockets, ht, hg, -⟩ | ⟨h, k, sockets, ht, hb, hl, hn, hg⟩ :=
    ensureTcpListener_cases s target
  · rw [ht]
    exact hs.congr hg ⟨rfl, rfl⟩ ⟨rfl, rfl⟩ (fun _ => rfl) fun q hq => ⟨q, hq, rfl⟩
  · obtain ⟨hth, huh, hfh⟩ := hs.unnamed hn
    have hk : k.listenEndpoint = target := by
      obtain ⟨-, rfl⟩ := when_eq_some.mp hl
      rfl
    rw [ht]
    refine ⟨hs.tcpInverse.insert hb hth, hs.udpInverse, ?_, ?_, ?_, ?_, ?_, hs.udpFlow⟩
    · intro i target' hi
      by_cases hih : i = h
      · subst i
        obtain rfl : target = target' := by simpa [Listeners.insert] using hi
        exact ⟨k, by simp [hg], hk⟩
      · simp only [Listeners.insert, Function.update_of_ne hih] at hi
        simpa [hg, hih] using hs.tcpListener i target' hi
    · intro i target' hi
      have hih : i ≠ h := by
        rintro rfl
        simp [huh] at hi
      simpa [hg, hih] using hs.udpListener i target' hi
    · intro i f hf
      have hih : i ≠ h := by
        rintro rfl
        simp [hfh] at hf
      simpa [hg, hih, Listeners.insert] using hs.tcpFlow i f hf
    · intro i k' hi
      by_cases hih : i = h
      · subst i
        simp [Listeners.insert]
      · simp only [hg, if_neg hih] at hi
        simpa [Listeners.insert, hih] using hs.tcpOwner i k' hi
    · intro i bound hi
      have hih : i ≠ h := by
        rintro rfl
        simp [hg] at hi
      simp only [hg, if_neg hih] at hi
      exact hs.udpOwner i bound hi

theorem ensureUdpListener (hs : s.Owned) (target : Endpoint) :
    (s.ensureUdpListener target).Owned := by
  obtain ⟨sockets, ht, hg, -⟩ | ⟨h, sockets, ht, hb, -, hn, hg⟩ := ensureUdpListener_cases s target
  · rw [ht]
    exact hs.congr hg ⟨rfl, rfl⟩ ⟨rfl, rfl⟩ (fun _ => rfl) fun q hq => ⟨q, hq, rfl⟩
  · obtain ⟨hth, huh, hfh⟩ := hs.unnamed hn
    rw [ht]
    refine ⟨hs.tcpInverse, hs.udpInverse.insert hb huh, ?_, ?_, ?_, ?_, ?_, ?_⟩
    · intro i target' hi
      have hih : i ≠ h := by
        rintro rfl
        simp [hth] at hi
      simpa [hg, hih] using hs.tcpListener i target' hi
    · intro i target' hi
      by_cases hih : i = h
      · subst i
        obtain rfl : target = target' := by simpa [Listeners.insert] using hi
        simp [hg]
      · simp only [Listeners.insert, Function.update_of_ne hih] at hi
        simpa [hg, hih] using hs.udpListener i target' hi
    · intro i f hf
      have hih : i ≠ h := by
        rintro rfl
        simp [hfh] at hf
      simpa [hg, hih] using hs.tcpFlow i f hf
    · intro i k' hi
      have hih : i ≠ h := by
        rintro rfl
        simp [hg] at hi
      simp only [hg, if_neg hih] at hi
      exact hs.tcpOwner i k' hi
    · intro i bound hi
      by_cases hih : i = h
      · subst i
        simp [Listeners.insert]
      · simp only [hg, if_neg hih] at hi
        simpa [Listeners.insert, hih] using hs.udpOwner i bound hi
    · intro q hq
      have hsome := hs.udpFlow q hq
      have hqh : q.1.handle ≠ h := by
        intro he
        simp [he, huh] at hsome
      simpa [Listeners.insert, hqh] using hsome

theorem drain (hs : s.Owned) (p : Packet) : (s.drain p).Owned := by
  unfold StackState.drain
  split
  · split_ifs
    · exact (hs.ensureTcpListener _).congr (fun _ => rfl) ⟨rfl, rfl⟩ ⟨rfl, rfl⟩ (fun _ => rfl)
        fun q hq => ⟨q, hq, rfl⟩
    · exact (hs.ensureUdpListener _).congr (fun _ => rfl) ⟨rfl, rfl⟩ ⟨rfl, rfl⟩ (fun _ => rfl)
        fun q hq => ⟨q, hq, rfl⟩
    · exact hs
  · exact hs

theorem poll (hs : s.Owned) (h' : s.poll h e = some t) : t.Owned := by
  obtain ⟨k, k', hw, hk, -⟩ := worked_of_poll h'
  exact hs.worked hw (Socket.poll_endpoint hk)

theorem pollAll (hs : s.Owned) {es : List PollEvent} (h' : s.pollAll h es = some t) : t.Owned := by
  induction es generalizing s with
  | nil =>
    obtain rfl := Option.some.inj h'
    exact hs
  | cons e es ih =>
    obtain ⟨u, hu, ht⟩ := Option.bind_eq_some_iff.mp h'
    exact ih (hs.poll hu) ht

theorem serve (hs : s.Owned) (h' : s.serve h a = some t) : t.Owned := by
  obtain ⟨k, f, f', hw, -, hf, -⟩ := worked_of_serve h'
  exact hs.worked hw (FlowState.step_endpoint hf)

/-- The listener's socket passes to the flow. -/
theorem toFlow (hs : s.Owned) (hb : s.tcpListeners.byHandle h = some target)
    (hk : s.sockets.get h = some (.tcp k)) (f : FlowState) :
    { s with
      tcpListeners := s.tcpListeners.removeHandle h target
      tcpFlows := Function.update s.tcpFlows h (some f) }.Owned := by
  refine ⟨hs.tcpInverse.remove ((hs.tcpInverse target h).mpr hb), hs.udpInverse, ?_,
    hs.udpListener, ?_, ?_, hs.udpOwner, hs.udpFlow⟩
  · intro i target' hi
    by_cases hih : i = h
    · subst i
      simp [Listeners.removeHandle] at hi
    · exact hs.tcpListener i target' (by simpa [Listeners.removeHandle, hih] using hi)
  · intro i f' hf
    by_cases hih : i = h
    · subst i
      exact ⟨by simp [Listeners.removeHandle], k, hk⟩
    · simpa [Listeners.removeHandle, hih] using hs.tcpFlow i f' (by simpa [hih] using hf)
  · intro i k' hi
    by_cases hih : i = h
    · subst i
      simp
    · simpa [Listeners.removeHandle, hih] using hs.tcpOwner i k' hi

theorem accept {now : ℕ} (hs : s.Owned) (h' : s.accept h now = some t) : t.Owned := by
  unfold StackState.accept at h'
  split at h'
  · rename_i target k hb hk
    obtain ⟨-, rfl⟩ := when_eq_some.mp h'
    exact (hs.toFlow hb (tcpSocket_eq_some.mp hk) _).ensureTcpListener target
  · cases h'

/-- The socket of a flow leaves the set together with the flow. -/
theorem dropFlow (hs : s.Owned) {f : FlowState} (hf : s.tcpFlows h = some f) :
    { s with
      sockets := s.sockets.remove h
      tcpFlows := Function.update s.tcpFlows h none }.Owned := by
  obtain ⟨hn, k, hk⟩ := hs.tcpFlow h f hf
  have hg (i : ℕ) : (s.sockets.remove h).get i = if i = h then none else s.sockets.get i :=
    Slots.get_remove
  refine ⟨hs.tcpInverse, hs.udpInverse, ?_, ?_, ?_, ?_, ?_, hs.udpFlow⟩
  · intro i target' hi
    have hih : i ≠ h := by
      rintro rfl
      simp [hn] at hi
    simpa [hg, hih] using hs.tcpListener i target' hi
  · intro i target' hi
    have hu := hs.udpListener i target' hi
    have hih : i ≠ h := by
      rintro rfl
      simp [hk] at hu
    simpa [hg, hih] using hu
  · intro i f' hf'
    have hih : i ≠ h := by
      rintro rfl
      simp at hf'
    simpa [hg, hih] using hs.tcpFlow i f' (by simpa [hih] using hf')
  · intro i k' hi
    have hih : i ≠ h := by
      rintro rfl
      simp [hg] at hi
    simpa [hih] using hs.tcpOwner i k' (by simpa [hg, hih] using hi)
  · intro i bound hi
    have hih : i ≠ h := by
      rintro rfl
      simp [hg] at hi
    exact hs.udpOwner i bound (by simpa [hg, hih] using hi)

theorem reap (hs : s.Owned) (h' : s.reap h = some t) : t.Owned := by
  obtain ⟨u, hu, rfl⟩ := Option.map_eq_some_iff.mp h'
  have hou := hs.serve hu
  obtain ⟨k, f, f', -, -, -, hf'⟩ := worked_of_serve hu
  split_ifs
  · exact hou.dropFlow hf'
  · exact hou

theorem sweepTcp (hs : s.Owned) (h : ℕ) : (s.sweepTcp h).Owned := by
  unfold StackState.sweepTcp
  split
  · rename_i target hb
    obtain ⟨k, hk, -⟩ := hs.tcpListener h target hb
    have hg (i : ℕ) : (s.sockets.remove h).get i = if i = h then none else s.sockets.get i :=
      Slots.get_remove
    refine ⟨hs.tcpInverse.remove ((hs.tcpInverse target h).mpr hb), hs.udpInverse, ?_, ?_, ?_, ?_,
      ?_, hs.udpFlow⟩
    · intro i target' hi
      have hih : i ≠ h := by
        rintro rfl
        simp [Listeners.sweep, Listeners.removeHandle] at hi
      simpa [hg, hih] using hs.tcpListener i target'
        (by simpa [Listeners.sweep, Listeners.removeHandle, hih] using hi)
    · intro i target' hi
      have hu := hs.udpListener i target' hi
      have hih : i ≠ h := by
        rintro rfl
        simp [hk] at hu
      simpa [hg, hih] using hu
    · intro i f hf
      have hfl := hs.tcpFlow i f hf
      have hih : i ≠ h := by
        rintro rfl
        simp [hb] at hfl
      simpa [hg, hih, Listeners.sweep, Listeners.removeHandle] using hfl
    · intro i k' hi
      have hih : i ≠ h := by
        rintro rfl
        simp [hg] at hi
      simpa [hih, Listeners.sweep, Listeners.removeHandle] using
        hs.tcpOwner i k' (by simpa [hg, hih] using hi)
    · intro i bound hi
      have hih : i ≠ h := by
        rintro rfl
        simp [hg] at hi
      exact hs.udpOwner i bound (by simpa [hg, hih] using hi)
  · exact hs

theorem sweepUdp (hs : s.Owned) (hst : s.staleUdp h) : (s.sweepUdp h).Owned := by
  unfold StackState.sweepUdp
  split
  · rename_i target hb
    have hk := hs.udpListener h target hb
    have hidle : ∀ q ∈ s.udpFlows, q.1.handle ≠ h := by
      have hno : s.udpListeners.idle target s.nowMs ∧ ∀ q ∈ s.udpFlows, q.1.handle ≠ h := by
        simpa [staleUdp, hb] using hst
      exact hno.2
    have hg (i : ℕ) : (s.sockets.remove h).get i = if i = h then none else s.sockets.get i :=
      Slots.get_remove
    refine ⟨hs.tcpInverse, hs.udpInverse.remove ((hs.udpInverse target h).mpr hb), ?_, ?_, ?_, ?_,
      ?_, ?_⟩
    · intro i target' hi
      have ht := hs.tcpListener i target' hi
      have hih : i ≠ h := by
        rintro rfl
        simp [hk] at ht
      simpa [hg, hih] using ht
    · intro i target' hi
      have hih : i ≠ h := by
        rintro rfl
        simp [Listeners.sweep, Listeners.removeHandle] at hi
      simpa [hg, hih] using hs.udpListener i target'
        (by simpa [Listeners.sweep, Listeners.removeHandle, hih] using hi)
    · intro i f hf
      have hfl := hs.tcpFlow i f hf
      have hih : i ≠ h := by
        rintro rfl
        simp [hk] at hfl
      simpa [hg, hih] using hfl
    · intro i k' hi
      have hih : i ≠ h := by
        rintro rfl
        simp [hg] at hi
      exact hs.tcpOwner i k' (by simpa [hg, hih] using hi)
    · intro i bound hi
      have hih : i ≠ h := by
        rintro rfl
        simp [hg] at hi
      simpa [hih, Listeners.sweep, Listeners.removeHandle] using
        hs.udpOwner i bound (by simpa [hg, hih] using hi)
    · intro q hq
      simpa [hidle q hq, Listeners.sweep, Listeners.removeHandle] using hs.udpFlow q hq
  · exact hs

theorem receive {R : PacketReader} {p : Packet} {es : List PollEvent} (hs : s.Owned)
    (h' : s.receive R p es = some t) : t.Owned := by
  unfold StackState.receive at h'
  split at h'
  · obtain rfl := Option.some.inj h'
    exact hs
  · split at h'
    · obtain rfl := Option.some.inj h'
      exact hs
    · split_ifs at h'
      · exact hs.poll h'
      · obtain rfl := Option.some.inj h'
        exact hs
      · exact hs.pollAll h'

theorem ingress {R : PacketReader} {es : List PollEvent} (hs : s.Owned)
    (h' : s.ingress R es = some t) : t.Owned := by
  unfold StackState.ingress at h'
  split at h'
  · cases h'
  · obtain ⟨u, hu, rfl⟩ := Option.map_eq_some_iff.mp h'
    exact (hs.receive hu).congr (fun _ => rfl) ⟨rfl, rfl⟩ ⟨rfl, rfl⟩ (fun _ => rfl)
      fun q hq => ⟨q, hq, rfl⟩

/-- Flows at a handle that has a listener may be opened and refreshed. -/
theorem setUdpFlows (hs : s.Owned) {flows : List (UdpKey × UdpFlow)}
    (hf : ∀ q ∈ flows, (s.udpListeners.byHandle q.1.handle).isSome) :
    { s with udpFlows := flows }.Owned := { hs with udpFlow := hf }

theorem datagram (hs : s.Owned) {key : UdpKey}
    (hk : (s.udpListeners.byHandle key.handle).isSome) : (s.datagram key).Owned := by
  unfold StackState.datagram
  split_ifs
  · refine hs.setUdpFlows fun q hq => ?_
    obtain ⟨q', hq', rfl⟩ := List.mem_map.mp hq
    split_ifs
    · exact hk
    · exact hs.udpFlow q' hq'
  · refine hs.setUdpFlows fun q hq => ?_
    obtain hq | hq := List.mem_append.mp hq
    · exact hs.udpFlow q hq
    · obtain rfl := List.mem_singleton.mp hq
      exact hk
  · exact hs

theorem serveUdp (hs : s.Owned) {key : UdpKey} {active closed : Bool}
    (hk : (s.udpListeners.byHandle key.handle).isSome) : (s.serveUdp key active closed).Owned := by
  refine hs.setUdpFlows fun q hq => ?_
  obtain ⟨q', hq', rfl⟩ := List.mem_map.mp hq
  by_cases hkey : q'.1 = key
  · simpa [hkey] using hk
  · simpa [hkey] using hs.udpFlow q' hq'

/-- A change of the phase, the clocks or the queue. -/
theorem frame (hs : s.Owned) (phase : StackPhase) (nowMs udpNow nextListenerSweep : ℕ)
    (incoming : List Packet) : { s with
      phase := phase
      nowMs := nowMs
      udpNow := udpNow
      nextListenerSweep := nextListenerSweep
      incoming := incoming }.Owned :=
  hs.congr (fun _ => rfl) ⟨rfl, rfl⟩ ⟨rfl, rfl⟩ (fun _ => rfl) fun q hq => ⟨q, hq, rfl⟩

theorem stop (hs : s.Owned) : s.stop.Owned := by
  refine hs.congr (fun _ => rfl) ⟨rfl, rfl⟩ ⟨rfl, rfl⟩ (fun i => ?_) fun q hq => ?_
  · simp [StackState.stop]
  · obtain ⟨q', hq', rfl⟩ := List.mem_map.mp hq
    exact ⟨q', hq', rfl⟩

theorem step {R : PacketReader} {b : StackAction} (hs : s.Owned)
    (h' : s.step R b = some t) : t.Owned := by
  cases b with
  | wake | endDrain | endAccept | endServe | endReap | endRelay | endExpire | endSweep =>
    obtain ⟨-, rfl⟩ := when_eq_some.mp h'
    exact hs.frame _ _ _ _ _
  | stop =>
    obtain ⟨-, rfl⟩ := when_eq_some.mp h'
    exact hs.stop
  | packet p =>
    obtain ⟨-, rfl⟩ := when_eq_some.mp h'
    exact hs.drain p
  | ingress es =>
    simp only [StackState.step] at h'
    split_ifs at h'
    exact hs.ingress h'
  | egress h e =>
    simp only [StackState.step] at h'
    split_ifs at h'
    exact hs.poll h'
  | endPoll =>
    simp only [StackState.step] at h'
    split_ifs at h'
    all_goals obtain ⟨-, rfl⟩ := when_eq_some.mp h'
    all_goals exact hs.frame _ _ _ _ _
  | accept h now =>
    simp only [StackState.step] at h'
    split_ifs at h'
    exact hs.accept h'
  | serve h a =>
    simp only [StackState.step] at h'
    split_ifs at h'
    exact hs.serve h'
  | reap h =>
    simp only [StackState.step] at h'
    split_ifs at h'
    exact hs.reap h'
  | datagram key =>
    obtain ⟨⟨-, hk⟩, rfl⟩ := when_eq_some.mp h'
    exact hs.datagram hk
  | serveUdp key active closed =>
    obtain ⟨⟨-, hk⟩, rfl⟩ := when_eq_some.mp h'
    exact hs.serveUdp hk
  | reapUdp key =>
    obtain ⟨-, rfl⟩ := when_eq_some.mp h'
    exact hs.setUdpFlows fun q hq => hs.udpFlow q (List.mem_of_mem_filter hq)
  | sweepTcp h =>
    obtain ⟨-, rfl⟩ := when_eq_some.mp h'
    exact hs.sweepTcp h
  | sweepUdp h =>
    obtain ⟨⟨-, hst⟩, rfl⟩ := when_eq_some.mp h'
    exact hs.sweepUdp hst

end Owned

theorem owned_of_reachable {R : PacketReader} (h : (stackSystem R).Reachable s) : s.Owned := by
  refine h.invariant ?_ ?_
  · rintro s ⟨now, rfl⟩
    exact owned_initial now
  · intro s b t _ hs _ ht
    exact hs.step ht

/-- The tables that hold the handles of sockets. -/
inductive Holder where
  | tcpListeners
  | tcpFlows
  | udpListeners
deriving DecidableEq, Repr

def holds (s : StackState) (h : ℕ) : Holder → Bool
  | .tcpListeners => (s.tcpListeners.byHandle h).isSome
  | .tcpFlows => (s.tcpFlows h).isSome
  | .udpListeners => (s.udpListeners.byHandle h).isSome

def Holder.kind : Holder → SetSocket → Bool
  | .tcpListeners, .tcp _ | .tcpFlows, .tcp _ | .udpListeners, .udp _ => true
  | _, _ => false

/-- Where the code of a phase takes a socket out of the set, or gets hold of it, by its handle
in a table. -/
def touches (s : StackState) (h : ℕ) (o : Holder) : Prop :=
  match s.phase, o with
  | .accepting, .tcpListeners | .serving, .tcpFlows | .reaping, .tcpFlows
  | .sweeping, .tcpListeners | .sweeping, .udpListeners => s.holds h o
  | .relaying, .udpListeners => ∃ target, s.udpListeners.byTarget target = some h
  | _, _ => False

/-- Every socket of the set is in exactly one table, every handle of a table is that of a
socket of the right kind, and so is every handle that the loop uses. -/
structure Disciplined (s : StackState) : Prop where
  disjoint : ∀ h o o', s.holds h o → s.holds h o' → o = o'
  live : ∀ h o, s.holds h o → ∃ x, s.sockets.get h = some x ∧ o.kind x
  owner : ∀ h x, s.sockets.get h = some x → ∃! o, s.holds h o
  tcpInverse : Inverse s.tcpListeners.byTarget s.tcpListeners.byHandle
  udpInverse : Inverse s.udpListeners.byTarget s.udpListeners.byHandle
  udpFlow : ∀ q ∈ s.udpFlows, s.holds q.1.handle .udpListeners
  touched : ∀ h o, s.touches h o → ∃ x, s.sockets.get h = some x ∧ o.kind x

namespace Owned

theorem live (hs : s.Owned) {o : Holder} (ho : s.holds h o) :
    ∃ x, s.sockets.get h = some x ∧ o.kind x := by
  cases o with
  | tcpListeners =>
    obtain ⟨target, ht⟩ := Option.isSome_iff_exists.mp ho
    obtain ⟨k, hk, -⟩ := hs.tcpListener h target ht
    exact ⟨.tcp k, hk, rfl⟩
  | tcpFlows =>
    obtain ⟨f, hf⟩ := Option.isSome_iff_exists.mp ho
    obtain ⟨-, k, hk⟩ := hs.tcpFlow h f hf
    exact ⟨.tcp k, hk, rfl⟩
  | udpListeners =>
    obtain ⟨target, ht⟩ := Option.isSome_iff_exists.mp ho
    exact ⟨.udp (some target), hs.udpListener h target ht, rfl⟩

theorem not_listener_of_flow (hs : s.Owned) (hf : s.holds h .tcpFlows) :
    ¬ s.holds h .tcpListeners := by
  obtain ⟨f, hf⟩ := Option.isSome_iff_exists.mp hf
  simp [holds, (hs.tcpFlow h f hf).1]

theorem disjoint (hs : s.Owned) {o o' : Holder} (ho : s.holds h o) (ho' : s.holds h o') :
    o = o' := by
  obtain ⟨x, hx, hk⟩ := hs.live ho
  obtain ⟨x', hx', hk'⟩ := hs.live ho'
  obtain rfl : x = x' := by simpa [hx] using hx'
  cases x with
  | tcp k =>
    cases o with
    | udpListeners => cases hk
    | tcpListeners =>
      cases o' with
      | tcpListeners => rfl
      | tcpFlows => exact absurd ho (hs.not_listener_of_flow ho')
      | udpListeners => cases hk'
    | tcpFlows =>
      cases o' with
      | tcpListeners => exact absurd ho' (hs.not_listener_of_flow ho)
      | tcpFlows => rfl
      | udpListeners => cases hk'
  | udp bound =>
    cases o with
    | tcpListeners | tcpFlows => cases hk
    | udpListeners =>
      cases o' with
      | tcpListeners | tcpFlows => cases hk'
      | udpListeners => rfl

theorem owner (hs : s.Owned) {x : SetSocket} (hx : s.sockets.get h = some x) :
    ∃! o, s.holds h o := by
  have hex : ∃ o, s.holds h o := by
    cases x with
    | tcp k =>
      exact (hs.tcpOwner h k hx).elim (fun hl => ⟨.tcpListeners, hl⟩) fun hf => ⟨.tcpFlows, hf⟩
    | udp bound => exact ⟨.udpListeners, hs.udpOwner h bound hx⟩
  obtain ⟨o, ho⟩ := hex
  exact ⟨o, ho, fun o' ho' => hs.disjoint ho' ho⟩

theorem touched (hs : s.Owned) {o : Holder} (ht : s.touches h o) :
    ∃ x, s.sockets.get h = some x ∧ o.kind x := by
  unfold touches at ht
  split at ht
  all_goals try exact hs.live ht
  · obtain ⟨target, hb⟩ := ht
    have hl : s.holds h .udpListeners :=
      Option.isSome_iff_exists.mpr ⟨target, (hs.udpInverse target h).mp hb⟩
    exact hs.live hl
  · exact ht.elim

end Owned

theorem disciplined_of_reachable {R : PacketReader} (h : (stackSystem R).Reachable s) :
    s.Disciplined := by
  have hs := owned_of_reachable h
  exact ⟨fun _ _ _ => hs.disjoint, fun _ _ => hs.live, fun _ _ => hs.owner, hs.tcpInverse,
    hs.udpInverse, hs.udpFlow, fun _ _ => hs.touched⟩

/-- A connection attempt has been accepted, and its listener replaced. -/
theorem disciplined_accepted : ∃ s : StackState, s.phase = .serving ∧
    s.holds 0 .tcpFlows ∧ s.holds 1 .tcpListeners ∧ s.Disciplined := by
  have h0 : (stackSystem .plain).Reachable (initial 0) := .init ⟨0, rfl⟩
  have hr := System.Reachable.run h0
    [.wake 0, .packet synPacket, .endDrain, .ingress [], .endPoll, .accept 0 0, .endAccept] rfl
  exact ⟨_, rfl, rfl, rfl, disciplined_of_reachable hr⟩

end StackState

end NulConnect.TunStack
