import NulConnect.TunStack.Listening

/-! Connection attempts: which of the SYNs of a batch are taken by a listener and get a flow. -/
namespace NulConnect.TunStack
open Transition

namespace Socket

variable {k k' : Socket} {e : PollEvent} {g : TcpSegment}

theorem accepts_of_listen (hk : k.state = .listen) :
    k.accepts g ↔ ¬ g.ack ∧ k.listenEndpoint = g.target := by
  simp [accepts, hk]

theorem accepts_of_connection (hl : k.state ≠ .listen) :
    k.accepts g ↔ k.state ≠ .closed ∧ k.listenEndpoint = g.target ∧ k.tuple = some g.source := by
  cases hs : k.state with
  | listen => exact absurd hs hl
  | closed => simp [accepts, hs]
  | synSent | synReceived | established | finWait1 | finWait2 | closeWait | closing | lastAck
  | timeWait =>
    cases ht : k.tuple with
    | none => simp [accepts, hs, ht]
    | some source =>
      have hsym : source = g.source ↔ g.source = source := ⟨Eq.symm, Eq.symm⟩
      simp [accepts, hs, ht, hsym]

/-- What a connection accepts after an event, it accepted before. -/
theorem poll_accepts (h : k.poll e = some k') (he : ∀ source, e ≠ .syn source)
    (hl : k'.state ≠ .listen) (ha : k'.accepts g) : k.state ≠ .listen ∧ k.accepts g := by
  have hk : k.state ≠ .listen := fun hk => hl (poll_listen h he hk)
  rw [accepts_of_connection hl] at ha
  rw [accepts_of_connection hk]
  obtain ⟨hc, hend, ht⟩ := ha
  refine ⟨hk, ?_⟩
  cases e with
  | syn source => exact absurd rfl (he source)
  | finAck =>
    obtain ⟨⟨hq, -⟩, rfl⟩ := when_eq_some.mp h
    cases hs : k.state <;> simp_all [TcpState.finQueued, TcpState.afterFinAck]
  | fin =>
    obtain ⟨⟨hf, -⟩, rfl⟩ := when_eq_some.mp h
    cases hs : k.state <;> simp_all [TcpState.afterFin]
  | rst | expire | transmitRst =>
    obtain ⟨-, rfl⟩ := when_eq_some.mp h
    cases ht
  | handshake =>
    obtain ⟨hs, rfl⟩ := when_eq_some.mp h
    exact ⟨by simp [hs.1], hend, ht⟩
  | data | ack | transmitSynAck | transmit | transmitFin =>
    obtain ⟨-, rfl⟩ := when_eq_some.mp h
    exact ⟨hc, hend, ht⟩

end Socket

structure Batch where
  segments : List TcpSegment
  /-- SYNs taken by a listener, with its handle -/
  taken : List (TcpSegment × ℕ)
  /-- segments answered by a RST because no socket accepts them -/
  refused : List TcpSegment
  /-- the sockets that `process_tcp` has opened a flow for -/
  accepted : List ℕ

namespace Batch

def empty : Batch where
  segments := []
  taken := []
  refused := []
  accepted := []

def record (R : PacketReader) (w : Batch) (s : StackState) : StackAction → Batch
  | .wake _ => .empty
  | .packet p => { w with segments := w.segments ++ (R.segment p).toList }
  | .ingress _ =>
    match s.incoming.head?.bind R.segment with
    | none => w
    | some g =>
      match s.demux g with
      | none => if g.control = .rst then w else { w with refused := g :: w.refused }
      | some h =>
        if (s.tcpSocket h).any (·.state = .listen) ∧ g.isSyn then
          { w with taken := (g, h) :: w.taken }
        else w
  | .accept h _ => { w with accepted := h :: w.accepted }
  | _ => w

end Batch

/-- The stack loop together with the batch of the iteration. -/
def batches (R : PacketReader) : System (StackState × Batch) StackAction :=
  (stackSystem R).observe .empty (Batch.record R)

namespace StackState

def anySocket (s : StackState) (p : Socket → Bool) : Bool :=
  s.sockets.any fun
    | some (.tcp k) => p k
    | _ => false

variable {s t : StackState} {h i : ℕ} {k k' : Socket} {p : Socket → Bool}

theorem not_anySocket (hn : ¬ s.anySocket p) (hg : s.sockets.get h = some (.tcp k)) : ¬ p k := by
  intro hp
  refine hn (List.any_eq_true.mpr ⟨some (.tcp k), ?_, hp⟩)
  have hlt := Slots.lt_length_of_get hg
  unfold Slots.get at hg
  rw [List.getElem?_eq_getElem hlt] at hg
  exact List.mem_of_getElem hg

/-- A RST hits no handshake at the destination of a SYN. -/
def Spares (s : StackState) (r g : TcpSegment) : Prop :=
  r.target = g.target → ¬ s.anySocket fun k => k.state = .synReceived && k.accepts r

/-- The SYNs of a batch go to pairwise different destinations, none of them repeats the
addresses of a connection that is still there, and no RST of the batch hits a handshake at
the destination of one of them, neither one that is there nor that of a SYN before it. -/
def NoClash (R : PacketReader) (p : StackState × Batch) : StackAction → Prop
  | .packet q => ∀ g ∈ R.segment q,
    (g.isSyn → ¬ (p.1.anySocket fun k => k.state ≠ .listen && k.accepts g) ∧
      ∀ g' ∈ p.2.segments, (g'.isSyn → g'.target ≠ g.target) ∧
        (g'.control = .rst → Spares p.1 g' g)) ∧
    (g.control = .rst → ∀ g' ∈ p.2.segments, g'.isSyn →
      (g.target = g'.target → g.source ≠ g'.source) ∧ Spares p.1 g g')
  | _ => True

def pending (R : PacketReader) (s : StackState) : List TcpSegment :=
  s.incoming.filterMap R.segment

structure TakenBy (s : StackState) (g : TcpSegment) (h : ℕ) : Prop where
  byHandle : s.tcpListeners.byHandle h = some g.target
  socket : ∃ k, s.sockets.get h = some (.tcp k) ∧ k.state = .synReceived ∧
    k.tuple = some g.source

/-- The batch while `todo` of it is still to be processed. -/
structure Pending (s : StackState) (w : Batch) (todo : List TcpSegment) : Prop where
  suffix : todo <:+ w.segments
  distinct : w.segments.Pairwise fun g g' => g.isSyn → g'.isSyn → g'.target ≠ g.target
  behind : w.segments.Pairwise fun g r => g.isSyn → r.control = .rst → r.target = g.target →
    r.source ≠ g.source
  ready : ∀ g ∈ todo, g.isSyn → g.target.port ≠ 0 →
    ∃ h k, s.tcpListeners.byTarget g.target = some h ∧ s.sockets.get h = some (.tcp k) ∧
      k.state = .listen
  fresh : ∀ g ∈ todo, g.isSyn → ∀ h k, s.sockets.get h = some (.tcp k) →
    k.state ≠ .listen → ¬ k.accepts g
  unowned : ∀ g ∈ todo, g.isSyn → ∀ h k, s.sockets.get h = some (.tcp k) →
    k.state = .listen → k.listenEndpoint = g.target → s.tcpFlows h = none
  spared : ∀ r ∈ todo, r.control = .rst → ∀ g ∈ w.segments, g.isSyn → r.target = g.target →
    ∀ h k, s.sockets.get h = some (.tcp k) → k.state = .synReceived → ¬ k.accepts r
  covered : ∀ g ∈ w.segments, g.isSyn → g.target.port ≠ 0 → g ∈ todo ∨ ∃ h, (g, h) ∈ w.taken
  own : ∀ g h, (g, h) ∈ w.taken → g.isSyn ∧ g ∈ w.segments ∧ s.TakenBy g h

namespace Pending

variable {w : Batch} {todo : List TcpSegment} {e : PollEvent} {g : TcpSegment}

theorem mem_segments (hp : Pending s w todo) (hg : g ∈ todo) : g ∈ w.segments :=
  hp.suffix.subset hg

/-- What happens to one socket leaves the batch as it is where the socket still listens,
accepts nothing that it did not accept, and is not a listener that has taken a SYN. -/
theorem worked (hp : Pending s w todo) (hw : Worked s t h k k')
    (hend : k'.listenEndpoint = k.listenEndpoint)
    (hlisten : k.state = .listen → k'.state = .listen)
    (hto : k'.state = .listen → k.state = .listen ∨
      ∀ g ∈ w.segments, g.isSyn → g.target ≠ k.listenEndpoint)
    (hsr : k'.state = .synReceived → k.state = .synReceived)
    (hacc : ∀ g, k'.state ≠ .listen → k'.accepts g → k.state ≠ .listen ∧ k.accepts g)
    (hown : ∀ g, (g, h) ∈ w.taken → k.state = .synReceived →
      k'.state = .synReceived ∧ k'.tuple = k.tuple) : Pending t w todo := by
  have hget (i : ℕ) := hw.get (i := i)
  -- what holds of every socket before holds of the one that moved
  have hbefore {i : ℕ} {k₀ : Socket} (hi : t.sockets.get i = some (.tcp k₀)) :
      s.sockets.get i = some (.tcp k₀) ∨ i = h ∧ k₀ = k' := by
    rw [hget] at hi
    split_ifs at hi with hih
    · exact .inr ⟨hih, by simpa using hi.symm⟩
    · exact .inl hi
  refine ⟨hp.suffix, hp.distinct, hp.behind, ?_, ?_, ?_, ?_, hp.covered, ?_⟩
  · intro g hg hsg hport
    obtain ⟨i, k₀, hb, hi, hl⟩ := hp.ready g hg hsg hport
    rw [hw.framed.tcpListeners]
    by_cases hih : i = h
    · subst i
      obtain rfl : k = k₀ := by simpa [hw.socket] using hi
      exact ⟨h, k', hb, by simp [hget], hlisten hl⟩
    · exact ⟨i, k₀, hb, by simp [hget, hih, hi], hl⟩
  · intro g hg hsg i k₀ hi hl ha
    obtain hi | ⟨rfl, rfl⟩ := hbefore hi
    · exact hp.fresh g hg hsg i k₀ hi hl ha
    · obtain ⟨hl', ha'⟩ := hacc g hl ha
      exact hp.fresh g hg hsg i k hw.socket hl' ha'
  · intro g hg hsg i k₀ hi hl htarget
    have hnone {i : ℕ} (hn : s.tcpFlows i = none) : t.tcpFlows i = none := by
      have hf := hw.flows i
      rw [hn] at hf
      simpa using hf
    obtain hi | ⟨rfl, rfl⟩ := hbefore hi
    · exact hnone (hp.unowned g hg hsg i k₀ hi hl htarget)
    · obtain hl' | hne := hto hl
      · exact hnone (hp.unowned g hg hsg i k hw.socket hl' (hend ▸ htarget))
      · exact absurd (hend ▸ htarget.symm) (hne g (hp.mem_segments hg) hsg)
  · intro r hrm hrst g hg hsg htarget
    have hall := hp.spared r hrm hrst g hg hsg htarget
    intro i k₀ hi hst ha
    obtain hi | ⟨rfl, rfl⟩ := hbefore hi
    · exact hall i k₀ hi hst ha
    · exact hall i k hw.socket (hsr hst) (hacc r (by simp [hst]) ha).2
  · intro g i hmem
    obtain ⟨hsg, hseg, hb, k₀, hi, hst, htu⟩ := hp.own g i hmem
    refine ⟨hsg, hseg, hw.framed.tcpListeners ▸ hb, ?_⟩
    by_cases hih : i = h
    · subst i
      obtain rfl : k = k₀ := by simpa [hw.socket] using hi
      obtain ⟨hst', htu'⟩ := hown g hmem hst
      exact ⟨k', by simp [hget], hst', htu'.trans htu⟩
    · exact ⟨k₀, by simp [hget, hih, hi], hst, htu⟩

/-- No RST hits a handshake at the destination of a SYN of the batch. -/
def Harmless (s : StackState) (w : Batch) (h : ℕ) (e : PollEvent) : Prop :=
  e = .rst → ∀ k, s.sockets.get h = some (.tcp k) → ∀ g ∈ w.segments, g.isSyn →
    g.target = k.listenEndpoint → k.state ≠ .synReceived

theorem poll (hp : Pending s w todo) (hs : s.Listening) (hsyn : ∀ source, e ≠ .syn source)
    (hq : ¬ e.egress ∧ s.phase = .polling ∧ s.incoming ≠ [] ∨
      e.egress ∧ (s.phase = .polling ∨ s.phase = .repolling) ∧ s.incoming = [])
    (hr : Harmless s w h e) (h' : s.poll h e = some t) : Pending t w todo := by
  obtain ⟨k, k', hw, hk, -⟩ := worked_of_poll h'
  refine hp.worked hw (Socket.poll_endpoint hk) (Socket.poll_listen hk hsyn) (fun hl => ?_)
    (Socket.poll_to_synReceived hk hsyn) (fun g => Socket.poll_accepts hk hsyn) fun g hmem hst => ?_
  · obtain hl | ⟨hl, he⟩ := Socket.poll_to_listen hk hl
    · exact .inl hl
    · exact .inr fun g hg hsg htarget => hr he k hw.socket g hg hsg htarget hl
  · obtain ⟨hsg, hseg, hb, -⟩ := hp.own g h hmem
    obtain ⟨k₀, hk₀, hend⟩ := hs.owned.tcpListener h g.target hb
    obtain rfl : k = k₀ := by simpa [hw.socket] using hk₀
    have he : e.egress ∨ ¬ k.synAckSent := by
      obtain ⟨-, hph, hne⟩ | ⟨he, -⟩ := hq
      · obtain hl | ⟨-, -, hph' | ⟨-, hsent⟩⟩ := hs.listener h g.target k hb hw.socket
        · simp [hl] at hst
        · simp [hph] at hph'
        · exact .inr (hsent hne)
      · exact .inl he
    obtain ⟨hst', htu, -⟩ | ⟨-, hrst⟩ := Socket.poll_synReceived hk hst he
    · exact ⟨hst', htu⟩
    · exact absurd hst (hr hrst k hw.socket g hseg hsg hend.symm)

theorem pollAll (hp : Pending s w todo) (hs : s.Listening) {es : List PollEvent}
    (hes : ∀ e ∈ es, (∀ source, e ≠ .syn source) ∧ ¬ e.egress) (hph : s.phase = .polling)
    (hin : s.incoming ≠ []) (hr : ∀ e ∈ es, Harmless s w h e) (h' : s.pollAll h es = some t) :
    Pending t w todo := by
  induction es generalizing s with
  | nil =>
    obtain rfl := Option.some.inj h'
    exact hp
  | cons e es ih =>
    obtain ⟨u, hu, ht⟩ := Option.bind_eq_some_iff.mp h'
    obtain ⟨hsyn, heg⟩ := hes e (.head _)
    obtain ⟨k, k', hw, hk, -⟩ := worked_of_poll hu
    have hq : ¬ e.egress ∧ s.phase = .polling ∧ s.incoming ≠ [] := ⟨heg, hph, hin⟩
    have hpu := hp.poll hs hsyn (.inl hq) (hr e (.head _)) hu
    have hsu := hs.poll hsyn (.inl hq) hu
    have hru : ∀ e ∈ es, Harmless u w h e := by
      intro e' he' hrst k₀ hk₀ g hg hsg htarget hst
      obtain rfl : k' = k₀ := by simpa [hw.get] using hk₀
      exact hr e' (.tail _ he') hrst k hw.socket g hg hsg
        (htarget.trans (Socket.poll_endpoint hk)) (Socket.poll_to_synReceived hk hsyn hst)
    exact ih hpu hsu (fun e he => hes e (.tail _ he)) (hw.framed.phase.trans hph)
      (by rwa [hw.framed.incoming]) hru ht

/-- A segment is done with: where it is a SYN, a listener has taken it. -/
theorem pop (hp : Pending s w (g :: todo))
    (hg : g.isSyn → g.target.port ≠ 0 → ∃ h, (g, h) ∈ w.taken) : Pending s w todo := by
  refine ⟨(List.suffix_cons g todo).trans hp.suffix, hp.distinct, hp.behind,
    fun g' hg' => hp.ready g' (.tail _ hg'), fun g' hg' => hp.fresh g' (.tail _ hg'),
    fun g' hg' => hp.unowned g' (.tail _ hg'), fun r hr => hp.spared r (.tail _ hr),
    fun g' hg' hsg hport => ?_, hp.own⟩
  obtain hmem | hmem := hp.covered g' hg' hsg hport
  · obtain rfl | hmem := List.mem_cons.mp hmem
    · exact .inr (hg hsg hport)
    · exact .inl hmem
  · exact .inr hmem

theorem target_ne (hp : Pending s w (g :: todo)) (hsg : g.isSyn) {g' : TcpSegment}
    (hg' : g' ∈ todo) (hsg' : g'.isSyn) : g'.target ≠ g.target := by
  have hpair := hp.distinct.sublist hp.suffix.sublist
  exact (List.pairwise_cons.mp hpair).1 g' hg' hsg hsg'

/-- A RST behind a SYN does not come from where the SYN came from. -/
theorem source_ne (hp : Pending s w (g :: todo)) (hsg : g.isSyn) {r : TcpSegment} (hr : r ∈ todo)
    (hrst : r.control = .rst) (htarget : r.target = g.target) : r.source ≠ g.source := by
  have hpair := hp.behind.sublist hp.suffix.sublist
  exact (List.pairwise_cons.mp hpair).1 r hr hsg hrst htarget

/-- A SYN is taken by a listening socket, which is the listener of its destination. -/
theorem syn (hp : Pending s w (g :: todo)) (hs : s.Owned) (hsg : g.isSyn)
    (hk : s.sockets.get h = some (.tcp k)) (hl : k.state = .listen) (ha : k.accepts g)
    (h' : s.poll h (.syn g.source) = some t) :
    Pending t { w with taken := (g, h) :: w.taken } todo := by
  obtain ⟨k₀, k', hw, hkk, -⟩ := worked_of_poll h'
  obtain rfl : k = k₀ := by simpa [hw.socket] using hk.symm
  obtain ⟨-, hend⟩ := (Socket.accepts_of_listen hl).mp ha
  have hfree := hp.unowned g (.head _) hsg h k hk hl hend
  have hb : s.tcpListeners.byHandle h = some g.target := by
    obtain hb | hf := hs.tcpOwner h k hk
    · obtain ⟨target, hb⟩ := Option.isSome_iff_exists.mp hb
      obtain ⟨k₀, hk₀, he⟩ := hs.tcpListener h target hb
      obtain rfl : k = k₀ := by simpa [hk] using hk₀
      rw [hb, ← he, hend]
    · simp [hfree] at hf
  obtain ⟨-, rfl⟩ := when_eq_some.mp hkk
  have hget (i : ℕ) := hw.get (i := i)
  have hbefore {i : ℕ} {k₀ : Socket} (hi : t.sockets.get i = some (.tcp k₀)) (hne : i ≠ h) :
      s.sockets.get i = some (.tcp k₀) := by
    rwa [hget, if_neg hne] at hi
  have hself {k₀ : Socket} (hi : t.sockets.get h = some (.tcp k₀)) : k₀ =
      { k with state := .synReceived, tuple := some g.source, synAckSent := false } := by
    simpa [hget] using hi.symm
  refine ⟨(List.suffix_cons g todo).trans hp.suffix, hp.distinct, hp.behind, ?_, ?_, ?_, ?_, ?_, ?_⟩
  · intro g' hg' hsg' hport
    obtain ⟨i, k₀, hb', hi, hl'⟩ := hp.ready g' (.tail _ hg') hsg' hport
    have hne : i ≠ h := by
      rintro rfl
      have he : some g'.target = some g.target := ((hs.tcpInverse _ _).mp hb').symm.trans hb
      exact hp.target_ne hsg hg' hsg' (Option.some.inj he)
    rw [hw.framed.tcpListeners]
    exact ⟨i, k₀, hb', by simp [hget, hne, hi], hl'⟩
  · intro g' hg' hsg' i k₀ hi hl' ha'
    by_cases hih : i = h
    · subst i
      obtain rfl := hself hi
      have he := ((Socket.accepts_of_connection hl').mp ha').2.1
      exact hp.target_ne hsg hg' hsg' (he.symm.trans hend)
    · exact hp.fresh g' (.tail _ hg') hsg' i k₀ (hbefore hi hih) hl' ha'
  · intro g' hg' hsg' i k₀ hi hl' he
    have hih : i ≠ h := by
      rintro rfl
      rw [hself hi] at hl'
      cases hl'
    rw [hw.others i hih]
    exact hp.unowned g' (.tail _ hg') hsg' i k₀ (hbefore hi hih) hl' he
  · intro r hr hrst g' hg' hsg' htarget
    have hall := hp.spared r (.tail _ hr) hrst g' hg' hsg' htarget
    intro i k₀ hi hst ha'
    by_cases hih : i = h
    · subst i
      obtain rfl := hself hi
      obtain ⟨-, he, htu⟩ := (Socket.accepts_of_connection (by simp)).mp ha'
      exact hp.source_ne hsg hr hrst (he.symm.trans hend) (Option.some.inj htu).symm
    · exact hall i k₀ (hbefore hi hih) hst ha'
  · intro g' hg' hsg' hport
    obtain hmem | ⟨i, hmem⟩ := hp.covered g' hg' hsg' hport
    · obtain rfl | hmem := List.mem_cons.mp hmem
      · exact .inr ⟨h, .head _⟩
      · exact .inl hmem
    · exact .inr ⟨i, .tail _ hmem⟩
  · intro g' i hmem
    obtain hmem | hmem := List.mem_cons.mp hmem
    · obtain ⟨rfl, rfl⟩ := Prod.mk.inj hmem
      exact ⟨hsg, hp.mem_segments (.head _), hw.framed.tcpListeners ▸ hb, _,
        (hget _).trans (if_pos rfl), rfl, rfl⟩
    · obtain ⟨hsg', hseg, hb', k₀, hi, hst, htu⟩ := hp.own g' i hmem
      have hih : i ≠ h := by
        rintro rfl
        obtain rfl : k = k₀ := by simpa [hk] using hi
        simp [hl] at hst
      exact ⟨hsg', hseg, hw.framed.tcpListeners ▸ hb', k₀, by simp [hget, hih, hi], hst, htu⟩

theorem congr (hp : Pending s w todo) (hk : t.sockets = s.sockets)
    (hl : t.tcpListeners = s.tcpListeners) (hf : t.tcpFlows = s.tcpFlows) : Pending t w todo := by
  refine ⟨hp.suffix, hp.distinct, hp.behind, ?_, ?_, ?_, ?_, hp.covered, fun g h hmem => ?_⟩
  · rw [hk, hl]
    exact hp.ready
  · rw [hk]
    exact hp.fresh
  · rw [hk, hf]
    exact hp.unowned
  · rw [hk]
    exact hp.spared
  · obtain ⟨hsg, hseg, hb, hsock⟩ := hp.own g h hmem
    exact ⟨hsg, hseg, hl ▸ hb, hk ▸ hsock⟩

theorem demux (hp : Pending s w (g :: todo)) (hs : s.Owned) (hsg : g.isSyn)
    (hport : g.target.port ≠ 0) : ∃ h, s.demux g = some h := by
  obtain ⟨h, k, hb, hk, hl⟩ := hp.ready g (.head _) hsg hport
  obtain ⟨k₀, hk₀, hend⟩ := hs.tcpListener h g.target ((hs.tcpInverse _ _).mp hb)
  obtain rfl : k = k₀ := by simpa [hk] using hk₀
  have hsyn : g.control = .syn ∧ ¬ g.ack := by simpa [TcpSegment.isSyn] using hsg
  have ha : k.accepts g := (Socket.accepts_of_listen hl).mpr ⟨hsyn.2, hend⟩
  rw [← Option.ne_none_iff_exists']
  intro hn
  exact Slots.find_eq_none.mp hn h (.tcp k) hk ha

variable {R : PacketReader} {p : Packet} {es : List PollEvent}

theorem receive (hp : Pending s w (g :: todo)) (hs : s.Listening) (hph : s.phase = .polling)
    (hin : s.incoming.head? = some p) (hg : R.segment p = some g)
    (h' : s.receive R p es = some t) : Pending t (w.record R s (.ingress es)) todo := by
  have hne : s.incoming ≠ [] := by
    rintro hn
    simp [hn] at hin
  unfold StackState.receive at h'
  unfold Batch.record
  simp only [hg, hin, Option.bind_some] at h' ⊢
  cases hd : s.demux g with
  | none =>
    simp only [hd, Option.some.injEq] at h' ⊢
    subst t
    have hsyn (hsg : g.isSyn) (hport : g.target.port ≠ 0) : ∃ h, (g, h) ∈ w.taken := by
      obtain ⟨h, hh⟩ := hp.demux hs.owned hsg hport
      simp [hd] at hh
    have hpop := hp.pop hsyn
    split_ifs
    · exact hpop
    · exact ⟨hpop.suffix, hpop.distinct, hpop.behind, hpop.ready, hpop.fresh, hpop.unowned,
        hpop.spared, hpop.covered, hpop.own⟩
  | some h =>
    simp only [hd] at h' ⊢
    obtain ⟨x, hx, hacc⟩ := Slots.get_of_find hd
    obtain ⟨k, rfl⟩ : ∃ k, x = .tcp k := by
      cases x with
      | tcp k => exact ⟨k, rfl⟩
      | udp bound => cases hacc
    have hk := tcpSocket_eq_some.mpr hx
    simp only [hk, Option.any_some, decide_eq_true_eq] at h' ⊢
    by_cases hl : k.state = .listen
    · by_cases hsg : g.isSyn
      · simp only [hl, hsg, if_true, and_self] at h' ⊢
        exact hp.syn hs.owned hsg hx hl hacc h'
      · simp only [hl, hsg, if_true, Bool.false_eq_true, if_false, and_false,
          Option.some.injEq] at h' ⊢
        subst t
        exact hp.pop fun hsg' => absurd hsg' hsg
    · have hsg : ¬ g.isSyn := fun hsg => hp.fresh g (.head _) hsg h k hx hl hacc
      simp only [hl, if_false, false_and] at h' ⊢
      split_ifs at h' with hes
      have hev (e : PollEvent) (he : e ∈ es) : g.allows e := List.all_eq_true.mp hes e he
      have hr (e : PollEvent) (he : e ∈ es) : Harmless s w h e := by
        rintro rfl k₀ hk₀ g' hg' hsg' htarget hst
        obtain rfl : k = k₀ := by simpa [hx] using hk₀
        have hrst : g.control = .rst := by simpa [TcpSegment.allows] using hev _ he
        have hend := ((Socket.accepts_of_connection hl).mp hacc).2.1
        exact hp.spared g (.head _) hrst g' hg' hsg' (hend.symm.trans htarget.symm) h k hx hst hacc
      have hall := hp.pollAll hs (fun e he => Listening.allows_event (hev e he)) hph hne hr h'
      exact hall.pop fun hsg' => absurd hsg' hsg

theorem ingress (hp : Pending s w (pending R s)) (hs : s.Listening) (hph : s.phase = .polling)
    (h' : s.ingress R es = some t) :
    Pending t (w.record R s (.ingress es)) (pending R t) := by
  unfold StackState.ingress at h'
  split at h'
  · cases h'
  · rename_i p rest hin
    obtain ⟨u, hu, rfl⟩ := Option.map_eq_some_iff.mp h'
    have hhead : s.incoming.head? = some p := by simp [hin]
    have hpend : pending R { u with incoming := rest } = rest.filterMap R.segment := rfl
    rw [hpend]
    cases hg : R.segment p with
    | none =>
      have hsame : u = s := by
        simpa [StackState.receive, hg, eq_comm] using hu
      have htodo : pending R s = rest.filterMap R.segment := by
        simp [pending, hin, hg]
      have hrec : w.record R s (.ingress es) = w := by
        simp [Batch.record, hhead, hg]
      rw [hrec, ← htodo]
      subst u
      exact hp.congr rfl rfl rfl
    | some g =>
      have htodo : pending R s = g :: rest.filterMap R.segment := by
        simp [pending, hin, hg]
      rw [htodo] at hp
      exact (hp.receive hs hph hhead hg hu).congr rfl rfl rfl

/-- What is refused is no SYN that can be listened for. -/
theorem refused (hp : Pending s w (pending R s)) (hs : s.Listening) {r : TcpSegment}
    (hr : r ∈ (w.record R s (.ingress es)).refused) (hsg : r.isSyn) (hn : r ∉ w.refused) :
    r.target.port = 0 := by
  unfold Batch.record at hr
  simp only at hr
  split at hr
  · exact absurd hr hn
  · rename_i g hhead
    obtain ⟨p, hp', hg⟩ := Option.bind_eq_some_iff.mp hhead
    obtain ⟨rest, hin⟩ := List.head?_eq_some_iff.mp hp'
    have htodo : pending R s = g :: rest.filterMap R.segment := by
      simp [pending, hin, hg]
    rw [htodo] at hp
    split at hr
    · rename_i hd
      split_ifs at hr
      · exact absurd hr hn
      · obtain rfl | hr := List.mem_cons.mp hr
        · by_contra hport
          obtain ⟨h, hh⟩ := hp.demux hs.owned hsg hport
          simp [hd] at hh
        · exact absurd hr hn
    · split_ifs at hr
      all_goals exact absurd hr hn

end Pending

/-- New sockets listen, and listeners stay. -/
structure Drained (s t : StackState) : Prop where
  sockets : ∀ i k, t.sockets.get i = some (.tcp k) →
    s.sockets.get i = some (.tcp k) ∨ k.state = .listen
  listeners : ∀ target i x, s.tcpListeners.byTarget target = some i → s.sockets.get i = some x →
    t.tcpListeners.byTarget target = some i ∧ t.sockets.get i = some x

theorem drained_ensureTcpListener (s : StackState) (target : Endpoint) :
    Drained s (s.ensureTcpListener target) := by
  obtain ⟨sockets, ht, hg, -⟩ | ⟨h, k, sockets, ht, hb, hl, hn, hg⟩ :=
    ensureTcpListener_cases s target
  · rw [ht]
    exact ⟨fun i k hi => .inl (by simpa [hg] using hi),
      fun _ i x hb hi => ⟨hb, by simpa [hg] using hi⟩⟩
  · rw [ht]
    constructor
    · intro i k₀ hi
      dsimp only at hi
      rw [hg] at hi
      split_ifs at hi
      · obtain ⟨-, rfl⟩ := when_eq_some.mp hl
        obtain rfl := SetSocket.tcp.inj (Option.some.inj hi)
        exact .inr rfl
      · exact .inl hi
    · intro target' i x hb' hi
      have hne : target' ≠ target := by
        rintro rfl
        simp [hb] at hb'
      have hih : i ≠ h := by
        rintro rfl
        simp [hn] at hi
      exact ⟨by simpa [Listeners.insert, hne] using hb', by simpa [hg, hih] using hi⟩

theorem drained_ensureUdpListener (s : StackState) (target : Endpoint) :
    Drained s (s.ensureUdpListener target) := by
  obtain ⟨sockets, ht, hg, -⟩ | ⟨h, sockets, ht, hb, -, hn, hg⟩ :=
    ensureUdpListener_cases s target
  · rw [ht]
    exact ⟨fun i k hi => .inl (by simpa [hg] using hi),
      fun _ i x hb hi => ⟨hb, by simpa [hg] using hi⟩⟩
  · rw [ht]
    constructor
    · intro i k₀ hi
      dsimp only at hi
      rw [hg] at hi
      split_ifs at hi
      · cases hi
      · exact .inl hi
    · intro target' i x hb' hi
      have hih : i ≠ h := by
        rintro rfl
        simp [hn] at hi
      exact ⟨hb', by simpa [hg, hih] using hi⟩

theorem drained_drain (s : StackState) (p : Packet) : Drained s (s.drain p) := by
  unfold drain
  split
  · rename_i protocol addr port hip
    split_ifs
    · have hd := drained_ensureTcpListener s ⟨addr, port⟩
      exact ⟨hd.sockets, hd.listeners⟩
    · have hd := drained_ensureUdpListener s ⟨addr, port⟩
      exact ⟨hd.sockets, hd.listeners⟩
    · exact ⟨fun _ _ hi => .inl hi, fun _ _ _ hb hi => ⟨hb, hi⟩⟩
  · exact ⟨fun _ _ hi => .inl hi, fun _ _ _ hb hi => ⟨hb, hi⟩⟩

theorem drain_phase (s : StackState) (p : Packet) : (s.drain p).phase = s.phase := by
  unfold drain
  split
  · rename_i protocol addr port hip
    split_ifs
    · obtain ⟨_, h, -⟩ | ⟨_, _, _, h, -⟩ := ensureTcpListener_cases s ⟨addr, port⟩
      all_goals simp only [h]
    · obtain ⟨_, h, -⟩ | ⟨_, _, h, -⟩ := ensureUdpListener_cases s ⟨addr, port⟩
      all_goals simp only [h]
    · rfl
  · rfl

theorem pending_drain (R : PacketReader) (s : StackState) (p : Packet) :
    pending R (s.drain p) = pending R s ++ (R.segment p).toList := by
  have happend : (s.incoming ++ [p]).filterMap R.segment =
      pending R s ++ (R.segment p).toList := by
    cases hg : R.segment p <;> simp [pending, hg]
  unfold drain
  split
  · rename_i protocol addr port hip
    split_ifs with htcp hudp
    · exact happend
    · exact happend
    · cases hg : R.segment p with
      | none => simp
      | some g =>
        have ht := R.target p g hg
        rw [hip] at ht
        simp only [Option.some.injEq, Prod.mk.injEq] at ht
        exact absurd ht.1 htcp
  · rename_i hip
    cases hg : R.segment p with
    | none => simp
    | some g =>
      have ht := R.target p g hg
      rw [hip] at ht
      cases ht

/-- Where there is a port to listen on, the destination of a drained SYN has a listener. -/
theorem listener_of_drain {R : PacketReader} {p : Packet} {g : TcpSegment}
    (hg : R.segment p = some g) (hport : g.target.port ≠ 0) :
    ((s.drain p).tcpListeners.byTarget g.target).isSome := by
  unfold drain
  simp only [R.target p g hg, if_true, Listeners.touch]
  obtain ⟨sockets, ht, -, hb | hp⟩ | ⟨h, k, sockets, ht, -⟩ := ensureTcpListener_cases s g.target
  · rw [ht]
    exact hb
  · exact absurd hp hport
  · rw [ht]
    simp [Listeners.insert]

theorem not_accepts_of_anySocket {r : TcpSegment} {q : Socket → Bool}
    (hn : ¬ s.anySocket fun k => q k && k.accepts r) (hk : s.sockets.get h = some (.tcp k))
    (hq : q k) : ¬ k.accepts r := by
  intro ha
  exact not_anySocket hn hk (by simp [hq, ha])

theorem Pending.drain {R : PacketReader} {w : Batch} {p : Packet}
    (hp : Pending s w (pending R s)) (hw : w.taken = []) (hs : s.Listening)
    (hph : s.phase = .draining) (hc : NoClash R (s, w) (.packet p)) :
    Pending (s.drain p) (w.record R s (.packet p)) (pending R (s.drain p)) := by
  have hd := drained_drain s p
  have ht := hs.drain hph p
  have htp : (s.drain p).phase = .draining := (drain_phase s p).trans hph
  have hlisten (target : Endpoint) (i : ℕ)
      (hb : (s.drain p).tcpListeners.byTarget target = some i) :
      ∃ k, (s.drain p).sockets.get i = some (.tcp k) ∧ k.state = .listen := by
    have hb' := (ht.owned.tcpInverse _ _).mp hb
    obtain ⟨k, hk, -⟩ := ht.owned.tcpListener i target hb'
    exact ⟨k, hk, listen_of_listenerSocket (ht.listener i target k hb' hk) (by simp [htp])
      (by simp [htp])⟩
  have hold {i : ℕ} {k : Socket} (hi : (s.drain p).sockets.get i = some (.tcp k))
      (hl : k.state ≠ .listen) : s.sockets.get i = some (.tcp k) :=
    (hd.sockets i k hi).resolve_right hl
  have hsegs : (w.record R s (.packet p)).segments = w.segments ++ (R.segment p).toList := rfl
  have htaken : (w.record R s (.packet p)).taken = [] := hw
  have hspares {r g : TcpSegment} (hsp : Spares s r g) (htarget : r.target = g.target) :
      ∀ i k, (s.drain p).sockets.get i = some (.tcp k) → k.state = .synReceived →
        ¬ k.accepts r := by
    intro i k hi hst
    exact not_accepts_of_anySocket (hsp htarget) (hold hi (by simp [hst])) (by simp [hst])
  rw [pending_drain]
  refine ⟨?_, ?_, ?_, ?_, ?_, ?_, ?_, ?_, ?_⟩
  · obtain ⟨done, hdone⟩ := hp.suffix
    exact ⟨done, by rw [hsegs, ← hdone, List.append_assoc]⟩
  · rw [hsegs]
    refine List.pairwise_append.mpr ⟨hp.distinct, ?_, fun g' hg' g hg hsg' hsg he => ?_⟩
    · cases R.segment p <;> simp
    · exact (((hc g (Option.mem_toList.mp hg)).1 hsg).2 g' hg').1 hsg' he.symm
  · rw [hsegs]
    refine List.pairwise_append.mpr ⟨hp.behind, ?_, fun g hg r hr hsg hrst => ?_⟩
    · cases R.segment p <;> simp
    · exact ((hc r (Option.mem_toList.mp hr)).2 hrst g hg hsg).1
  · intro g hg hsg hport
    have hb : ∃ i, (s.drain p).tcpListeners.byTarget g.target = some i := by
      obtain hg | hg := List.mem_append.mp hg
      · obtain ⟨i, k, hb, hi, -⟩ := hp.ready g hg hsg hport
        exact ⟨i, (hd.listeners _ i _ hb hi).1⟩
      · exact Option.isSome_iff_exists.mp (listener_of_drain (Option.mem_toList.mp hg) hport)
    obtain ⟨i, hb⟩ := hb
    obtain ⟨k, hk, hl⟩ := hlisten g.target i hb
    exact ⟨i, k, hb, hk, hl⟩
  · intro g hg hsg i k hi hl
    obtain hg | hg := List.mem_append.mp hg
    · exact hp.fresh g hg hsg i k (hold hi hl) hl
    · have hany := ((hc g (Option.mem_toList.mp hg)).1 hsg).1
      exact not_accepts_of_anySocket hany (hold hi hl) (by simp [hl])
  · intro g hg hsg i k hi hl he
    by_contra hf
    obtain ⟨f, hf⟩ := Option.ne_none_iff_exists'.mp hf
    have hm := ht.flow i f k hf hi hl
    rw [htp] at hm
    exact hm
  · intro r hr hrst g hg hsg htarget
    obtain hr | hr := List.mem_append.mp hr
    · obtain hg | hg := List.mem_append.mp hg
      · have hall := hp.spared r hr hrst g hg hsg htarget
        exact fun i k hi hst => hall i k (hold hi (by simp [hst])) hst
      · have hsp := (((hc g (Option.mem_toList.mp hg)).1 hsg).2 r (hp.mem_segments hr)).2 hrst
        exact hspares hsp htarget
    · obtain hg | hg := List.mem_append.mp hg
      · exact hspares ((hc r (Option.mem_toList.mp hr)).2 hrst g hg hsg).2 htarget
      · obtain rfl : r = g :=
          Option.some.inj ((Option.mem_toList.mp hr).symm.trans (Option.mem_toList.mp hg))
        simp [TcpSegment.isSyn, hrst] at hsg
  · intro g hg hsg hport
    obtain hg | hg := List.mem_append.mp hg
    · obtain hmem | ⟨h, hmem⟩ := hp.covered g hg hsg hport
      · exact .inl (List.mem_append_left _ hmem)
      · simp [hw] at hmem
    · exact .inl (List.mem_append_right _ hg)
  · intro g h hmem
    simp [htaken] at hmem

end StackState

end NulConnect.TunStack
