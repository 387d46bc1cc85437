import NulConnect.UdpFlows.Table

/-! Where the datagrams of the app are: in the flows of their source and destination, in the
hand of the pass that reads them, and in the socket of their destination, in the order in which
they were sent. -/
namespace NulConnect.UdpFlows
open Transition TunStack

def Flow.isBetween (source target : Endpoint) (f : Flow) : Bool :=
  f.source = source && f.target = target

/-- The datagrams of a source. -/
def datagramsOf (source : Endpoint) (ds : List (Endpoint × Datagram)) : List Datagram :=
  (ds.filter (·.1 = source)).map Prod.snd

namespace State

variable {s t : State} {a : Action} {i : ℕ} {f f' : Flow} {h : ℕ} {k : UdpSocket}
  {source target : Endpoint} {data : Datagram}

/-- What the app has sent from a source to a destination. -/
def sentOf (s : State) (source target : Endpoint) : List Datagram :=
  (s.sent.filter fun p => p.source = source && p.target = target).map Sent.data

/-- What the flows between them have taken on, one flow after another. -/
def carriedOf (s : State) (source target : Endpoint) : List Datagram :=
  (s.flows.filter (·.isBetween source target)).flatMap Flow.carried

/-- What the pass has read from the socket and not yet given to a flow. -/
def inHand (s : State) (source target : Endpoint) : List Datagram :=
  match s.phase with
  | .taking v ds => if v.target = target then datagramsOf source ds else []
  | _ => []

structure Ledger (s : State) : Prop where
  taken : ∀ source target,
    (s.carriedOf source target ++ s.inHand source target).Sublist (s.sentOf source target)
  queued : ∀ l ∈ s.listeners, ∀ k, s.sockets l.2 = some k → ∀ source,
    (s.carriedOf source l.1 ++ s.inHand source l.1 ++ datagramsOf source k.rx).Sublist
      (s.sentOf source l.1)

theorem ledger_initial (clock : Clock) : (initial clock).Ledger where
  taken _ _ := List.Sublist.refl []
  queued _ h := absurd h List.not_mem_nil

theorem carriedOf_setFlow (hf : s.flows[i]? = some f) (hsource : f'.source = f.source)
    (htarget : f'.target = f.target) (hc : f'.carried = f.carried) (source target : Endpoint) :
    (s.setFlow i f').carriedOf source target = s.carriedOf source target := by
  refine Log.flatMap_set hf ?_ hc
  rw [Flow.isBetween, hsource, htarget, Flow.isBetween]

namespace Ledger

/-- Changes that leave the datagrams where they are. -/
theorem congr (hl : s.Ledger) (hc : ∀ source target, t.carriedOf source target =
      s.carriedOf source target)
    (hi : ∀ source target, t.inHand source target = s.inHand source target)
    (hlist : t.listeners = s.listeners) (hsock : t.sockets = s.sockets) (hsent : t.sent = s.sent) :
    t.Ledger := by
  have hs (source target : Endpoint) : t.sentOf source target = s.sentOf source target := by
    rw [sentOf, hsent, sentOf]
  constructor
  · intro source target
    rw [hc, hi, hs]
    exact hl.taken source target
  · intro l hll k hk source
    rw [hc, hi, hs]
    rw [hlist] at hll
    rw [hsock] at hk
    exact hl.queued l hll k hk source

/-- A step on a flow at its place, after which the loop goes on to a phase. -/
theorem setFlow (hl : s.Ledger) (hf : s.flows[i]? = some f) (hsame : f.Same f')
    (hc : f'.carried = f.carried) {p : Phase}
    (hp : ∀ source target, { s with phase := p }.inHand source target = s.inHand source target)
    (up down : UInt64) :
    { s.setFlow i f' with phase := p, uploadBytes := up, downloadBytes := down }.Ledger :=
  hl.congr (fun source target => carriedOf_setFlow hf hsame.source hsame.target hc source target) hp
    rfl rfl rfl

theorem move (hl : s.Ledger) {p : Phase} (clock : Clock)
    (hp : ∀ source target, { s with phase := p }.inHand source target = s.inHand source target) :
    { s with phase := p, clock := clock }.Ledger :=
  hl.congr (fun _ _ => rfl) hp rfl rfl rfl

theorem listen (hl : s.Ledger) : { s with
      listeners := s.listeners ++ [(target, h)]
      sockets := Function.update s.sockets h (some ⟨target, []⟩) }.Ledger := by
  refine ⟨hl.taken, fun l hmem k hk source => ?_⟩
  by_cases hlh : l.2 = h
  · have hkeq : (⟨target, []⟩ : UdpSocket) = k := by simpa [hlh] using hk
    subst hkeq
    show (_ ++ datagramsOf source []).Sublist _
    rw [show datagramsOf source [] = [] from rfl, List.append_nil]
    exact hl.taken source l.1
  · obtain hold | hnew := List.mem_append.mp hmem
    · exact hl.queued l hold k (by simpa [hlh] using hk) source
    · obtain rfl := List.mem_singleton.mp hnew
      exact absurd rfl hlh

theorem sweep (hl : s.Ledger) : { s with
      listeners := s.listeners.erase (target, h)
      sockets := Function.update s.sockets h none }.Ledger := by
  refine ⟨hl.taken, fun l hmem k hk source => ?_⟩
  have hlh : l.2 ≠ h := by
    intro heq
    rw [heq] at hk
    simp at hk
  exact hl.queued l (List.mem_of_mem_erase hmem) k (by simpa [hlh] using hk) source

theorem arrive {p : Sent} {handle : Option ℕ} (hl : s.Ledger) (hs : s.Kept)
    (h' : s.arrive p handle = some t) : t.Ledger := by
  have hgrow (source target : Endpoint) : (s.sentOf source target).Sublist
      ({ s with sent := s.sent ++ [p] }.sentOf source target) := by
    show (s.sentOf source target).Sublist (List.map _ (List.filter _ (s.sent ++ [p])))
    rw [List.filter_append, List.map_append]
    exact List.sublist_append_left _ _
  have hkept : { s with sent := s.sent ++ [p] }.Ledger :=
    ⟨fun source target => (hl.taken source target).trans (hgrow source target),
      fun l hmem k hk source => (hl.queued l hmem k hk source).trans (hgrow source l.1)⟩
  cases handle with
  | none =>
    obtain rfl := Option.some.inj h'
    exact hkept
  | some h =>
    simp only [State.arrive] at h'
    split at h'
    · rename_i k hk
      obtain ⟨hb, rfl⟩ := when_eq_some.mp h'
      refine ⟨hkept.taken, fun l hmem k' hk' source => ?_⟩
      by_cases hlh : l.2 = h
      · obtain rfl : { k with rx := k.rx ++ [(p.source, p.data)] } = k' := by
          simpa [hlh] using hk'
        have hkl : s.sockets l.2 = some k := by rw [hlh, hk]
        have htarget : p.target = l.1 := hb.symm.trans (hs.socket hmem hkl)
        have hold := hl.queued l hmem k hkl source
        show (_ ++ datagramsOf source (k.rx ++ [(p.source, p.data)])).Sublist
          (List.map _ (List.filter _ (s.sent ++ [p])))
        rw [datagramsOf, List.filter_append, List.map_append, List.filter_append, List.map_append,
          ← List.append_assoc]
        refine List.Sublist.append hold ?_
        by_cases hsource : p.source = source
        · simp [hsource, htarget]
        · simp [hsource]
      · exact hkept.queued l hmem k' (by simpa [hlh] using hk') source
    · cases h'

/-- The pass takes what is in a socket into its hand. -/
theorem visit (hl : s.Ledger) (hs : s.Kept) (h' : s.visit target h = some t) : t.Ledger := by
  unfold State.visit at h'
  split at h'
  · rename_i rest k hp hk
    obtain ⟨hmem, rfl⟩ := when_eq_some.mp h'
    have hlist : (target, h) ∈ s.listeners := by
      have hpl := hs.placed
      rw [hp] at hpl
      exact hpl hmem
    have hnone (source target' : Endpoint) : s.inHand source target' = [] := by
      rw [inHand, hp]
    have hown (source : Endpoint) :
        (s.carriedOf source target ++ datagramsOf source k.rx).Sublist
          (s.sentOf source target) := by
      have hq := hl.queued _ hlist k hk source
      rwa [hnone, List.append_nil] at hq
    have hold (source target' : Endpoint) :
        (s.carriedOf source target').Sublist (s.sentOf source target') := by
      have ht := hl.taken source target'
      rwa [hnone, List.append_nil] at ht
    constructor
    · intro source target'
      show (s.carriedOf source target' ++ if target = target' then _ else _).Sublist _
      split_ifs with heq
      · subst heq
        exact hown source
      · rw [List.append_nil]
        exact hold source target'
    · intro l hmem' k' hk' source
      show (s.carriedOf source l.1 ++ (if target = l.1 then _ else _) ++ _).Sublist _
      by_cases hlh : l.2 = h
      · obtain rfl : l = (target, h) := hs.eq_of_handle hmem' hlist hlh
        obtain rfl : { k with rx := [] } = k' := by simpa using hk'
        rw [if_pos rfl, show datagramsOf source [] = [] from rfl, List.append_nil]
        exact hown source
      · have hne : target ≠ l.1 := by
          rintro rfl
          have heq := List.inj_on_of_nodup_map hs.keys hmem' hlist rfl
          exact hlh (congrArg Prod.snd heq)
        have hq := hl.queued l hmem' k' (by simpa [hlh] using hk') source
        rw [hnone] at hq
        rw [if_neg hne]
        exact hq
  · cases h'

end Ledger

theorem carriedOf_openFlow (s : State) (key : UdpKey) (destination source target : Endpoint) :
    (s.openFlow key destination).carriedOf source target = s.carriedOf source target := by
  unfold openFlow
  split_ifs
  · show List.flatMap _ (List.filter _ (s.flows ++ [_])) = _
    rw [List.filter_append, List.flatMap_append]
    have hnone : ([Flow.opened key destination s.clock.wall].filter
        (·.isBetween source target)).flatMap Flow.carried = [] := by
      rw [List.filter_cons]
      split_ifs
      all_goals rfl
    rw [hnone, List.append_nil]
    rfl
  · rfl

/-- A datagram that is accepted comes after all that went between the same two before. -/
theorem carriedOf_acceptData (hs : s.Kept) (hno : s.phase.handed = none) {v : Visit}
    (hv : s.VisitIn v) (from_ : Endpoint) (data : Datagram) (source target : Endpoint) :
    (s.acceptData ⟨v.handle, from_⟩ data).carriedOf source target = s.carriedOf source target ∨
      from_ = source ∧ v.target = target ∧
        (s.acceptData ⟨v.handle, from_⟩ data).carriedOf source target =
          s.carriedOf source target ++ [data] := by
  unfold acceptData
  split
  · rename_i i hfind
    obtain ⟨f, hf, ht, hkey⟩ := find_eq_some hfind
    rw [hf]
    obtain ⟨-, -, hsame, hcar⟩ := Flow.accept_spec (hs.flow hf) (hs.settled i f hf (by simp [hno]))
      data s.clock.wall
    obtain hcar | hcar := hcar
    · exact .inl (carriedOf_setFlow hf hsame.source hsame.target hcar source target)
    · have hsource : f.source = from_ := by rw [(hs.flow hf).source, hkey]
      have htarget : f.target = v.target :=
        (hs.target_of_at hv hf ⟨f, hf, ht, by rw [hkey]⟩).1
      by_cases hpair : from_ = source ∧ v.target = target
      · obtain ⟨rfl, rfl⟩ := hpair
        refine .inr ⟨rfl, rfl, Log.flatMap_set_last hs.fresh hf (fun g hR => ?_) ?_ ?_ hcar⟩
        · by_contra hb
          have hb' : g.source = from_ ∧ g.target = v.target := by
            simpa [Flow.isBetween] using hb
          refine hR ?_ ht
          rw [Flow.pair, Flow.pair, hsource, htarget, hb'.1, hb'.2]
        · simp [Flow.isBetween, hsource, htarget]
        · simp [Flow.isBetween, hsame.source, hsame.target, hsource, htarget]
      · refine .inl ?_
        have hout : f.isBetween source target = false := by
          simpa [Flow.isBetween, hsource, htarget] using hpair
        refine Log.flatMap_set_of_not hf hout ?_
        rw [Flow.isBetween, hsame.source, hsame.target]
        exact hout
  · exact .inl rfl

namespace Ledger

theorem take (hl : s.Ledger) (hs : s.Kept) (h' : s.take = some t) : t.Ledger := by
  unfold State.take at h'
  split at h'
  · rename_i v from_ data ds hp
    obtain rfl := Option.some.inj h'
    have hv : s.VisitIn v := by
      have hpl := hs.placed
      rw [hp] at hpl
      exact hpl
    let u : State := { s with phase := .taking v ds }
    let w : State := u.openFlow ⟨v.handle, from_⟩ v.target
    have hu : u.Kept := hs.move (p := .taking v ds) hv rfl
      (fun i f hi => by simp [hp, Phase.handed] at hi) s.clock
    have hw : w.Kept := hu.openFlow rfl from_
    have hphase : w.phase = .taking v ds ∧ w.listeners = s.listeners ∧ w.sockets = s.sockets ∧
        w.sent = s.sent := by
      simp only [w, State.openFlow]
      split_ifs
      all_goals exact ⟨rfl, rfl, rfl, rfl⟩
    have haccept : (w.acceptData ⟨v.handle, from_⟩ data).phase = w.phase ∧
        (w.acceptData ⟨v.handle, from_⟩ data).listeners = w.listeners ∧
        (w.acceptData ⟨v.handle, from_⟩ data).sockets = w.sockets ∧
        (w.acceptData ⟨v.handle, from_⟩ data).sent = w.sent := by
      unfold State.acceptData
      split
      · split
        all_goals exact ⟨rfl, rfl, rfl, rfl⟩
      · exact ⟨rfl, rfl, rfl, rfl⟩
    -- what is accepted was the first in hand, and what is not is lost
    have hmoved (source target : Endpoint) :
        ((w.acceptData ⟨v.handle, from_⟩ data).carriedOf source target ++
          (w.acceptData ⟨v.handle, from_⟩ data).inHand source target).Sublist
        (s.carriedOf source target ++ s.inHand source target) := by
      have hin : (w.acceptData ⟨v.handle, from_⟩ data).inHand source target =
          if v.target = target then datagramsOf source ds else [] := by
        rw [inHand, haccept.1, hphase.1]
      have hin' : s.inHand source target =
          if v.target = target then datagramsOf source ((from_, data) :: ds) else [] := by
        rw [inHand, hp]
      have hopen : w.carriedOf source target = s.carriedOf source target :=
        carriedOf_openFlow u _ _ source target
      have hvw : w.VisitIn v := by
        rw [VisitIn, hphase.2.1]
        exact hv
      rw [hin, hin']
      obtain hcar | ⟨rfl, rfl, hcar⟩ :=
        carriedOf_acceptData hw (by rw [hphase.1]; rfl) hvw from_ data source target
      · rw [hcar, hopen]
        refine (List.Sublist.refl _).append ?_
        split_ifs
        · exact ((List.sublist_cons_self _ ds).filter _).map _
        · exact List.Sublist.refl []
      · rw [hcar, hopen, if_pos rfl, if_pos rfl, List.append_assoc]
        refine (List.Sublist.refl _).append ?_
        simp [datagramsOf]
    constructor
    · intro source target
      rw [sentOf, haccept.2.2.2, hphase.2.2.2]
      exact (hmoved source target).trans (hl.taken source target)
    · intro l hmem k hk source
      rw [sentOf, haccept.2.2.2, hphase.2.2.2]
      rw [haccept.2.1, hphase.2.1] at hmem
      rw [haccept.2.2.1, hphase.2.2.1] at hk
      exact ((hmoved source l.1).append (List.Sublist.refl _)).trans (hl.queued l hmem k hk source)
  · cases h'

theorem step (hl : s.Ledger) (hs : s.Kept) (h' : s.step a = some t) : t.Ledger := by
  cases a with
  | listen target h =>
    obtain ⟨-, rfl⟩ := when_eq_some.mp h'
    exact hl.listen
  | sweep target h =>
    obtain ⟨-, rfl⟩ := when_eq_some.mp h'
    exact hl.sweep
  | arrive p handle =>
    simp only [State.step] at h'
    split_ifs at h'
    exact hl.arrive hs h'
  | beginPass clock =>
    obtain ⟨⟨hp, -⟩, rfl⟩ := when_eq_some.mp h'
    exact hl.move clock fun _ _ => by simp [inHand, hp]
  | visit target h => exact hl.visit hs h'
  | take => exact hl.take hs h'
  | endTake =>
    simp only [State.step] at h'
    split at h'
    · rename_i v hp
      obtain rfl := Option.some.inj h'
      exact hl.move s.clock fun _ _ => by simp [inHand, hp, datagramsOf]
    · cases h'
  | tryConnect i =>
    simp only [State.step, State.tryConnect] at h'
    split at h'
    · rename_i v left f hp hf
      obtain ⟨hi, rfl⟩ := when_eq_some.mp h'
      have hpl := hs.placed
      rw [hp] at hpl
      obtain ⟨-, ht⟩ := hs.target_of_at hpl.1 hf (hpl.2 i hi)
      obtain ⟨-, -, hsame, hcar⟩ := Flow.tryConnect_spec (hs.flow hf)
        (hs.settled i f hf (by simp [hp, Phase.handed])) ht
      exact hl.setFlow hf hsame hcar (fun _ _ => by simp [inHand, hp]) _ _
    · cases h'
  | handOver =>
    simp only [State.step, State.handOver] at h'
    split at h'
    · rename_i v left i hp
      split at h'
      · rename_i f hf
        obtain ⟨⟨f', n⟩, hf', rfl⟩ := Option.map_eq_some_iff.mp h'
        obtain ⟨-, -, hsame, hcar⟩ := Flow.handOver_spec (hs.flow hf)
          (hs.handing i f hf (by rw [hp]; rfl)) hf'
        exact hl.setFlow hf hsame hcar (fun _ _ => rfl) _ _
      · cases h'
    · cases h'
  | endHandOver =>
    simp only [State.step, State.endHandOver] at h'
    split at h'
    · rename_i v left i hp
      obtain ⟨-, rfl⟩ := when_eq_some.mp h'
      exact hl.move s.clock fun _ _ => by simp [inHand, hp]
    · cases h'
  | tryRecv taken =>
    simp only [State.step, State.tryRecv] at h'
    split at h'
    · rename_i v left i hp
      split at h'
      · rename_i f k hf hk
        obtain ⟨⟨f', n⟩, hf', rfl⟩ := Option.map_eq_some_iff.mp h'
        have hpl := hs.placed
        rw [hp] at hpl
        have hbound : k.bound = f.target :=
          (hs.socket hpl.1.1 hk).trans (hs.target_of_at hpl.1 hf hpl.2.2).1.symm
        obtain ⟨-, -, hsame, hcar⟩ := Flow.tryRecv_spec (hs.flow hf)
          (hs.settled i f hf (by simp [hp, Phase.handed])) hbound hf'
        exact hl.setFlow hf hsame hcar (fun _ _ => rfl) _ _
      · cases h'
    · cases h'
  | endRecv =>
    simp only [State.step, State.endRecv] at h'
    split at h'
    · rename_i v left i hp
      split at h'
      · rename_i f hf
        obtain ⟨f', hf', rfl⟩ := Option.map_eq_some_iff.mp h'
        obtain ⟨-, -, hsame, hcar⟩ := Flow.endRecv_spec (hs.flow hf)
          (hs.settled i f hf (by simp [hp, Phase.handed])) hf'
        exact hl.setFlow hf hsame hcar (fun _ _ => by simp [inHand, hp]) _ _
      · cases h'
    · cases h'
  | endServe =>
    simp only [State.step] at h'
    split at h'
    · rename_i v hp
      obtain rfl := Option.some.inj h'
      exact hl.move s.clock fun _ _ => by simp [inHand, hp]
    · cases h'
  | endVisits =>
    obtain ⟨hp, rfl⟩ := when_eq_some.mp h'
    exact hl.move s.clock fun _ _ => by simp [inHand, hp]
  | reap i =>
    simp only [State.step, State.reap] at h'
    split at h'
    · rename_i f hf
      obtain ⟨-, rfl⟩ := when_eq_some.mp h'
      have hsource : f.remove.source = f.source := rfl
      have htarget : f.remove.target = f.target := rfl
      have hcar : f.remove.carried = f.carried := rfl
      exact hl.congr (carriedOf_setFlow hf hsource htarget hcar) (fun _ _ => rfl) rfl rfl rfl
    · cases h'
  | endPass =>
    obtain ⟨⟨hp, -⟩, rfl⟩ := when_eq_some.mp h'
    exact hl.move s.clock fun _ _ => by simp [inHand, hp]
  | stop =>
    obtain ⟨hp, rfl⟩ := when_eq_some.mp h'
    refine hl.congr (fun source target => ?_) (fun _ _ => by simp [inHand, hp]) rfl rfl rfl
    show List.flatMap _ (List.filter _ (s.flows.map Flow.remove)) = _
    rw [List.filter_map, List.flatMap_map]
    rfl
  | thread i a =>
    obtain ⟨f, hf, h'⟩ := Option.bind_eq_some_iff.mp h'
    obtain ⟨f', hf', rfl⟩ := Option.map_eq_some_iff.mp h'
    obtain ⟨hsame, hp, -, hh, -⟩ := Flow.thread_frame hf'
    have hcar : f'.carried = f.carried := by rw [Flow.carried, hh, hp, Flow.carried]
    exact hl.setFlow hf hsame hcar (fun _ _ => rfl) _ _

end Ledger

theorem ledger_of_reachable (hs : passSystem.Reachable s) : s.Ledger := by
  refine hs.invariant ?_ ?_
  · rintro s ⟨clock, rfl⟩
    exact ledger_initial clock
  · intro s a t hr hl _ ht
    exact hl.step (kept_of_reachable hr) ht

/-- The datagrams of all UDP flows: what is written to a tunnel, what waits for one, what comes
back from it, and how many there are at a time. -/
structure Orderly (s : State) : Prop where
  written : ∀ f ∈ s.flows, f.written.Sublist (s.sentOf f.source f.target)
  /-- Nor is anything written for a second time by a flow that takes the place of another. -/
  once : ∀ source target, ((s.flows.filter (·.isBetween source target)).flatMap
    Flow.written).Sublist (s.sentOf source target)
  waiting : ∀ f ∈ s.flows, f.waited.length ≤ udpPendingDatagrams ∧ f.source = f.key.source
  handed : ∀ i f, s.flows[i]? = some f → f.uploadTx.isSome → s.phase.handed ≠ some i →
    f.pending = [] ∧ f.waited <+: f.handed
  replies : ∀ f ∈ s.flows, (f.delivered.map Reply.data).Sublist f.heard ∧
    ∀ r ∈ f.delivered, r.source = f.target ∧ r.target = f.source
  size : s.size ≤ maxUdpFlows

theorem orderly_of_reachable (hs : passSystem.Reachable s) : s.Orderly := by
  have hk := kept_of_reachable hs
  have hl := ledger_of_reachable hs
  have hwritten {f : Flow} (hf : f.Sound) : f.written.Sublist f.carried := by
    rw [Flow.carried, hf.handed, List.append_assoc, List.append_assoc]
    exact List.sublist_append_left _ _
  have honce (source target : Endpoint) : ((s.flows.filter (·.isBetween source target)).flatMap
      Flow.written).Sublist (s.sentOf source target) := by
    have hcar : ((s.flows.filter (·.isBetween source target)).flatMap Flow.written).Sublist
        (s.carriedOf source target) :=
      Log.flatMap_sublist fun f hf => hwritten (hk.sound f (List.mem_of_mem_filter hf))
    exact hcar.trans ((List.sublist_append_left _ _).trans (hl.taken source target))
  refine ⟨fun f hf => ?_, honce, fun f hf => ⟨(hk.sound f hf).waited, (hk.sound f hf).source⟩,
    fun i f hf hu hi => ?_, fun f hf => ⟨?_, (hk.sound f hf).delivered⟩, hk.size⟩
  · have hmem : f ∈ s.flows.filter (·.isBetween f.source f.target) :=
      List.mem_filter.mpr ⟨hf, by simp [Flow.isBetween]⟩
    exact (Log.sublist_flatMap_of_mem hmem).trans (honce f.source f.target)
  · have hp := hk.settled i f hf hi hu
    have hw := (hk.flow hf).after hu
    rw [Flow.carried, hp, List.append_nil] at hw
    exact ⟨hp, hw⟩
  · have hh := (hk.sound f hf).heard
    rw [List.append_assoc] at hh
    exact (List.sublist_append_left _ _).trans hh

private def app : Endpoint := ⟨.ofOctets 10 8 0 2, 50001⟩

private def resolver : Endpoint := ⟨.ofOctets 198 51 100 1, 53⟩

/-- Two datagrams wait for the tunnel, a third comes once it is connected, and the app gets an
answer to the first. -/
private def exchange : List Action :=
  [.listen resolver 0, .arrive ⟨app, resolver, [1]⟩ (some 0), .arrive ⟨app, resolver, [2]⟩ (some 0),
    .beginPass ⟨0, 0⟩, .visit resolver 0, .take, .take, .endTake, .tryConnect 0, .endHandOver,
    .endRecv, .endServe, .endVisits, .endPass,
    .thread 0 (.connectReturns true), .arrive ⟨app, resolver, [3]⟩ (some 0),
    .beginPass ⟨5, 5⟩, .visit resolver 0, .take, .endTake, .tryConnect 0, .handOver, .handOver,
    .handOver, .endHandOver, .endRecv, .endServe, .endVisits, .endPass,
    .thread 0 .write, .thread 0 .write, .thread 0 .write,
    .thread 0 (.read none), .thread 0 (.read (some [4])), .thread 0 (.read none),
    .beginPass ⟨9, 9⟩, .visit resolver 0, .endTake, .tryConnect 0, .endHandOver, .tryRecv true]

theorem orderly_exchange : ∃ s : State,
    s.flows.map (fun f => (f.waited, f.handed, f.written, f.delivered)) =
      [([[1], [2], [3]], [[1], [2], [3]], [[1]], [⟨resolver, app, [4]⟩])] ∧ s.Orderly := by
  have h0 : passSystem.Reachable (initial ⟨0, 0⟩) := .init ⟨_, rfl⟩
  have hr := h0.run exchange rfl
  exact ⟨_, rfl, orderly_of_reachable hr⟩

end State

end NulConnect.UdpFlows
