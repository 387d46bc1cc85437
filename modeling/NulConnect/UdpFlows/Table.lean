import NulConnect.UdpFlows.Pass
import NulConnect.UdpFlows.FlowSteps
import NulConnect.Transition.Log

/-! The table of UDP flows over the passes: each flow is found by the socket that its datagrams
come from and go to, no two flows in it stand for the same source and destination, and it does
not grow beyond `MAX_UDP_FLOWS`. -/
namespace NulConnect.UdpFlows
open Transition TunStack

/-- The source and the destination of the datagrams of a flow. -/
def Flow.pair (f : Flow) : Endpoint × Endpoint := (f.source, f.target)

/-- The flow that the loop is handing the waiting datagrams of to its writer. -/
def Phase.handed : Phase → Option ℕ
  | .handing _ _ i => some i
  | _ => none

namespace State

variable {s t : State} {a : Action} {i : ℕ} {f f' : Flow} {h : ℕ} {k : UdpSocket}
  {target : Endpoint} {key : UdpKey}

/-- The flow is in the table under a handle. -/
def At (s : State) (handle : ℕ) (i : ℕ) : Prop :=
  ∃ f, s.flows[i]? = some f ∧ f.inTable ∧ f.key.handle = handle

def VisitIn (s : State) (v : Visit) : Prop :=
  (v.target, v.handle) ∈ s.listeners ∧ v.rest ⊆ s.listeners

/-- A pass goes over the listeners that there are, and over the flows of each. -/
def Placed (s : State) : Phase → Prop
  | .choosing rest => rest ⊆ s.listeners
  | .taking v _ => s.VisitIn v
  | .serving v left => s.VisitIn v ∧ ∀ i ∈ left, s.At v.handle i
  | .handing v left i | .hearing v left i =>
    s.VisitIn v ∧ (∀ j ∈ left, s.At v.handle j) ∧ s.At v.handle i
  | _ => True

structure Kept (s : State) : Prop where
  sound : ∀ f ∈ s.flows, f.Sound
  listed : ∀ f ∈ s.flows, f.inTable → (f.target, f.key.handle) ∈ s.listeners
  bound : ∀ l ∈ s.listeners, ∃ k, s.sockets l.2 = some k ∧ k.bound = l.1
  keys : (s.listeners.map Prod.fst).Nodup
  fresh : s.flows.Pairwise fun f g => f.pair = g.pair → ¬ f.inTable
  size : s.size ≤ maxUdpFlows
  placed : s.Placed s.phase
  handing : ∀ i f, s.flows[i]? = some f → s.phase.handed = some i → f.Handing
  settled : ∀ i f, s.flows[i]? = some f → s.phase.handed ≠ some i → f.Settled

theorem kept_initial (clock : Clock) : (initial clock).Kept where
  sound _ h := absurd h List.not_mem_nil
  listed _ h := absurd h List.not_mem_nil
  bound _ h := absurd h List.not_mem_nil
  keys := List.nodup_nil
  fresh := List.Pairwise.nil
  size := Nat.zero_le _
  placed := trivial
  handing _ _ h := by cases h
  settled _ _ h := by cases h

theorem at_setFlow (hf : s.flows[i]? = some f) (hsame : f.Same f') {j : ℕ} (hj : s.At h j) :
    (s.setFlow i f').At h j := by
  obtain ⟨g, hg, ht, hh⟩ := hj
  have hi : i < s.flows.length := (List.getElem?_eq_some_iff.mp hf).1
  by_cases hij : i = j
  · subst j
    obtain rfl : f = g := Option.some.inj (hf.symm.trans hg)
    exact ⟨f', List.getElem?_set_self hi, hsame.inTable ▸ ht, hsame.key ▸ hh⟩
  · exact ⟨g, (List.getElem?_set_ne hij).trans hg, ht, hh⟩

theorem placed_setFlow (hf : s.flows[i]? = some f) (hsame : f.Same f') {p : Phase}
    (hp : s.Placed p) : (s.setFlow i f').Placed p := by
  cases p with
  | between | reaping | stopped => trivial
  | choosing rest => exact hp
  | taking v ds => exact hp
  | serving v left => exact ⟨hp.1, fun j hj => at_setFlow hf hsame (hp.2 j hj)⟩
  | handing v left j | hearing v left j =>
    exact ⟨hp.1, fun j hj => at_setFlow hf hsame (hp.2.1 j hj), at_setFlow hf hsame hp.2.2⟩

theorem get_setFlow (hf : s.flows[i]? = some f) {j : ℕ} {g : Flow}
    (hg : (s.setFlow i f').flows[j]? = some g) : j = i ∧ g = f' ∨ j ≠ i ∧ s.flows[j]? = some g := by
  have hi : i < s.flows.length := (List.getElem?_eq_some_iff.mp hf).1
  by_cases hij : i = j
  · subst j
    rw [setFlow, List.getElem?_set_self hi] at hg
    exact .inl ⟨rfl, (Option.some.inj hg).symm⟩
  · rw [setFlow, List.getElem?_set_ne hij] at hg
    exact .inr ⟨Ne.symm hij, hg⟩

namespace Kept

theorem flow (hs : s.Kept) (hf : s.flows[i]? = some f) : f.Sound :=
  hs.sound f (Log.mem_of_get hf)

/-- A step on a flow at its place, after which the loop goes on to a phase. -/
theorem setFlow (hs : s.Kept) (hf : s.flows[i]? = some f) (hsound : f'.Sound)
    (hsame : f.Same f') {p : Phase} (hp : s.Placed p)
    (hother : ∀ j, j ≠ i → (p.handed = some j ↔ s.phase.handed = some j))
    (hh : p.handed = some i → f'.Handing) (hset : p.handed ≠ some i → f'.Settled) :
    { s.setFlow i f' with phase := p }.Kept := by
  have hfm := Log.mem_of_get hf
  refine ⟨Log.forall_set hs.sound hsound, Log.forall_set hs.listed ?_, hs.bound, hs.keys,
    Log.pairwise_set hs.fresh hf ?_ ?_, ?_, placed_setFlow hf hsame hp, ?_, ?_⟩
  · rw [hsame.inTable, hsame.target, hsame.key]
    exact hs.listed f hfm
  · intro g hR
    rw [Flow.pair, hsame.source, hsame.target, hsame.inTable]
    exact hR
  · intro g hR
    rw [Flow.pair, Flow.pair, hsame.source, hsame.target]
    exact hR
  · exact (Log.countP_set_le hf (by rw [hsame.inTable]; exact id)).trans hs.size
  · intro j g hg hj
    obtain ⟨rfl, rfl⟩ | ⟨hne, hg⟩ := get_setFlow hf hg
    · exact hh hj
    · exact hs.handing j g hg ((hother j hne).mp hj)
  · intro j g hg hj
    obtain ⟨rfl, rfl⟩ | ⟨hne, hg⟩ := get_setFlow hf hg
    · exact hset hj
    · exact hs.settled j g hg fun hjs => hj ((hother j hne).mpr hjs)

theorem setFlow_same (hs : s.Kept) (hf : s.flows[i]? = some f) (hsound : f'.Sound)
    (hsame : f.Same f') (hh : f.Handing → f'.Handing) (hset : f.Settled → f'.Settled) :
    (s.setFlow i f').Kept :=
  hs.setFlow hf hsound hsame hs.placed (fun _ _ => Iff.rfl) (fun hp => hh (hs.handing i f hf hp))
    fun hp => hset (hs.settled i f hf hp)

/-- The loop goes on, and leaves the flows and the listeners as they are. -/
theorem move (hs : s.Kept) {p : Phase} (hp : s.Placed p) (hh : p.handed = none)
    (hset : ∀ i f, s.phase.handed = some i → s.flows[i]? = some f → f.Settled) (clock : Clock) :
    { s with phase := p, clock := clock }.Kept := { hs with
  placed := by
    cases p
    all_goals exact hp
  handing := fun i f _ hi => by
    rw [hh] at hi
    cases hi
  settled := fun i f hf _ => by
    by_cases hi : s.phase.handed = some i
    · exact hset i f hi hf
    · exact hs.settled i f hf hi }

/-- Flows leave the table, outside of the visits to the listeners. -/
theorem leave (hs : s.Kept) (hf : s.flows[i]? = some f) (hp : s.phase = .reaping) :
    (s.setFlow i f.remove).Kept := by
  have hfm := Log.mem_of_get hf
  have hno : s.phase.handed = none := by rw [hp]; rfl
  obtain ⟨hsound, hset, -⟩ := Flow.remove_spec (hs.sound f hfm)
    (hs.settled i f hf (by rw [hno]; simp))
  refine ⟨Log.forall_set hs.sound hsound, Log.forall_set hs.listed (fun ht => by cases ht),
    hs.bound, hs.keys,
    Log.pairwise_set hs.fresh hf (fun _ _ _ => Bool.false_ne_true) (fun _ hR => hR),
    ?_, ?_, ?_, ?_⟩
  · exact (Log.countP_set_le hf fun ht => by cases ht).trans hs.size
  · show Placed _ s.phase
    rw [hp]
    trivial
  · intro j g _ hj
    rw [show (s.setFlow i f.remove).phase = s.phase from rfl, hno] at hj
    cases hj
  · intro j g hg hj
    obtain ⟨rfl, rfl⟩ | ⟨hne, hg⟩ := get_setFlow hf hg
    · exact hset
    · exact hs.settled j g hg hj

theorem socket (hs : s.Kept) {l : Endpoint × ℕ} (hl : l ∈ s.listeners)
    (hk : s.sockets l.2 = some k) : k.bound = l.1 := by
  obtain ⟨k', hk', hb⟩ := hs.bound l hl
  rw [hk'] at hk
  obtain rfl := Option.some.inj hk
  exact hb

/-- Each handle is that of one listener. -/
theorem eq_of_handle (hs : s.Kept) {l l' : Endpoint × ℕ} (hl : l ∈ s.listeners)
    (hl' : l' ∈ s.listeners) (hh : l.2 = l'.2) : l = l' := by
  obtain ⟨k, hk, hb⟩ := hs.bound l hl
  rw [hh] at hk
  exact Prod.ext (hb.symm.trans (hs.socket hl' hk)) hh

/-- The destination of a flow is that of the listener that it is found under. -/
theorem target_of_at (hs : s.Kept) {v : Visit} (hv : s.VisitIn v) (hf : s.flows[i]? = some f)
    (hi : s.At v.handle i) : f.target = v.target ∧ f.inTable := by
  obtain ⟨g, hg, ht, hh⟩ := hi
  obtain rfl : f = g := Option.some.inj (hf.symm.trans hg)
  have hl := hs.listed f (Log.mem_of_get hf) ht
  exact ⟨congrArg Prod.fst (hs.eq_of_handle hl hv.1 hh), ht⟩

theorem counted (hs : s.Kept) (up down : UInt64) :
    { s with uploadBytes := up, downloadBytes := down }.Kept := { hs with
  placed := by
    have hp := hs.placed
    cases hph : s.phase with
    | _ =>
      simp only [hph] at hp ⊢
      exact hp }

end Kept

theorem find_eq_some (h' : s.find key = some i) :
    ∃ f, s.flows[i]? = some f ∧ f.inTable ∧ f.key = key := by
  obtain ⟨hi, hp, -⟩ := List.findIdx?_eq_some_iff_getElem.mp h'
  rw [Bool.and_eq_true, decide_eq_true_eq] at hp
  exact ⟨_, List.getElem?_eq_getElem hi, hp⟩

theorem find_eq_none (h' : s.find key = none) (hf : f ∈ s.flows) (ht : f.inTable) :
    f.key ≠ key := by
  have hp := List.findIdx?_eq_none_iff.mp h' f hf
  simpa [ht] using hp

namespace Kept

theorem listen (hs : s.Kept) (hp : s.phase = .between) (hn : ∀ l ∈ s.listeners, l.1 ≠ target)
    (hh : s.sockets h = none) : { s with
      listeners := s.listeners ++ [(target, h)]
      sockets := Function.update s.sockets h (some ⟨target, []⟩) }.Kept := { hs with
  listed := fun f hf ht => List.mem_append_left _ (hs.listed f hf ht)
  bound := fun l hl => by
    obtain hl | hl := List.mem_append.mp hl
    · obtain ⟨k, hk, hb⟩ := hs.bound l hl
      have hne : l.2 ≠ h := by
        intro heq
        rw [heq, hh] at hk
        cases hk
      exact ⟨k, by simpa [hne] using hk, hb⟩
    · obtain rfl := List.mem_singleton.mp hl
      exact ⟨⟨target, []⟩, by simp, rfl⟩
  keys := by
    rw [List.map_append, List.nodup_append]
    refine ⟨hs.keys, by simp, ?_⟩
    simpa using fun target' h' hl => hn (target', h') hl
  placed := by
    simp only [hp]
    trivial }

theorem sweep (hs : s.Kept) (hp : s.phase = .between) (hl : (target, h) ∈ s.listeners)
    (hn : ∀ f ∈ s.flows, f.inTable → f.key.handle ≠ h) : { s with
      listeners := s.listeners.erase (target, h)
      sockets := Function.update s.sockets h none }.Kept := { hs with
  listed := fun f hf ht => by
    refine (List.mem_erase_of_ne ?_).mpr (hs.listed f hf ht)
    exact fun heq => hn f hf ht (congrArg Prod.snd heq)
  bound := fun l hle => by
    have hls := List.mem_of_mem_erase hle
    obtain ⟨k, hk, hb⟩ := hs.bound l hls
    have hne : l.2 ≠ h := by
      intro heq
      have hsame := hs.eq_of_handle hls hl heq
      exact (List.Nodup.not_mem_erase (List.Nodup.of_map _ hs.keys)) (hsame ▸ hle)
    exact ⟨k, by simpa [hne] using hk, hb⟩
  keys := hs.keys.sublist (List.erase_sublist.map _)
  placed := by
    simp only [hp]
    trivial }

/-- The datagrams of a socket change, and not where it is bound. -/
theorem setSocket (hs : s.Kept) (hk : s.sockets h = some k) (rx : List (Endpoint × Datagram)) :
    { s with sockets := Function.update s.sockets h (some { k with rx := rx }) }.Kept := { hs with
  bound := fun l hl => by
    obtain ⟨k', hk', hb⟩ := hs.bound l hl
    by_cases hlh : l.2 = h
    · rw [hlh, hk] at hk'
      obtain rfl := Option.some.inj hk'
      exact ⟨{ k with rx := rx }, by simp [hlh], hb⟩
    · exact ⟨k', by simpa [hlh] using hk', hb⟩
  placed := by
    have hp := hs.placed
    cases hph : s.phase with
    | _ =>
      simp only [hph] at hp ⊢
      exact hp }

/-- A flow is opened for a source and destination that none in the table stands for. -/
theorem openFlow (hs : s.Kept) {v : Visit} {ds : List (Endpoint × Datagram)}
    (hp : s.phase = .taking v ds) (source : Endpoint) :
    (s.openFlow ⟨v.handle, source⟩ v.target).Kept := by
  have hv : s.VisitIn v := by
    have hpl := hs.placed
    rw [hp] at hpl
    exact hpl
  have hno : s.phase.handed = none := by rw [hp]; rfl
  unfold State.openFlow
  split_ifs with hg
  · obtain ⟨hn, hsize⟩ := hg
    rw [Option.isNone_iff_eq_none] at hn
    set new := Flow.opened ⟨v.handle, source⟩ v.target s.clock.wall with hnew
    have hmem {P : Flow → Prop} (hold : ∀ f ∈ s.flows, P f) (hP : P new) :
        ∀ f ∈ s.flows ++ [new], P f := by
      intro f hf
      obtain hf | hf := List.mem_append.mp hf
      · exact hold f hf
      · exact List.mem_singleton.mp hf ▸ hP
    refine ⟨hmem hs.sound (Flow.sound_opened _ _ _), hmem hs.listed fun _ => hv.1, hs.bound,
      hs.keys, ?_, ?_, ?_, ?_, ?_⟩
    · refine List.pairwise_append.mpr ⟨hs.fresh, List.pairwise_singleton _ _, ?_⟩
      intro f hf g hg hpair ht
      obtain rfl := List.mem_singleton.mp hg
      have hl := hs.listed f hf ht
      have hsource : f.key.source = source := by
        rw [← (hs.sound f hf).source]
        exact congrArg Prod.fst hpair
      have htarget : f.target = v.target := congrArg Prod.snd hpair
      have hhandle : f.key.handle = v.handle := by
        have heq := List.inj_on_of_nodup_map hs.keys hl hv.1 htarget
        exact congrArg Prod.snd heq
      refine find_eq_none hn hf ht ?_
      rw [← hhandle, ← hsource]
    · show (s.flows ++ [new]).countP _ ≤ _
      have hone : [new].countP (·.inTable) = 1 := rfl
      rw [List.countP_append, hone]
      exact hsize
    · show Placed _ s.phase
      rw [hp]
      exact hv
    · intro i f _ hi
      rw [show Phase.handed s.phase = none from hno] at hi
      cases hi
    · intro i f hf _
      have hf' : (s.flows ++ [new])[i]? = some f := hf
      rw [List.getElem?_append] at hf'
      split_ifs at hf' with hi
      · exact hs.settled i f hf' (by simp [hno])
      · have hmem := List.mem_singleton.mp (Log.mem_of_get hf')
        exact hmem ▸ Flow.settled_opened _ _ _
  · exact hs

theorem acceptData (hs : s.Kept) (hno : s.phase.handed = none) (key : UdpKey) (data : Datagram) :
    (s.acceptData key data).Kept := by
  unfold State.acceptData
  split
  · rename_i i _
    split
    · rename_i f hf
      obtain ⟨hsound, hset, hsame, -⟩ := Flow.accept_spec (hs.flow hf)
        (hs.settled i f hf (by simp [hno])) data s.clock.wall
      have hk := hs.setFlow_same hf hsound hsame (fun _ => hset.handing) fun _ => hset
      exact hk.counted _ _
    · exact hs
  · exact hs

theorem at_flowsOf (h : ℕ) (hi : i ∈ s.flowsOf h) : s.At h i := by
  obtain ⟨-, hany⟩ := List.mem_filter.mp hi
  obtain ⟨f, hf, hp⟩ := Option.any_eq_true .. |>.mp hany
  rw [Bool.and_eq_true, decide_eq_true_eq] at hp
  exact ⟨f, hf, hp⟩

theorem stop (hs : s.Kept) (hp : s.phase = .between) :
    { s with phase := .stopped, flows := s.flows.map Flow.remove }.Kept := by
  have hno : s.phase.handed = none := by rw [hp]; rfl
  have hmem {P : Flow → Prop} (hP : ∀ f ∈ s.flows, P f.remove) :
      ∀ f ∈ s.flows.map Flow.remove, P f := by
    intro f hf
    obtain ⟨g, hg, rfl⟩ := List.mem_map.mp hf
    exact hP g hg
  have hget {i : ℕ} {f : Flow} (hf : s.flows[i]? = some f) : f.remove.Sound ∧ f.remove.Settled := by
    obtain ⟨hsound, hset, -⟩ := Flow.remove_spec (hs.flow hf)
      (hs.settled i f hf (by simp [hno]))
    exact ⟨hsound, hset⟩
  refine ⟨hmem fun f hf => ?_, hmem fun f _ ht => (by cases ht), hs.bound, hs.keys, ?_, ?_, trivial,
    fun i f _ hi => (by cases hi), fun i f hf _ => ?_⟩
  · obtain ⟨i, hi⟩ := List.getElem?_of_mem hf
    exact (hget hi).1
  · have hgone (f : Flow) : ¬ f.remove.inTable := Bool.false_ne_true
    apply List.pairwise_map.mpr
    apply List.Pairwise.imp _ hs.fresh
    intro f g _ _
    exact hgone f
  · have hnone : (s.flows.map Flow.remove).countP (·.inTable) = 0 := by
      rw [List.countP_map]
      exact List.countP_eq_zero.mpr fun _ _ => Bool.false_ne_true
    exact hnone.le.trans (Nat.zero_le _)
  · have hf' : (s.flows.map Flow.remove)[i]? = some f := hf
    rw [List.getElem?_map] at hf'
    obtain ⟨g, hg, rfl⟩ := Option.map_eq_some_iff.mp hf'
    exact (hget hg).2

theorem visit (hs : s.Kept) (h' : s.visit target h = some t) : t.Kept := by
  unfold State.visit at h'
  split at h'
  · rename_i rest k hp hk
    obtain ⟨hmem, rfl⟩ := when_eq_some.mp h'
    have hrest : rest ⊆ s.listeners := by
      have hpl := hs.placed
      rw [hp] at hpl
      exact hpl
    have hsub : rest.erase (target, h) ⊆ s.listeners :=
      fun l hl => hrest (List.mem_of_mem_erase hl)
    have hmoved := hs.move (p := .taking ⟨rest.erase (target, h), target, h⟩ k.rx)
      ⟨hrest hmem, hsub⟩ rfl (fun i f hi => by simp [hp, Phase.handed] at hi) s.clock
    exact hmoved.setSocket hk []
  · cases h'

theorem take (hs : s.Kept) (h' : s.take = some t) : t.Kept := by
  unfold State.take at h'
  split at h'
  · rename_i v source data ds hp
    obtain rfl := Option.some.inj h'
    have hv : s.VisitIn v := by
      have hpl := hs.placed
      rw [hp] at hpl
      exact hpl
    have hmoved := hs.move (p := .taking v ds) hv rfl
      (fun i f hi => by simp [hp, Phase.handed] at hi) s.clock
    refine (hmoved.openFlow rfl source).acceptData ?_ _ _
    unfold State.openFlow
    split_ifs
    all_goals rfl
  · cases h'

theorem tryConnect (hs : s.Kept) (h' : s.tryConnect i = some t) : t.Kept := by
  unfold State.tryConnect at h'
  split at h'
  · rename_i v left f hp hf
    obtain ⟨hi, rfl⟩ := when_eq_some.mp h'
    obtain ⟨hv, hleft⟩ : s.VisitIn v ∧ ∀ j ∈ left, s.At v.handle j := by
      have hpl := hs.placed
      rw [hp] at hpl
      exact hpl
    have hset := hs.settled i f hf (by simp [hp, Phase.handed])
    obtain ⟨-, ht⟩ := hs.target_of_at hv hf (hleft i hi)
    obtain ⟨hsound, hhand, hsame, -⟩ := Flow.tryConnect_spec (hs.flow hf) hset ht
    refine hs.setFlow hf hsound hsame (p := .handing v (left.erase i) i)
      ⟨hv, fun j hj => hleft j (List.mem_of_mem_erase hj), hleft i hi⟩ ?_ (fun _ => hhand)
      fun hne => absurd rfl hne
    intro j hj
    simp [hp, Phase.handed, Ne.symm hj]
  · cases h'

theorem handOver (hs : s.Kept) (h' : s.handOver = some t) : t.Kept := by
  unfold State.handOver at h'
  split at h'
  · rename_i v left i hp
    split at h'
    · rename_i f hf
      obtain ⟨⟨f', n⟩, hf', rfl⟩ := Option.map_eq_some_iff.mp h'
      have hh := hs.handing i f hf (by rw [hp]; rfl)
      obtain ⟨hsound, hhand, hsame, -⟩ := Flow.handOver_spec (hs.flow hf) hh hf'
      have hk := hs.setFlow hf hsound hsame hs.placed (fun _ _ => Iff.rfl) (fun _ => hhand)
        fun hne => absurd (by rw [hp]; rfl) hne
      exact hk.counted _ _
    · cases h'
  · cases h'

theorem endHandOver (hs : s.Kept) (h' : s.endHandOver = some t) : t.Kept := by
  unfold State.endHandOver at h'
  split at h'
  · rename_i v left i hp
    obtain ⟨hany, rfl⟩ := when_eq_some.mp h'
    have hpl := hs.placed
    rw [hp] at hpl
    refine hs.move (p := .hearing v left i) hpl rfl (fun j f hj hf => ?_) s.clock
    obtain rfl : i = j := by simpa [hp, Phase.handed] using hj
    rw [hf, Option.any_some] at hany
    exact Flow.settled_of_handOver hany
  · cases h'

theorem tryRecv {taken : Bool} (hs : s.Kept) (h' : s.tryRecv taken = some t) : t.Kept := by
  unfold State.tryRecv at h'
  split at h'
  · rename_i v left i hp
    split at h'
    · rename_i f k hf hk
      obtain ⟨⟨f', n⟩, hf', rfl⟩ := Option.map_eq_some_iff.mp h'
      have hpl := hs.placed
      rw [hp] at hpl
      have hbound : k.bound = f.target :=
        (hs.socket hpl.1.1 hk).trans (hs.target_of_at hpl.1 hf hpl.2.2).1.symm
      have hset := hs.settled i f hf (by simp [hp, Phase.handed])
      obtain ⟨hsound, hset', hsame, -⟩ := Flow.tryRecv_spec (hs.flow hf) hset hbound hf'
      have hk := hs.setFlow_same hf hsound hsame (fun _ => hset'.handing) fun _ => hset'
      exact hk.counted _ _
    · cases h'
  · cases h'

theorem endRecv (hs : s.Kept) (h' : s.endRecv = some t) : t.Kept := by
  unfold State.endRecv at h'
  split at h'
  · rename_i v left i hp
    split at h'
    · rename_i f hf
      obtain ⟨f', hf', rfl⟩ := Option.map_eq_some_iff.mp h'
      have hpl := hs.placed
      rw [hp] at hpl
      have hset := hs.settled i f hf (by simp [hp, Phase.handed])
      obtain ⟨hsound, hset', hsame, -⟩ := Flow.endRecv_spec (hs.flow hf) hset hf'
      refine hs.setFlow hf hsound hsame (p := .serving v left) ⟨hpl.1, hpl.2.1⟩ (fun j _ => ?_)
        (fun hi => by cases hi) fun _ => hset'
      simp [hp, Phase.handed]
    · cases h'
  · cases h'

theorem arrive {p : Sent} {handle : Option ℕ} (hs : s.Kept) (h' : s.arrive p handle = some t) :
    t.Kept := by
  have hsent : { s with sent := s.sent ++ [p] }.Kept := { hs with
    placed := by
      have hp := hs.placed
      cases hph : s.phase with
      | _ =>
        simp only [hph] at hp ⊢
        exact hp }
  cases handle with
  | none =>
    obtain rfl := Option.some.inj h'
    exact hsent
  | some h =>
    simp only [State.arrive] at h'
    split at h'
    · rename_i k hk
      obtain ⟨-, rfl⟩ := when_eq_some.mp h'
      exact hsent.setSocket hk _
    · cases h'

theorem step (hs : s.Kept) (h' : s.step a = some t) : t.Kept := by
  cases a with
  | listen target h =>
    obtain ⟨⟨hp, hn, hh⟩, rfl⟩ := when_eq_some.mp h'
    exact hs.listen hp hn hh
  | sweep target h =>
    obtain ⟨⟨hp, hl, hn⟩, rfl⟩ := when_eq_some.mp h'
    exact hs.sweep hp hl hn
  | arrive p handle =>
    simp only [State.step] at h'
    split_ifs at h'
    exact hs.arrive h'
  | beginPass clock =>
    obtain ⟨⟨hp, -⟩, rfl⟩ := when_eq_some.mp h'
    exact hs.move (p := .choosing s.listeners) (List.Subset.refl _) rfl
      (fun i f hi => by simp [hp, Phase.handed] at hi) clock
  | visit target h => exact hs.visit h'
  | take => exact hs.take h'
  | endTake =>
    simp only [State.step] at h'
    split at h'
    · rename_i v hp
      obtain rfl := Option.some.inj h'
      have hpl := hs.placed
      rw [hp] at hpl
      exact hs.move (p := .serving v (s.flowsOf v.handle)) ⟨hpl, fun i hi => at_flowsOf _ hi⟩ rfl
        (fun i f hi => by simp [hp, Phase.handed] at hi) s.clock
    · cases h'
  | tryConnect i => exact hs.tryConnect h'
  | handOver => exact hs.handOver h'
  | endHandOver => exact hs.endHandOver h'
  | tryRecv taken => exact hs.tryRecv h'
  | endRecv => exact hs.endRecv h'
  | endServe =>
    simp only [State.step] at h'
    split at h'
    · rename_i v hp
      obtain rfl := Option.some.inj h'
      have hpl := hs.placed
      rw [hp] at hpl
      exact hs.move (p := .choosing v.rest) hpl.1.2 rfl
        (fun i f hi => by simp [hp, Phase.handed] at hi) s.clock
    · cases h'
  | endVisits =>
    obtain ⟨hp, rfl⟩ := when_eq_some.mp h'
    exact hs.move (p := .reaping) trivial rfl (fun i f hi => by simp [hp, Phase.handed] at hi)
      s.clock
  | reap i =>
    simp only [State.step, State.reap] at h'
    split at h'
    · rename_i f hf
      obtain ⟨⟨hp, -⟩, rfl⟩ := when_eq_some.mp h'
      exact hs.leave hf hp
    · cases h'
  | endPass =>
    obtain ⟨⟨hp, -⟩, rfl⟩ := when_eq_some.mp h'
    exact hs.move (p := .between) trivial rfl (fun i f hi => by simp [hp, Phase.handed] at hi)
      s.clock
  | stop =>
    obtain ⟨hp, rfl⟩ := when_eq_some.mp h'
    exact hs.stop hp
  | thread i a =>
    obtain ⟨f, hf, h'⟩ := Option.bind_eq_some_iff.mp h'
    obtain ⟨f', hf', rfl⟩ := Option.map_eq_some_iff.mp h'
    exact hs.setFlow_same hf ((hs.flow hf).thread hf') (Flow.thread_frame hf').1
      (fun hh => hh.thread hf') fun hset => hset.thread hf'

end Kept

theorem kept_of_reachable (hs : passSystem.Reachable s) : s.Kept := by
  refine hs.invariant ?_ ?_
  · rintro s ⟨clock, rfl⟩
    exact kept_initial clock
  · intro s a t _ hk _ ht
    exact hk.step ht

end State

end NulConnect.UdpFlows
