import NulConnect.UdpFlows.Flow

/-! What a step does to a UDP flow: its channels only pass datagrams on, in order, and what
waited for the connection goes to the writer first. -/
namespace NulConnect.UdpFlows
open Transition TunStack

namespace Flow

variable {f f' : Flow} {a : ThreadAction} {data : Datagram} {now n : ℕ} {bound : Endpoint}

/-- Everything of the app that the flow has taken on. -/
def carried (f : Flow) : List Datagram := f.handed ++ f.pending

structure Sound (f : Flow) : Prop where
  source : f.source = f.key.source
  waited : f.waited.length ≤ udpPendingDatagrams
  handed : f.handed = f.written ++ f.writer.hand ++ f.uploadTx.getD []
  before : f.uploadTx = none → f.handed = [] ∧ f.pending = f.waited
  after : f.uploadTx.isSome → f.waited <+: f.carried
  heard : (f.delivered.map Reply.data ++ f.remoteRx.getD [] ++ f.reader.hand).Sublist f.heard
  delivered : ∀ r ∈ f.delivered, r.source = f.target ∧ r.target = f.source
  connecting : f.inTable → f.connectRx → ¬ f.closed ∧ f.uploadTx = none
  channels : f.remoteRx.isSome = f.uploadTx.isSome

/-- Nothing waits any longer once the flow is connected. -/
def Settled (f : Flow) : Prop := f.uploadTx.isSome → f.pending = []

/-- What waited is on its way to the writer, which is there to take it. -/
def Handing (f : Flow) : Prop :=
  f.uploadTx.isSome → f.pending ≠ [] →
    f.carried = f.waited ∧ f.inTable ∧ ¬ f.closed ∧ f.writer ≠ .ended

/-- The parts of a flow that tell it from others. -/
structure Same (f f' : Flow) : Prop where
  key : f'.key = f.key
  source : f'.source = f.source
  target : f'.target = f.target
  inTable : f'.inTable = f.inTable

theorem Settled.handing (hs : f.Settled) : f.Handing := fun hu hp => absurd (hs hu) hp

theorem sound_opened (key : UdpKey) (target : Endpoint) (now : ℕ) :
    (opened key target now).Sound where
  source := rfl
  waited := Nat.zero_le _
  handed := rfl
  before _ := ⟨rfl, rfl⟩
  after h := by cases h
  heard := List.Sublist.refl []
  delivered _ h := absurd h List.not_mem_nil
  connecting _ _ := ⟨Bool.false_ne_true, rfl⟩
  channels := rfl

theorem settled_opened (key : UdpKey) (target : Endpoint) (now : ℕ) :
    (opened key target now).Settled := fun _ => rfl

/-- The threads only move what is in their hands and channels. -/
theorem thread_frame (h : f.thread a = some f') : f.Same f' ∧ f'.pending = f.pending ∧
    f'.waited = f.waited ∧ f'.handed = f.handed ∧ f'.uploadTx.isSome = f.uploadTx.isSome ∧
    f'.delivered = f.delivered ∧ f'.connectRx = f.connectRx ∧ f'.closed = f.closed ∧
    f'.lastActivity = f.lastActivity ∧ f'.remoteRx.isSome = f.remoteRx.isSome := by
  cases a with
  | connectReturns | connectDies =>
    obtain ⟨-, rfl⟩ := when_eq_some.mp h
    exact ⟨⟨rfl, rfl, rfl, rfl⟩, rfl, rfl, rfl, rfl, rfl, rfl, rfl, rfl, rfl⟩
  | write =>
    simp only [thread, write] at h
    split at h
    case h_2 hu =>
      obtain rfl := Option.some.inj h
      exact ⟨⟨rfl, rfl, rfl, rfl⟩, rfl, rfl, rfl, by simp [hu], rfl, rfl, rfl, rfl, rfl⟩
    case h_5 => cases h
    all_goals
      obtain rfl := Option.some.inj h
      exact ⟨⟨rfl, rfl, rfl, rfl⟩, rfl, rfl, rfl, rfl, rfl, rfl, rfl, rfl, rfl⟩
  | read data =>
    simp only [thread, read] at h
    split at h
    · obtain rfl := Option.some.inj h
      exact ⟨⟨rfl, rfl, rfl, rfl⟩, rfl, rfl, rfl, rfl, rfl, rfl, rfl, rfl, rfl⟩
    · obtain rfl := Option.some.inj h
      split
      all_goals exact ⟨⟨rfl, rfl, rfl, rfl⟩, rfl, rfl, rfl, rfl, rfl, rfl, rfl, rfl, rfl⟩
    · rename_i hq
      split_ifs at h
      · obtain ⟨-, rfl⟩ := when_eq_some.mp h
        exact ⟨⟨rfl, rfl, rfl, rfl⟩, rfl, rfl, rfl, rfl, rfl, rfl, rfl, rfl, by simp [hq]⟩
      · obtain rfl := Option.some.inj h
        exact ⟨⟨rfl, rfl, rfl, rfl⟩, rfl, rfl, rfl, rfl, rfl, rfl, rfl, rfl, rfl⟩
    · cases h

theorem write_custody (h : f.write = some f')
    (hf : f.handed = f.written ++ f.writer.hand ++ f.uploadTx.getD []) :
    f'.handed = f'.written ++ f'.writer.hand ++ f'.uploadTx.getD [] := by
  unfold write at h
  split at h
  case h_5 => cases h
  all_goals obtain rfl := Option.some.inj h
  case h_1 hw =>
    rw [hf, hw]
    split_ifs
    all_goals rfl
  case h_2 hw hu =>
    rw [hf, hw, hu]
    simp [Writer.hand]
  case h_3 hw hu =>
    rw [hf, hw]
    split_ifs
    all_goals rfl
  case h_4 hw =>
    rw [hf, hw]
    simp [Writer.hand]

theorem read_custody {data : Option Datagram} (h : f.read data = some f')
    (hf : (f.delivered.map Reply.data ++ f.remoteRx.getD [] ++ f.reader.hand).Sublist f.heard) :
    (f'.delivered.map Reply.data ++ f'.remoteRx.getD [] ++ f'.reader.hand).Sublist f'.heard := by
  have hless : (f.delivered.map Reply.data ++ f.remoteRx.getD [] ++ []).Sublist f.heard :=
    (List.append_sublist_append_left _ |>.mpr (List.nil_sublist _)).trans hf
  unfold read at h
  split at h
  · obtain rfl := Option.some.inj h
    dsimp only
    split_ifs
    all_goals exact hless
  · obtain rfl := Option.some.inj h
    split
    · exact hless
    · exact hless
    · rw [List.append_nil] at hless
      exact hless.append (List.Sublist.refl _)
  · rename_i data queue hr hq
    split_ifs at h
    · obtain ⟨-, rfl⟩ := when_eq_some.mp h
      rw [hr, hq] at hf
      simpa [Reader.hand] using hf
    · obtain rfl := Option.some.inj h
      exact hless
  · cases h

theorem Sound.thread (hf : f.Sound) (h : f.thread a = some f') : f'.Sound := by
  obtain ⟨hsame, hp, hw, hh, hu, hd, hc, hcl, -, hr⟩ := thread_frame h
  have hcar : f'.carried = f.carried := by rw [carried, hh, hp, carried]
  refine ⟨?_, ?_, ?_, ?_, ?_, ?_, ?_, ?_, hr.trans (hf.channels.trans hu.symm)⟩
  · rw [hsame.source, hsame.key, hf.source]
  · rw [hw]
    exact hf.waited
  · cases a with
    | write => exact write_custody h hf.handed
    | read data =>
      have hsame : f'.handed = f'.written ++ f'.writer.hand ++ f'.uploadTx.getD [] := by
        have hold := hf.handed
        simp only [Flow.thread, read] at h
        split at h
        · obtain rfl := Option.some.inj h
          exact hold
        · obtain rfl := Option.some.inj h
          split
          all_goals exact hold
        · split_ifs at h
          · obtain ⟨-, rfl⟩ := when_eq_some.mp h
            exact hold
          · obtain rfl := Option.some.inj h
            exact hold
        · cases h
      exact hsame
    | connectReturns | connectDies =>
      obtain ⟨-, rfl⟩ := when_eq_some.mp h
      exact hf.handed
  · intro hn
    rw [hh, hp, hw]
    refine hf.before ?_
    simpa [hn] using hu.symm
  · rw [hu, hw, hcar]
    exact hf.after
  · cases a with
    | write =>
      have hold := hf.heard
      simp only [Flow.thread, write] at h
      split at h
      case h_5 => cases h
      all_goals
        obtain rfl := Option.some.inj h
        exact hold
    | read data => exact read_custody h hf.heard
    | connectReturns | connectDies =>
      obtain ⟨-, rfl⟩ := when_eq_some.mp h
      exact hf.heard
  · rw [hd, hsame.target, hsame.source]
    exact hf.delivered
  · rw [hsame.inTable, hc, hcl]
    intro ht hrx
    obtain ⟨hopen, hnone⟩ := hf.connecting ht hrx
    refine ⟨hopen, ?_⟩
    simpa [hnone] using hu

theorem Settled.thread (hs : f.Settled) (h : f.thread a = some f') : f'.Settled := by
  obtain ⟨-, hp, -, -, hu, -⟩ := thread_frame h
  unfold Settled
  rw [hp, hu]
  exact hs

/-- The writer stays while the flow is open and in the table. -/
theorem Handing.thread (hh : f.Handing) (h : f.thread a = some f') : f'.Handing := by
  obtain ⟨hsame, hp, hw, hhd, hu, -, -, hcl, -⟩ := thread_frame h
  intro hup hne
  rw [hu] at hup
  rw [hp] at hne
  obtain ⟨hcar, ht, hopen, hwr⟩ := hh hup hne
  refine ⟨?_, hsame.inTable ▸ ht, hcl ▸ hopen, ?_⟩
  · rw [carried, hhd, hp, hw]
    exact hcar
  · cases a with
    | write =>
      simp only [Flow.thread, write] at h
      split at h
      case h_5 => cases h
      all_goals
        obtain rfl := Option.some.inj h
        simp [hopen, ht]
    | read data =>
      simp only [Flow.thread, read] at h
      split at h
      · obtain rfl := Option.some.inj h
        exact hwr
      · obtain rfl := Option.some.inj h
        split
        all_goals exact hwr
      · split_ifs at h
        obtain ⟨-, rfl⟩ := when_eq_some.mp h
        exact hwr
      · cases h
    | connectReturns | connectDies =>
      obtain ⟨-, rfl⟩ := when_eq_some.mp h
      exact hwr

theorem trySend_cases (f : Flow) (data : Datagram) : f.trySend data = (f, 0) ∨
    ∃ queue, f.uploadTx = some queue ∧ f.trySend data =
      ({ f with uploadTx := some (queue ++ [data]), handed := f.handed ++ [data] },
        data.length) := by
  unfold trySend
  split
  · rename_i queue hq
    split_ifs
    · exact .inr ⟨queue, hq, rfl⟩
    · exact .inl rfl
  · exact .inl rfl

theorem trySend_eq {queue : List Datagram} (hq : f.uploadTx = some queue)
    (hw : f.writer ≠ .ended) (hl : queue.length < udpPendingDatagrams) : f.trySend data =
      ({ f with uploadTx := some (queue ++ [data]), handed := f.handed ++ [data] },
        data.length) := by
  simp [trySend, hq, hw, hl]

/-- A datagram goes to the end of the channel, where nothing waits before it. -/
theorem Sound.push (hf : f.Sound) {queue pending : List Datagram} (hq : f.uploadTx = some queue)
    (hw : f.waited <+: f.handed ++ [data] ++ pending) :
    { f with
      pending := pending
      uploadTx := some (queue ++ [data])
      handed := f.handed ++ [data] }.Sound := { hf with
  handed := by
    have hold := hf.handed
    rw [hq] at hold
    simp [hold]
  before := fun hn => by cases hn
  after := fun _ => hw
  connecting := fun ht hrx => by
    obtain ⟨-, hnone⟩ := hf.connecting ht hrx
    rw [hq] at hnone
    cases hnone
  channels := by rw [hf.channels, hq, Option.isSome_some, Option.isSome_some] }

theorem accept_spec (hf : f.Sound) (hs : f.Settled) (data : Datagram) (now : ℕ) :
    (f.accept data now).1.Sound ∧ (f.accept data now).1.Settled ∧
      f.Same (f.accept data now).1 ∧ ((f.accept data now).1.carried = f.carried ∨
        (f.accept data now).1.carried = f.carried ++ [data]) := by
  let g : Flow := { f with lastActivity := now }
  have hg : g.Sound := { hf with }
  have hgs : g.Settled := hs
  have hsame : f.Same g := ⟨rfl, rfl, rfl, rfl⟩
  have hcar : g.carried = f.carried := rfl
  show Sound (if g.uploadTx.isSome then _ else _ : Flow × ℕ).1 ∧ _
  unfold accept
  dsimp only
  by_cases hu : g.uploadTx.isSome
  · have hp : g.pending = [] := hgs hu
    rw [if_pos hu]
    obtain ht | ⟨queue, hq, ht⟩ := trySend_cases g data
    · rw [ht]
      exact ⟨hg, hgs, hsame, .inl hcar⟩
    · rw [ht]
      have hprefix : g.waited <+: g.handed ++ [data] ++ g.pending := by
        have hold := hg.after hu
        rw [carried, hp, List.append_nil] at hold
        rw [hp, List.append_nil]
        exact hold.trans (List.prefix_append _ _)
      refine ⟨hg.push hq hprefix, fun _ => hp, ⟨rfl, rfl, rfl, rfl⟩, .inr ?_⟩
      show g.handed ++ [data] ++ g.pending = g.handed ++ g.pending ++ [data]
      rw [hp, List.append_nil, List.append_nil]
  · rw [if_neg hu]
    have hn : g.uploadTx = none := by simpa using hu
    obtain ⟨hh, hw⟩ := hg.before hn
    split_ifs with hl
    · refine ⟨{ hg with waited := ?_, before := ?_, after := ?_ }, ?_, ⟨rfl, rfl, rfl, rfl⟩,
        .inr ?_⟩
      · rw [List.length_append, ← hw]
        exact hl
      · exact fun _ => ⟨hh, by rw [← hw]⟩
      · exact fun hsome => absurd hsome hu
      · exact fun hsome => absurd hsome hu
      · exact (List.append_assoc _ _ _).symm
    · exact ⟨hg, hgs, hsame, .inl hcar⟩

theorem tryConnect_spec (hf : f.Sound) (hs : f.Settled) (ht : f.inTable) :
    f.tryConnect.Sound ∧ f.tryConnect.Handing ∧ f.Same f.tryConnect ∧
      f.tryConnect.carried = f.carried := by
  have hkept : f.Sound ∧ f.Handing ∧ f.Same f ∧ f.carried = f.carried :=
    ⟨hf, hs.handing, ⟨rfl, rfl, rfl, rfl⟩, rfl⟩
  unfold tryConnect
  split_ifs with hrx
  · obtain ⟨hopen, hnone⟩ := hf.connecting ht hrx
    obtain ⟨hh, hw⟩ := hf.before hnone
    split
    · exact hkept
    · have hhand : f.written = [] ∧ f.writer.hand = [] := by
        have hold := hf.handed
        rw [hh, hnone] at hold
        simpa using hold.symm
      have hcar : f.carried = f.waited := by rw [carried, hh, hw, List.nil_append]
      refine ⟨{ hf with handed := ?_, before := ?_, after := ?_, heard := ?_, connecting := ?_,
                        channels := rfl },
        fun _ _ => ⟨hcar, ht, hopen, by simp [startUdpFlowThreads]⟩, ⟨rfl, rfl, rfl, rfl⟩, rfl⟩
      · show f.handed = f.written ++ [] ++ []
        rw [hh, hhand.1]
        rfl
      · exact fun hn => by cases hn
      · exact fun _ => hcar ▸ List.prefix_rfl
      · have hold := hf.heard
        rw [List.append_assoc] at hold
        show (f.delivered.map Reply.data ++ [] ++ []).Sublist f.heard
        rw [List.append_nil, List.append_nil]
        exact (List.sublist_append_left _ _).trans hold
      · exact fun _ hrx' => by cases hrx'
    all_goals
      refine ⟨{ hf with connecting := ?_ }, fun hu hp => absurd (hs hu) hp, ⟨rfl, rfl, rfl, rfl⟩,
        rfl⟩
      exact fun _ hrx' => by cases hrx'
  · exact hkept

/-- Each datagram that waited finds room in the channel, as it holds as many as may wait. -/
theorem handOver_spec (hf : f.Sound) (hh : f.Handing) (h : f.handOver = some (f', n)) :
    f'.Sound ∧ f'.Handing ∧ f.Same f' ∧ f'.carried = f.carried := by
  unfold handOver at h
  split at h
  · rename_i queue data rest hq hp
    obtain ⟨hcar, ht, hopen, hw⟩ := hh (by simp [hq]) (by simp [hp])
    have hl : queue.length < udpPendingDatagrams := by
      have hwait := hf.waited
      rw [← hcar, carried, hf.handed, hq, hp] at hwait
      simp only [List.length_append, List.length_cons, Option.getD_some] at hwait
      omega
    have hsend : ({ f with pending := rest } : Flow).trySend data = _ := trySend_eq hq hw hl
    rw [hsend] at h
    obtain rfl := congrArg Prod.fst (Option.some.inj h)
    have hmove : f.handed ++ [data] ++ rest = f.carried := by
      rw [carried, hp]
      simp
    refine ⟨hf.push hq ?_, fun _ _ => ⟨?_, ht, hopen, hw⟩, ⟨rfl, rfl, rfl, rfl⟩, hmove⟩
    · rw [hmove, hcar]
    · exact hmove.trans hcar
  · cases h

theorem settled_of_handOver (h : f.handOver.isNone) : f.Settled := by
  intro hu
  by_contra hp
  obtain ⟨queue, hq⟩ := Option.isSome_iff_exists.mp hu
  obtain ⟨data, rest, hp⟩ := List.exists_cons_of_ne_nil hp
  simp [handOver, hq, hp] at h

theorem tryRecv_spec (hf : f.Sound) (hs : f.Settled) (hb : bound = f.target) {taken : Bool}
    (h : f.tryRecv bound taken now = some (f', n)) :
    f'.Sound ∧ f'.Settled ∧ f.Same f' ∧ f'.carried = f.carried := by
  unfold tryRecv at h
  split at h
  · rename_i data rest hq
    have hold := hf.heard
    rw [hq, Option.getD_some] at hold
    cases taken with
    | true =>
      obtain rfl := congrArg Prod.fst (Option.some.inj h)
      have hchan := hf.channels
      rw [hq] at hchan
      refine ⟨{ hf with heard := ?_, delivered := ?_, channels := hchan }, hs,
        ⟨rfl, rfl, rfl, rfl⟩, rfl⟩
      · simpa using hold
      · intro r hr
        obtain hr | hr := List.mem_append.mp hr
        · exact hf.delivered r hr
        · obtain rfl := List.mem_singleton.mp hr
          exact ⟨hb, rfl⟩
    | false =>
      obtain rfl := congrArg Prod.fst (Option.some.inj h)
      have hchan := hf.channels
      rw [hq] at hchan
      refine ⟨{ hf with heard := ?_, channels := hchan }, hs, ⟨rfl, rfl, rfl, rfl⟩, rfl⟩
      have hdrop : (f.delivered.map Reply.data ++ rest ++ f.reader.hand).Sublist
          (f.delivered.map Reply.data ++ (data :: rest) ++ f.reader.hand) :=
        ((List.Sublist.refl _).append (List.sublist_cons_self data rest)).append
          (List.Sublist.refl _)
      exact hdrop.trans hold
  · cases h

theorem endRecv_spec (hf : f.Sound) (hs : f.Settled) (h : f.endRecv = some f') :
    f'.Sound ∧ f'.Settled ∧ f.Same f' ∧ f'.carried = f.carried := by
  unfold endRecv at h
  split at h
  · cases h
  · rename_i hq
    obtain rfl := Option.some.inj h
    refine ⟨{ hf with connecting := ?_ }, hs, ⟨rfl, rfl, rfl, rfl⟩, rfl⟩
    intro ht hrx
    obtain ⟨-, hnone⟩ := hf.connecting ht hrx
    have hchan := hf.channels
    rw [hq, hnone] at hchan
    cases hchan
  · obtain rfl := Option.some.inj h
    exact ⟨hf, hs, ⟨rfl, rfl, rfl, rfl⟩, rfl⟩

theorem remove_spec (hf : f.Sound) (hs : f.Settled) :
    f.remove.Sound ∧ f.remove.Settled ∧ f.remove.carried = f.carried :=
  ⟨{ hf with connecting := fun ht => by cases ht }, hs, rfl⟩

end Flow

end NulConnect.UdpFlows
