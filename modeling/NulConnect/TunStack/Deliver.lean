import NulConnect.TunStack.Download

/-! `deliver_download` against any socket: what goes into the channel comes out at the socket, whole
and in order, and then the socket is closed. -/
namespace NulConnect.TunStack
open Transition

/-- Where a call of `deliver_download` is. -/
inductive DeliverPhase where
  | outside
  | receiving
  | writing
  | closing
deriving DecidableEq

/-- The part of a flow that the calls work on; `sender`: the sender of the channel is alive. -/
structure Delivery where
  phase : DeliverPhase
  remoteRx : Option (List Chunk)
  sender : Bool
  downloadPending : Option (Chunk × ℕ)
  remoteEof : Bool
  finSent : Bool
  downloadBytes : UInt64

/-- `sendSlice` has the answers of the socket: `can_send`, and how many bytes it takes, none also
where `send_slice` fails. `others`: another flow counts its bytes. -/
inductive DeliverAction where
  | connect
  | put (data : Chunk)
  | dropSender
  | others (bytes : UInt64)
  | call
  | tryRecv
  | sendSlice (canSend : Bool) (accepted : ℕ)
  | finish

/-- The steps of a call. -/
def DeliverAction.ofCall : DeliverAction → Bool
  | .tryRecv | .sendSlice _ _ | .finish => true
  | _ => false

namespace Delivery

def initial (downloadBytes : UInt64) : Delivery where
  phase := .outside
  remoteRx := none
  sender := true
  downloadPending := none
  remoteEof := false
  finSent := false
  downloadBytes := downloadBytes

/-- The socket takes no more than it is given. -/
def Accepts (s : Delivery) (accepted : ℕ) : Prop :=
  ∀ data offset, s.downloadPending = some (data, offset) → accepted ≤ data.length - offset

/-- The condition of `socket.close()`. -/
def closesSocket (s : Delivery) : Bool :=
  s.remoteEof && s.downloadPending.isNone && !s.finSent

/-- The top of the loop, up to `can_send`. -/
def tryRecv (s : Delivery) : Delivery :=
  match s.downloadPending, s.remoteRx with
  | some _, _ => { s with phase := .writing }
  | none, none => { s with phase := .outside }
  | none, some (data :: rest) => { s with
      phase := .writing
      downloadPending := some (data, 0)
      remoteRx := some rest }
  | none, some [] =>
    if s.sender then { s with phase := .closing }
    else { s with phase := .closing, remoteEof := true }

/-- The rest of the loop. -/
def sendSlice (s : Delivery) (canSend : Bool) (accepted : ℕ) : Option Delivery :=
  match s.downloadPending with
  | none => some { s with phase := .closing }
  | some (data, offset) =>
    if canSend then
      when (accepted ≤ data.length - offset) { s with
        downloadBytes := s.downloadBytes + .ofNat accepted
        phase := if offset + accepted < data.length then .closing else .receiving
        downloadPending :=
          if offset + accepted < data.length then some (data, offset + accepted) else none }
    else some { s with phase := .closing }

def step (s : Delivery) : DeliverAction → Option Delivery
  | .connect => when (s.remoteRx = none) { s with remoteRx := some [] }
  | .put data =>
    match s.remoteRx with
    | some queue => when s.sender { s with remoteRx := some (queue ++ [data]) }
    | none => none
  | .dropSender => when s.remoteRx.isSome { s with sender := false }
  | .others bytes => some { s with downloadBytes := s.downloadBytes + bytes }
  | .call => when (s.phase = .outside) { s with phase := .receiving }
  | .tryRecv => when (s.phase = .receiving) s.tryRecv
  | .sendSlice canSend accepted =>
    if s.phase = .writing then s.sendSlice canSend accepted else none
  | .finish => when (s.phase = .closing)
      { s with phase := .outside, finSent := s.finSent || s.closesSocket }

/-- The unwritten rest of `download_pending`. -/
def pendingRest (s : Delivery) : Chunk := s.downloadPending.elim [] fun p => p.1.drop p.2

/-- The chunks in the channel. -/
def queued (s : Delivery) : Chunk := (s.remoteRx.getD []).flatten

/-- An upper bound of the steps that a call has still to take. -/
def rank (s : Delivery) : ℕ :=
  4 * ((s.remoteRx.getD []).length + s.downloadPending.toList.length) +
    match s.phase with
    | .outside => 0
    | .receiving => 3
    | .writing => 2
    | .closing => 1

end Delivery

/-- What has been put in the channel and written to the socket, how often the socket has been
closed, and what the other flows have counted. -/
structure DeliverHistory where
  put : List Chunk
  written : Chunk
  closes : ℕ
  others : UInt64

namespace DeliverHistory

def empty : DeliverHistory where
  put := []
  written := []
  closes := 0
  others := 0

def record (g : DeliverHistory) (s : Delivery) : DeliverAction → DeliverHistory
  | .put data => { g with put := g.put ++ [data] }
  | .others bytes => { g with others := g.others + bytes }
  | .sendSlice canSend accepted =>
    match s.downloadPending with
    | some (data, offset) =>
      if canSend then { g with written := g.written ++ (data.drop offset).take accepted } else g
    | none => g
  | .finish => if s.closesSocket then { g with closes := g.closes + 1 } else g
  | _ => g

end DeliverHistory

/-- The calls of `deliver_download` on a flow, with the counter at `downloadBytes` before. -/
def deliverySystem (downloadBytes : UInt64) : System Delivery DeliverAction where
  init s := s = .initial downloadBytes
  step := Delivery.step

def deliveries (downloadBytes : UInt64) : System (Delivery × DeliverHistory) DeliverAction :=
  (deliverySystem downloadBytes).observe .empty DeliverHistory.record

/-- What was put in the channel is written, pending or still in the channel, in this order; the
counter has grown by what was written; the socket is closed once at most, when all has been written
and no more can come; and a call ends, whatever the socket answers. -/
structure Delivered (downloadBytes : UInt64) (s : Delivery) (g : DeliverHistory) : Prop where
  stream : g.written ++ s.pendingRest ++ s.queued = g.put.flatten
  bytes : s.downloadBytes = downloadBytes + g.others + .ofNat g.written.length
  once : g.closes ≤ 1
  closed : s.closesSocket ∨ g.closes ≠ 0 →
    s.sender = false ∧ s.remoteRx = some [] ∧ g.written = g.put.flatten
  silent : g.closes ≠ 0 → ∀ canSend accepted, s.step (.sendSlice canSend accepted) = none
  goesOn : s.phase ≠ .outside → ∀ canSend accepted, s.Accepts accepted →
    ∃ a ∈ [DeliverAction.tryRecv, .sendSlice canSend accepted, .finish], (s.step a).isSome
  ends : ∀ as : List DeliverAction, (∀ a ∈ as, a.ofCall) →
    ((deliverySystem downloadBytes).run s as).isSome → as.length ≤ s.rank

theorem Delivery.sendSlice_cases {s t : Delivery} {canSend : Bool} {accepted : ℕ}
    (h : s.sendSlice canSend accepted = some t) :
    (t = { s with phase := .closing } ∧ (s.downloadPending = none ∨ canSend = false)) ∨
      ∃ data offset, s.downloadPending = some (data, offset) ∧ canSend = true ∧
        accepted ≤ data.length - offset ∧ t = { s with
          downloadBytes := s.downloadBytes + .ofNat accepted
          phase := if offset + accepted < data.length then .closing else .receiving
          downloadPending :=
            if offset + accepted < data.length then some (data, offset + accepted) else none } := by
  unfold Delivery.sendSlice at h
  cases hpending : s.downloadPending with
  | none =>
    rw [hpending] at h
    refine Or.inl ⟨?_, Or.inl rfl⟩
    simpa [hpending] using h.symm
  | some p =>
    obtain ⟨data, offset⟩ := p
    rw [hpending] at h
    cases canSend with
    | false =>
      refine Or.inl ⟨?_, Or.inr rfl⟩
      simpa [hpending] using h.symm
    | true =>
      obtain ⟨hle, heq⟩ := when_eq_some.mp h
      exact Or.inr ⟨data, offset, rfl, rfl, hle, heq.symm⟩

/-- What the calls keep. -/
structure DeliverAccount (downloadBytes : UInt64) (s : Delivery) (g : DeliverHistory) : Prop where
  stream : g.written ++ s.pendingRest ++ s.queued = g.put.flatten
  bytes : s.downloadBytes = downloadBytes + g.others + .ofNat g.written.length
  closes : g.closes = if s.finSent then 1 else 0
  eof : s.remoteEof = true → s.sender = false ∧ s.remoteRx = some []
  fin : s.finSent = true → s.remoteEof = true ∧ s.downloadPending = none ∧ s.phase ≠ .writing

namespace DeliverAccount

variable {b : UInt64} {s t : Delivery} {g : DeliverHistory} {a : DeliverAction}

theorem put (h : DeliverAccount b s g) {queue : List Chunk} (hrx : s.remoteRx = some queue)
    (hsender : s.sender = true) (data : Chunk) :
    DeliverAccount b { s with remoteRx := some (queue ++ [data]) }
      { g with put := g.put ++ [data] } where
  stream := by
    have hstream := h.stream
    simp only [Delivery.queued, hrx, Option.getD_some] at hstream
    simp only [Delivery.queued, Option.getD_some, List.flatten_append, ← hstream,
      List.append_assoc]
    rfl
  bytes := h.bytes
  closes := h.closes
  eof heof := by
    have hdead := (h.eof heof).1
    rw [hsender] at hdead
    cases hdead
  fin := h.fin

theorem tryRecv (h : DeliverAccount b s g) : DeliverAccount b s.tryRecv g := by
  unfold Delivery.tryRecv
  split
  · rename_i hpending
    refine ⟨h.stream, h.bytes, h.closes, h.eof, fun hfin => ?_⟩
    rw [(h.fin hfin).2.1] at hpending
    cases hpending
  · exact ⟨h.stream, h.bytes, h.closes, h.eof,
      fun hfin => ⟨(h.fin hfin).1, (h.fin hfin).2.1, by simp⟩⟩
  · rename_i data rest hpending hrx
    have hnot : s.remoteEof ≠ true := by
      intro heof
      rw [(h.eof heof).2] at hrx
      cases hrx
    refine ⟨?_, h.bytes, h.closes, fun heof => absurd heof hnot,
      fun hfin => absurd (h.fin hfin).1 hnot⟩
    rw [← h.stream]
    simp [Delivery.pendingRest, Delivery.queued, hpending, hrx]
  · rename_i hpending hrx
    split_ifs with hsender
    · exact ⟨h.stream, h.bytes, h.closes, h.eof, fun hfin => ⟨(h.fin hfin).1, hpending, by simp⟩⟩
    · exact ⟨h.stream, h.bytes, h.closes, fun _ => ⟨by simpa using hsender, hrx⟩,
        fun _ => ⟨rfl, hpending, by simp⟩⟩

/-- What the socket takes of a chunk. -/
theorem sendSlice (h : DeliverAccount b s g) (hp : s.phase = .writing) {canSend : Bool}
    {accepted : ℕ} (ht : s.sendSlice canSend accepted = some t) :
    DeliverAccount b t (g.record s (.sendSlice canSend accepted)) := by
  have hfin : s.finSent ≠ true := fun hfin => (h.fin hfin).2.2 hp
  rcases Delivery.sendSlice_cases ht with ⟨rfl, hnone⟩ | ⟨data, offset, hpending, rfl, hle, rfl⟩
  · have hrecord : g.record s (.sendSlice canSend accepted) = g := by
      rcases hnone with hpending | hrefused
      · simp only [DeliverHistory.record, hpending]
      · rw [hrefused]
        cases hpending : s.downloadPending <;> simp [DeliverHistory.record, hpending]
    rw [hrecord]
    exact ⟨h.stream, h.bytes, h.closes, h.eof, fun hf => absurd hf hfin⟩
  · simp only [DeliverHistory.record, hpending, if_true]
    have hrest : (if offset + accepted < data.length then some (data, offset + accepted)
        else none).elim [] (fun p => p.1.drop p.2) = (data.drop offset).drop accepted := by
      split_ifs
      · simp
      · simp [List.drop_eq_nil_of_le (show data.length ≤ offset + accepted by omega)]
    refine ⟨?_, ?_, h.closes, h.eof, fun hf => absurd hf hfin⟩
    · rw [← h.stream]
      simp only [Delivery.pendingRest, Delivery.queued, hrest, hpending, Option.elim_some]
      rw [List.append_assoc g.written, List.take_append_drop]
    · have hlen : ((data.drop offset).take accepted).length = accepted := by
        rw [List.length_take, List.length_drop]
        omega
      simp only [List.length_append, hlen, UInt64.ofNat_add, h.bytes]
      ac_rfl

theorem finish (h : DeliverAccount b s g) :
    DeliverAccount b { s with phase := .outside, finSent := s.finSent || s.closesSocket }
      (g.record s .finish) := by
  have hcloses := h.closes
  by_cases hc : s.closesSocket
  · have hcond := hc
    simp only [Delivery.closesSocket, Bool.and_eq_true, Option.isNone_iff_eq_none,
      Bool.not_eq_true'] at hcond
    obtain ⟨⟨heof, hpending⟩, hfin⟩ := hcond
    simp only [DeliverHistory.record, hc, Bool.or_true]
    refine ⟨h.stream, h.bytes, ?_, h.eof, fun _ => ⟨heof, hpending, by simp⟩⟩
    rw [hcloses, hfin]
    rfl
  · simp only [DeliverHistory.record, if_neg hc, Bool.not_eq_true] at hc ⊢
    rw [hc, Bool.or_false]
    exact ⟨h.stream, h.bytes, hcloses, h.eof,
      fun hfin => ⟨(h.fin hfin).1, (h.fin hfin).2.1, by simp⟩⟩

theorem step (h : DeliverAccount b s g) (ht : s.step a = some t) :
    DeliverAccount b t (g.record s a) := by
  cases a with
  | connect =>
    obtain ⟨hrx, rfl⟩ := when_eq_some.mp ht
    have hnot : s.remoteEof ≠ true := by
      intro heof
      rw [(h.eof heof).2] at hrx
      cases hrx
    refine ⟨?_, h.bytes, h.closes, fun heof => absurd heof hnot, h.fin⟩
    have hstream := h.stream
    simp only [Delivery.queued, hrx] at hstream
    exact hstream
  | put data =>
    cases hrx : s.remoteRx with
    | none => simp [Delivery.step, hrx] at ht
    | some queue =>
      simp only [Delivery.step, hrx, when_eq_some] at ht
      obtain ⟨hsender, rfl⟩ := ht
      exact h.put hrx hsender data
  | dropSender =>
    obtain ⟨-, rfl⟩ := when_eq_some.mp ht
    exact ⟨h.stream, h.bytes, h.closes, fun heof => ⟨rfl, (h.eof heof).2⟩, h.fin⟩
  | others bytes =>
    obtain rfl := Option.some.inj ht
    refine ⟨h.stream, ?_, h.closes, h.eof, h.fin⟩
    simp only [DeliverHistory.record, h.bytes]
    ac_rfl
  | call =>
    obtain ⟨-, rfl⟩ := when_eq_some.mp ht
    exact ⟨h.stream, h.bytes, h.closes, h.eof,
      fun hfin => ⟨(h.fin hfin).1, (h.fin hfin).2.1, by simp⟩⟩
  | tryRecv =>
    obtain ⟨-, rfl⟩ := when_eq_some.mp ht
    exact h.tryRecv
  | sendSlice canSend accepted =>
    simp only [Delivery.step] at ht
    split_ifs at ht with hp
    exact h.sendSlice hp ht
  | finish =>
    obtain ⟨-, rfl⟩ := when_eq_some.mp ht
    exact h.finish

end DeliverAccount

section Calls

variable {b : UInt64} {s t : Delivery} {g : DeliverHistory} {a : DeliverAction}

/-- Every step of a call comes closer to its end. -/
theorem ofCall_rank (ha : a.ofCall) (h : s.step a = some t) : t.rank < s.rank := by
  cases a with
  | connect | put | dropSender | others | call => cases ha
  | tryRecv =>
    obtain ⟨hp, rfl⟩ := when_eq_some.mp h
    unfold Delivery.tryRecv
    split
    · simp [Delivery.rank, hp]
    · simp [Delivery.rank, hp]
    · rename_i hpending hrx
      simp [Delivery.rank, hp, hpending, hrx]
    · split_ifs <;> simp [Delivery.rank, hp]
  | sendSlice canSend accepted =>
    simp only [Delivery.step] at h
    split_ifs at h with hp
    rcases Delivery.sendSlice_cases h with ⟨rfl, -⟩ | ⟨data, offset, hpending, -, -, rfl⟩
    · simp [Delivery.rank, hp]
    · simp only [Delivery.rank, hp, hpending]
      split_ifs
      · simp
      · simp
        omega
  | finish =>
    obtain ⟨hp, rfl⟩ := when_eq_some.mp h
    simp [Delivery.rank, hp]

theorem run_ofCall_rank (as : List DeliverAction) (has : ∀ a ∈ as, a.ofCall)
    (h : ((deliverySystem b).run s as).isSome) : as.length ≤ s.rank := by
  induction as generalizing s with
  | nil => exact Nat.zero_le _
  | cons a as ih =>
    obtain ⟨t, ht⟩ := Option.isSome_iff_exists.mp h
    obtain ⟨u, hu, hrun⟩ := Option.bind_eq_some_iff.mp ht
    have hlt : u.rank < s.rank := ofCall_rank (has a List.mem_cons_self) hu
    have hle := ih (fun a' ha' => has a' (List.mem_cons_of_mem _ ha')) (s := u) (by rw [hrun]; rfl)
    rw [List.length_cons]
    omega

/-- A call does not get stuck. -/
theorem call_goes_on (hp : s.phase ≠ .outside) (canSend : Bool) {accepted : ℕ}
    (haccepts : s.Accepts accepted) :
    ∃ a ∈ [DeliverAction.tryRecv, .sendSlice canSend accepted, .finish], (s.step a).isSome := by
  cases hphase : s.phase with
  | outside => exact absurd hphase hp
  | receiving => exact ⟨.tryRecv, by simp, by simp [Delivery.step, Transition.when, hphase]⟩
  | closing => exact ⟨.finish, by simp, by simp [Delivery.step, Transition.when, hphase]⟩
  | writing =>
    refine ⟨.sendSlice canSend accepted, by simp, ?_⟩
    simp only [Delivery.step, if_pos hphase, Delivery.sendSlice]
    cases hpending : s.downloadPending with
    | none => rfl
    | some p =>
      obtain ⟨data, offset⟩ := p
      have hle := haccepts data offset hpending
      cases canSend <;> simp [Transition.when, hle]

theorem deliverAccount_of_reachable (h : (deliveries b).Reachable (s, g)) :
    DeliverAccount b s g := by
  refine h.invariant (I := fun q => DeliverAccount b q.1 q.2) ?_ ?_
  · rintro ⟨s, g⟩ ⟨hs, hg⟩
    dsimp only at hs hg
    subst hs hg
    exact ⟨rfl, by simp [Delivery.initial, DeliverHistory.empty], rfl,
      by simp [Delivery.initial], by simp [Delivery.initial]⟩
  · rintro ⟨s, g⟩ a ⟨t, g'⟩ _ hs - ht
    obtain ⟨hstep, hg⟩ := System.observe_step.mp ht
    dsimp only at hstep hg hs ⊢
    rw [hg]
    exact hs.step hstep

/-- Whatever arrives when, and whatever the socket answers. -/
theorem delivered_of_reachable (h : (deliveries b).Reachable (s, g)) : Delivered b s g := by
  have hs := deliverAccount_of_reachable h
  have hfin : g.closes ≠ 0 → s.finSent = true := by
    intro hne
    by_contra hnot
    rw [hs.closes, if_neg hnot] at hne
    exact hne rfl
  constructor
  · exact hs.stream
  · exact hs.bytes
  · rw [hs.closes]
    split_ifs <;> decide
  · intro hclosed
    have hdone : s.remoteEof = true ∧ s.downloadPending = none := by
      rcases hclosed with hcloses | hne
      · simp only [Delivery.closesSocket, Bool.and_eq_true, Option.isNone_iff_eq_none] at hcloses
        exact hcloses.1
      · exact ⟨(hs.fin (hfin hne)).1, (hs.fin (hfin hne)).2.1⟩
    obtain ⟨hsender, hrx⟩ := hs.eof hdone.1
    refine ⟨hsender, hrx, ?_⟩
    rw [← hs.stream]
    simp [Delivery.pendingRest, Delivery.queued, hdone.2, hrx]
  · intro hne canSend accepted
    exact if_neg (hs.fin (hfin hne)).2.2
  · exact fun hp canSend accepted haccepts => call_goes_on hp canSend haccepts
  · exact fun as has hrun => run_ofCall_rank as has hrun

/-- A chunk is written in two calls, an empty one follows it, and then the stream ends. -/
theorem delivered_closed : ∃ (s : Delivery) (g : DeliverHistory),
    g.put = [[1, 2], []] ∧ g.written = [1, 2] ∧ g.closes = 1 ∧ Delivered 7 s g := by
  have h0 : (deliveries 7).Reachable (.initial 7, .empty) := .init ⟨rfl, rfl⟩
  have h := h0.run [.connect, .put [1, 2], .call, .tryRecv, .sendSlice true 1, .finish, .put [],
    .dropSender, .call, .tryRecv, .sendSlice true 1, .tryRecv, .sendSlice true 0, .tryRecv,
    .finish] rfl
  exact ⟨_, _, rfl, rfl, rfl, delivered_of_reachable h⟩

end Calls

section Flow

variable {s t : FlowState} {a : FlowAction}

def FlowPhase.deliver : FlowPhase → DeliverPhase
  | .receiving => .receiving
  | .writing => .writing
  | .closing => .closing
  | _ => .outside

/-- The part of a flow that `deliver_download` works on. -/
def FlowState.delivery (s : FlowState) : Delivery where
  phase := s.phase.deliver
  remoteRx := s.flow.remoteRx
  sender := s.reader ≠ .ended
  downloadPending := s.flow.downloadPending
  remoteEof := s.flow.remoteEof
  finSent := s.flow.finSent
  downloadBytes := s.downloadBytes

/-- A flow whose reader thread runs has the receiver of its channel. -/
def FlowState.Linked (s : FlowState) : Prop := s.reader ≠ .idle → s.flow.remoteRx ≠ none

/-- What the step of a flow is for `deliver_download`. -/
def Delivers (s t : FlowState) : Prop :=
  t.delivery = s.delivery ∨ ∃ a, s.delivery.step a = some t.delivery

/-- A step outside of the calls. -/
theorem delivers_outside (hp : s.phase.deliver = .outside) (ht : t.phase.deliver = .outside)
    (h : { s.delivery with phase := t.phase.deliver } = t.delivery) : Delivers s t := by
  refine Or.inl (h.symm.trans ?_)
  rw [ht, ← hp]
  rfl

theorem delivers_tryConnect (hs : s.Streams) (hp : s.phase.deliver = .outside) {p : FlowPhase}
    (hout : p.deliver = .outside) :
    Delivers s { s.tryConnect with phase := p } ∧
      (s.Linked → { s.tryConnect with phase := p }.Linked) := by
  unfold FlowState.tryConnect
  split_ifs with hc
  · obtain ⟨hrx, hidle⟩ := hs.unconnected hc
    split
    · refine ⟨Or.inr ⟨.connect, ?_⟩, fun _ _ => by simp⟩
      simp [Delivery.step, FlowState.delivery, hrx, hidle, hp, hout]
    · exact ⟨delivers_outside hp hout rfl, id⟩
    · exact ⟨delivers_outside hp hout rfl, id⟩
    · exact ⟨delivers_outside hp hout rfl, id⟩
  · exact ⟨delivers_outside hp hout rfl, id⟩

theorem delivers_tryRecv (hp : s.phase = .receiving) :
    Delivers s s.tryRecv ∧ (s.Linked → s.tryRecv.Linked) := by
  have hstep : s.delivery.step .tryRecv = some s.delivery.tryRecv := by
    simp [Delivery.step, FlowState.delivery, hp, FlowPhase.deliver]
  constructor
  · refine Or.inr ⟨.tryRecv, hstep.trans (congrArg some ?_)⟩
    unfold Delivery.tryRecv FlowState.tryRecv
    cases hpending : s.flow.downloadPending with
    | some p => simp [FlowState.delivery, hpending, FlowPhase.deliver]
    | none =>
      cases hrx : s.flow.remoteRx with
      | none => simp [FlowState.delivery, hpending, hrx, FlowPhase.deliver]
      | some queue =>
        cases queue with
        | cons data rest => simp [FlowState.delivery, hpending, hrx, FlowPhase.deliver]
        | nil =>
          by_cases hreader : s.reader = .ended
          · simp [FlowState.delivery, hpending, hrx, hreader, FlowPhase.deliver]
          · simp [FlowState.delivery, hpending, hrx, hreader, FlowPhase.deliver]
  · intro hl
    unfold FlowState.tryRecv
    split
    · exact hl
    · exact hl
    · exact fun _ => by simp
    · split_ifs
      · exact hl
      · exact hl

theorem Socket.writes_le (k : Socket) (data : Chunk) : k.writes data ≤ data.length := by
  unfold Socket.writes
  split_ifs
  · exact Nat.min_le_left _ _
  · exact Nat.zero_le _

theorem delivers_sendSlice (hp : s.phase = .writing) :
    Delivers s s.sendSlice ∧ (s.Linked → s.sendSlice.Linked) := by
  have hphase : s.delivery.phase = .writing := by rw [FlowState.delivery, hp, FlowPhase.deliver]
  unfold FlowState.sendSlice
  cases hpending : s.flow.downloadPending with
  | none =>
    refine ⟨Or.inr ⟨.sendSlice false 0, ?_⟩, id⟩
    rw [Delivery.step, if_pos hphase]
    simp [Delivery.sendSlice, FlowState.delivery, hpending, FlowPhase.deliver]
  | some p =>
    obtain ⟨data, offset⟩ := p
    have hle := s.socket.writes_le (data.drop offset)
    rw [List.length_drop] at hle
    cases hsend : s.socket.canSend with
    | false =>
      refine ⟨Or.inr ⟨.sendSlice false 0, ?_⟩, id⟩
      rw [Delivery.step, if_pos hphase]
      simp [Delivery.sendSlice, FlowState.delivery, hpending, FlowPhase.deliver]
    | true =>
      refine ⟨Or.inr ⟨.sendSlice true (s.socket.writes (data.drop offset)), ?_⟩, id⟩
      rw [Delivery.step, if_pos hphase]
      simp only [Delivery.sendSlice, FlowState.delivery, hpending, if_true, when_eq_some]
      refine ⟨hle, ?_⟩
      split_ifs <;> rfl

theorem delivers_closeSocket (hp : s.phase = .closing) :
    Delivers s s.closeSocket ∧ (s.Linked → s.closeSocket.Linked) := by
  have hstep : s.delivery.step .finish = some { s.delivery with
      phase := .outside
      finSent := s.delivery.finSent || s.delivery.closesSocket } := by
    simp [Delivery.step, FlowState.delivery, hp, FlowPhase.deliver]
  constructor
  · refine Or.inr ⟨.finish, hstep.trans (congrArg some ?_)⟩
    unfold FlowState.closeSocket
    split_ifs with hcond
    · obtain ⟨heof, hpending, hfin⟩ := hcond
      simp [FlowState.delivery, Delivery.closesSocket, heof, hpending, hfin, FlowPhase.deliver]
    · have hno : s.delivery.closesSocket = false := by
        by_contra hyes
        simp only [Delivery.closesSocket, FlowState.delivery, Bool.not_eq_false, Bool.and_eq_true,
          Option.isNone_iff_eq_none, Bool.not_eq_true'] at hyes
        exact hcond ⟨hyes.1.1, hyes.1.2, by simp [hyes.2]⟩
      rw [hno, Bool.or_false]
      rfl
  · intro hl
    unfold FlowState.closeSocket
    split_ifs
    · exact hl
    · exact hl

/-- The reader thread puts its chunk into the channel, or drops the sender. -/
theorem delivers_readerSend (h : s.step .readerSend = some t) : Delivers s t ∧ t.Linked := by
  simp only [FlowState.step] at h
  split at h
  · rename_i data queue hreader hrx
    split_ifs at h with hgone
    · obtain rfl := Option.some.inj h
      refine ⟨Or.inr ⟨.dropSender, ?_⟩, fun _ => ?_⟩
      · simp [Delivery.step, FlowState.delivery, hrx]
      · simp [hrx]
    · obtain ⟨-, rfl⟩ := when_eq_some.mp h
      refine ⟨Or.inr ⟨.put data, ?_⟩, fun _ => by simp⟩
      simp [Delivery.step, FlowState.delivery, hrx, hreader]
  · cases h

/-- The reader thread ends, and with it its sender, or goes on. -/
theorem delivers_reader {reader : ReaderThread} {delivered : List Chunk} {eof : Bool}
    (hl : s.Linked) (hidle : s.reader ≠ .idle) (hend : s.reader ≠ .ended) :
    Delivers s { s with reader := reader, delivered := delivered, eof := eof } ∧
      { s with reader := reader, delivered := delivered, eof := eof }.Linked := by
  have hrx := hl hidle
  refine ⟨?_, fun _ => hrx⟩
  by_cases hreader : reader = .ended
  · refine Or.inr ⟨.dropSender, ?_⟩
    simp [Delivery.step, FlowState.delivery, hreader, Option.isSome_iff_ne_none, hrx]
  · refine Or.inl ?_
    simp [FlowState.delivery, hreader, hend]

theorem delivers_of_step (hs : s.Streams) (hl : s.Linked) (h : s.step a = some t) :
    Delivers s t ∧ t.Linked := by
  cases a with
  | tryConnect =>
    obtain ⟨hp, rfl⟩ := when_eq_some.mp h
    have hout : FlowPhase.deliver (if s.tryConnect.flow.remote then .uploading else .judging) =
        .outside := by
      split_ifs <;> rfl
    have hstep := delivers_tryConnect hs (by rw [hp]; rfl) hout
    exact ⟨hstep.1, hstep.2 hl⟩
  | tryRecv =>
    obtain ⟨hp, rfl⟩ := when_eq_some.mp h
    exact ⟨(delivers_tryRecv hp).1, (delivers_tryRecv hp).2 hl⟩
  | sendSlice =>
    obtain ⟨hp, rfl⟩ := when_eq_some.mp h
    exact ⟨(delivers_sendSlice hp).1, (delivers_sendSlice hp).2 hl⟩
  | closeSocket =>
    obtain ⟨hp, rfl⟩ := when_eq_some.mp h
    exact ⟨(delivers_closeSocket hp).1, (delivers_closeSocket hp).2 hl⟩
  | stopUpload =>
    obtain ⟨⟨hp, -⟩, rfl⟩ := when_eq_some.mp h
    refine ⟨Or.inr ⟨.call, ?_⟩, hl⟩
    simp [Delivery.step, FlowState.delivery, hp, FlowPhase.deliver]
  | send =>
    simp only [FlowState.step] at h
    split at h
    · rename_i data hp
      obtain rfl := Option.some.inj h
      unfold FlowState.send
      split_ifs
      · exact ⟨delivers_outside (by rw [hp]; rfl) rfl rfl, hl⟩
      · refine ⟨Or.inr ⟨.call, ?_⟩, hl⟩
        simp [Delivery.step, FlowState.delivery, hp, FlowPhase.deliver]
    · cases h
  | readerSend => exact delivers_readerSend h
  | readerCheck =>
    obtain ⟨hp, rfl⟩ := when_eq_some.mp h
    exact delivers_reader hl (by simp [hp]) (by simp [hp])
  | readerRead data =>
    obtain ⟨⟨hp, -⟩, rfl⟩ := when_eq_some.mp h
    split_ifs
    · exact delivers_reader hl (by simp [hp]) (by simp [hp])
    · exact delivers_reader hl (by simp [hp]) (by simp [hp])
  | poll e =>
    obtain ⟨-, k, -, rfl⟩ := FlowState.step_poll h
    exact ⟨Or.inl rfl, hl⟩
  | visit | recvSlice | judge now | stopLoop =>
    obtain ⟨hp, rfl⟩ := when_eq_some.mp h
    have hout : s.phase.deliver = .outside := by simp [hp, FlowPhase.deliver]
    exact ⟨delivers_outside hout rfl rfl, hl⟩
  | reap =>
    obtain ⟨hp, rfl⟩ := when_eq_some.mp h
    have hout : s.phase.deliver = .outside := by simp [hp, FlowPhase.deliver]
    refine ⟨delivers_outside hout ?_ rfl, hl⟩
    dsimp only
    split_ifs <;> rfl
  | writerRecv =>
    simp only [FlowState.step] at h
    split at h
    all_goals
      obtain ⟨-, rfl⟩ := when_eq_some.mp h
      exact ⟨Or.inl rfl, hl⟩
  | writerWrite ok =>
    simp only [FlowState.step] at h
    split at h
    · split_ifs at h
      all_goals
        obtain rfl := Option.some.inj h
        exact ⟨Or.inl rfl, hl⟩
    · cases h
  | writerDies =>
    simp only [FlowState.step] at h
    split at h
    · obtain rfl := Option.some.inj h
      exact ⟨Or.inl rfl, hl⟩
    · cases h
  | connectReturns | connectDies | writerCheck | writerTimeout | writerFree | writerBreak =>
    obtain ⟨-, rfl⟩ := when_eq_some.mp h
    exact ⟨Or.inl rfl, hl⟩

/-- The calls on a flow of the stack are runs of `deliver_download` on a socket. -/
theorem delivery_reachable (h : flowSystem.Reachable s) :
    (deliverySystem 0).Reachable s.delivery := by
  have hs : s.Streams ∧ s.Linked ∧ (deliverySystem 0).Reachable s.delivery := by
    refine h.invariant
      (I := fun s => s.Streams ∧ s.Linked ∧ (deliverySystem 0).Reachable s.delivery) ?_ ?_
    · rintro s ⟨k, now, hk, rfl⟩
      exact ⟨FlowState.streams_started k now hk.unsent, fun hne => absurd rfl hne, .init rfl⟩
    · rintro s a t - ⟨hs, hl, hreach⟩ - ht
      obtain ⟨hstep, hlinked⟩ := delivers_of_step hs hl ht
      refine ⟨hs.step ht, hlinked, ?_⟩
      rcases hstep with hsame | ⟨b, hb⟩
      · rw [hsame]
        exact hreach
      · exact .step hreach trivial hb
  exact hs.2.2

end Flow

end NulConnect.TunStack
