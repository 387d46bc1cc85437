import NulConnect.Error
import NulConnect.Transition.System

/-! The two workers of the engine: `spawn_tun_to_l3` and `spawn_l3_to_tun`, with the errors that
end the engine. -/
namespace NulConnect.VpnEngine
open Net Transition

abbrev Bytes := List UInt8

/-- The errors of the tunnel library. -/
inductive ReatrustError where
  | invalidArgument (message : Text)
  | parseFailed (message : Text)
  | networkFailed (message : Text)
  | unauthorized (message : Text)
  | challengeRequired (message : Text)
  | invalidState (message : Text)
  | cryptoFailed (message : Text)
  | notFound (message : Text)
  | unsupported (message : Text)
  | internal (message : Text)
deriving DecidableEq

def mapReatrustError : ReatrustError → AtrError
  | .invalidArgument message => .invalidArgument message
  | .parseFailed message => .parseFailed message
  | .networkFailed message => .networkFailed message
  | .unauthorized message => .unauthorized message
  | .challengeRequired message => .challengeRequired message
  | .invalidState message => .invalidState message
  | .cryptoFailed message => .cryptoFailed message
  | .notFound message => .notFound message
  | .unsupported message => .unsupported message
  | .internal message => .internal message

/-- The kinds of I/O errors that the workers tell apart. -/
inductive ErrorKind where
  | wouldBlock
  | interrupted
  | other
deriving DecidableEq

structure IoError where
  kind : ErrorKind
  message : Text
deriving DecidableEq

def isIpv6Packet (packet : Bytes) : Bool := packet.head?.any fun byte : UInt8 => byte >>> 4 == 6

def isPacketLocalError : AtrError → Bool
  | .notFound _ | .unsupported _ | .parseFailed _ | .invalidArgument _ => true
  | _ => false

def packetInformationLength : ℕ := 4

def stripPacketInformation (packet : Bytes) (enabled : Bool) : Except AtrError Bytes :=
  if ¬ enabled then .ok packet
  else if packet.length ≤ packetInformationLength then
    .error (.invalidArgument ("packet too short for packet information header: ".toList ++
      Nat.toDigits 10 packet.length ++ " bytes".toList))
  else .ok (packet.drop packetInformationLength)

structure WorkerConfig where
  packetInformation : Bool
  exitOnFatalError : Bool

/-- How an arm of a worker's `match` goes on. -/
inductive Outcome (Retry : Type) where
  | next
  /-- A packet of so many bytes has been carried. -/
  | carried (bytes : ℕ)
  /-- The next arms first ask whether the engine is closed. -/
  | unlessClosed (retry : Retry)
  | fail (err : AtrError)
deriving DecidableEq

/-- One turn of the uplink loop: what the device gave, whether the protocol stack took the packet,
and what the tunnel made of it. -/
def uplinkTurn (c : WorkerConfig) (received : Except IoError Bytes) (accepted : Bool)
    (written : Except ReatrustError ℕ) : Outcome Unit :=
  match received with
  | .ok [] => .next
  | .ok (byte :: bytes) =>
    match stripPacketInformation (byte :: bytes) c.packetInformation with
    | .ok packet =>
      if isIpv6Packet packet then .next
      else if accepted then .next
      else
        match written.mapError mapReatrustError with
        | .ok bytes => .carried bytes
        | .error err =>
          if isPacketLocalError err then .next
          else if ¬ c.exitOnFatalError then .next
          else .fail err
    | .error err =>
      if isPacketLocalError err ∨ ¬ c.exitOnFatalError then .next
      else .fail err
  | .error err =>
    match err.kind with
    | .wouldBlock => .next
    | .interrupted => .unlessClosed ()
    | .other => .fail (.networkFailed err.message)

/-- One turn of the downlink loop: what the tunnel gave, and what the device made of it. -/
def downlinkTurn (c : WorkerConfig) (read : Except ReatrustError Bytes)
    (sent : Except IoError Unit) : Outcome AtrError :=
  match read.mapError mapReatrustError with
  | .ok packet =>
    match sent with
    | .ok () => .carried packet.length
    | .error err =>
      if err.kind = .wouldBlock then .next
      else if ¬ c.exitOnFatalError then .next
      else .fail (.networkFailed err.message)
  | .error err => .unlessClosed err

def Outcome.bytes {Retry : Type} : Outcome Retry → ℕ
  | .carried bytes => bytes
  | _ => 0

def Outcome.packets {Retry : Type} : Outcome Retry → ℕ
  | .carried _ => 1
  | _ => 0

/-- Where a worker is: at the condition of its loop, in the call that gives the next packet, in an
arm that asks whether the engine is closed, behind the loop, or in `fail_engine` before the result
and before `close` is stored. -/
inductive Worker (Retry : Type) where
  | condition
  | packet
  | unlessClosed (retry : Retry)
  | behind
  | setResult (err : AtrError)
  | storeClose
  | done
deriving DecidableEq

/-- What the workers and the owner of the engine share; `failures` are the errors that
`fail_engine` has been called with. -/
structure Shared where
  close : Bool
  result : Option (Except AtrError ℕ)
  failures : List AtrError

/-- A worker calls `fail_engine`. -/
def failEngine {Retry : Type} (s : Shared) (err : AtrError) : Shared × Worker Retry :=
  ({ s with failures := err :: s.failures }, .setResult err)

/-- A step outside the calls for packets. `onOpen` is what the arm that found the engine open does
next: an error for `fail_engine`, or nothing; `stopped` is the error behind the loop. -/
def advance {Retry : Type} (onOpen : Retry → Option AtrError) (stopped : AtrError) (s : Shared) :
    Worker Retry → Option (Shared × Worker Retry)
  | .condition => some (s, if s.close then .behind else .packet)
  | .packet => none
  | .unlessClosed retry =>
    if s.close then some (s, .behind)
    else
      match onOpen retry with
      | none => some (s, .condition)
      | some err => some (failEngine s err)
  | .behind => if s.close then some (s, .done) else some (failEngine s stopped)
  | .setResult err => some ({ s with result := s.result.or (some (.error err)) }, .storeClose)
  | .storeClose => some ({ s with close := true }, .done)
  | .done => none

/-- The turn of a loop with a packet. -/
def takeTurn {Retry : Type} (s : Shared) (outcome : Outcome Retry) :
    Worker Retry → Option (Shared × Worker Retry)
  | .packet =>
    match outcome with
    | .next | .carried _ => some (s, .condition)
    | .unlessClosed retry => some (s, .unlessClosed retry)
    | .fail err => some (failEngine s err)
  | _ => none

/-- The workers, with what each of them has added to the counters of the engine. -/
structure Engine where
  shared : Shared
  uplink : Worker Unit
  downlink : Worker AtrError
  uploadBytes : ℕ
  uploadPackets : ℕ
  downloadBytes : ℕ
  downloadPackets : ℕ

def initial : Engine where
  shared := { close := false, result := none, failures := [] }
  uplink := .condition
  downlink := .condition
  uploadBytes := 0
  uploadPackets := 0
  downloadBytes := 0
  downloadPackets := 0

inductive Action where
  | cancel
  | takeResult
  | uplink
  | uplinkPacket (received : Except IoError Bytes) (accepted : Bool)
      (written : Except ReatrustError ℕ)
  | downlink
  | downlinkPacket (read : Except ReatrustError Bytes) (sent : Except IoError Unit)

def step (c : WorkerConfig) (s : Engine) : Action → Option Engine
  | .cancel => some { s with shared.close := true }
  | .takeResult => some { s with
      shared.result := none
      shared.close := s.shared.close || s.shared.result.isSome }
  | .uplink =>
    (advance (fun _ => none) (.networkFailed "L3 uplink worker stopped unexpectedly".toList)
      s.shared s.uplink).map fun p => { s with shared := p.1, uplink := p.2 }
  | .uplinkPacket received accepted written =>
    let outcome := uplinkTurn c received accepted written
    (takeTurn s.shared outcome s.uplink).map fun p => { s with
      shared := p.1
      uplink := p.2
      uploadBytes := s.uploadBytes + outcome.bytes
      uploadPackets := s.uploadPackets + outcome.packets }
  | .downlink =>
    (advance (fun err => if ¬ c.exitOnFatalError then none else some err)
      (.networkFailed "L3 downlink worker stopped unexpectedly".toList)
      s.shared s.downlink).map fun p => { s with shared := p.1, downlink := p.2 }
  | .downlinkPacket read sent =>
    let outcome := downlinkTurn c read sent
    (takeTurn s.shared outcome s.downlink).map fun p => { s with
      shared := p.1
      downlink := p.2
      downloadBytes := s.downloadBytes + outcome.bytes
      downloadPackets := s.downloadPackets + outcome.packets }

def workers (c : WorkerConfig) : System Engine Action where
  init s := s = initial
  step := step c

/-- Every error of the step is about a single packet, and the device only ever asks to be tried
again. -/
def PacketLocal : Action → Prop
  | .uplinkPacket received _ written =>
    (∀ err, received = .error err → err.kind ≠ .other) ∧
      ∀ err, written = .error err → isPacketLocalError (mapReatrustError err)
  | .downlinkPacket read sent =>
    (∀ err, read = .error err → isPacketLocalError (mapReatrustError err)) ∧
      ∀ err, sent = .error err → err.kind ≠ .other
  | _ => True

/-- A worker is at work. -/
def Worker.Working {Retry : Type} : Worker Retry → Prop
  | .condition | .packet | .unlessClosed _ => True
  | _ => False

/-- `fail_engine` has never been called, and while the engine is open both workers go on. -/
structure Unstopped (s : Engine) : Prop where
  failures : s.shared.failures = []
  uplink : s.shared.close = false → s.uplink.Working
  downlink : s.shared.close = false → s.downlink.Working

/-- The step is not one that ends an open engine over a packet: with `exit_on_fatal_error` the
downlink worker finds no error of `read_packet` while the engine is open, and no `Interrupted`
of the device. -/
def Spared (c : WorkerConfig) (s : Engine) : Action → Prop
  | .downlink => c.exitOnFatalError → ∀ err, s.downlink = .unlessClosed err → s.shared.close
  | .downlinkPacket read sent => c.exitOnFatalError →
    ∀ packet err, read = .ok packet → sent = .error err → err.kind ≠ .interrupted
  | _ => True

/-- Where a worker may be while `fail_engine` has not been called. -/
def Quiet {Retry : Type} (close : Bool) : Worker Retry → Prop
  | .condition | .packet | .unlessClosed _ => True
  | .behind | .done => close = true
  | .setResult _ | .storeClose => False

section Steps

variable {Retry : Type} {c : WorkerConfig} {s t : Shared} {w w' : Worker Retry}
  {onOpen : Retry → Option AtrError} {stopped : AtrError} {outcome : Outcome Retry}

theorem Quiet.mono {close close' : Bool} (h : Quiet close w) (hc : close = true → close' = true) :
    Quiet close' w := by
  cases w with
  | condition | packet | unlessClosed => trivial
  | behind | done => exact hc h
  | setResult | storeClose => exact h.elim

/-- The arm at which a worker is calls `fail_engine`. -/
def Fails (onOpen : Retry → Option AtrError) (s : Shared) (w : Worker Retry) : Prop :=
  ∃ retry, w = .unlessClosed retry ∧ s.close = false ∧ onOpen retry ≠ none

theorem advance_spec (h : advance onOpen stopped s w = some (t, w'))
    (hq : s.failures = [] → Quiet s.close w) :
    (s.close = true → t.close = true) ∧
      (t.failures = [] ↔ s.failures = [] ∧ ¬ Fails onOpen s w) ∧
      (t.failures = [] → Quiet t.close w') := by
  cases w with
  | condition =>
    obtain ⟨rfl, rfl⟩ := Prod.mk.inj (Option.some.inj h)
    refine ⟨id, by simp [Fails], fun _ => ?_⟩
    split_ifs with hc
    · exact hc
    · trivial
  | packet => cases h
  | unlessClosed retry =>
    by_cases hc : s.close
    · simp only [advance, if_pos hc] at h
      obtain ⟨rfl, rfl⟩ := Prod.mk.inj (Option.some.inj h)
      exact ⟨id, by simp [Fails, hc], fun _ => hc⟩
    · cases ho : onOpen retry with
      | none =>
        simp only [advance, if_neg hc, ho] at h
        obtain ⟨rfl, rfl⟩ := Prod.mk.inj (Option.some.inj h)
        exact ⟨id, by simp [Fails, ho], fun _ => trivial⟩
      | some err =>
        simp only [advance, if_neg hc, ho] at h
        obtain ⟨rfl, rfl⟩ := Prod.mk.inj (Option.some.inj h)
        have hf : Fails onOpen s (.unlessClosed retry) :=
          ⟨retry, rfl, by simpa using hc, by simp [ho]⟩
        exact ⟨id, by simp [hf], by simp⟩
  | behind =>
    by_cases hc : s.close
    · simp only [advance, if_pos hc] at h
      obtain ⟨rfl, rfl⟩ := Prod.mk.inj (Option.some.inj h)
      exact ⟨id, by simp [Fails], fun _ => hc⟩
    · simp only [advance, if_neg hc] at h
      obtain ⟨rfl, rfl⟩ := Prod.mk.inj (Option.some.inj h)
      have hs : s.failures ≠ [] := fun hs => hc (hq hs)
      exact ⟨id, by simp [hs], by simp⟩
  | setResult err =>
    obtain ⟨rfl, rfl⟩ := Prod.mk.inj (Option.some.inj h)
    exact ⟨id, by simp [Fails], fun hs => (hq hs).elim⟩
  | storeClose =>
    obtain ⟨rfl, rfl⟩ := Prod.mk.inj (Option.some.inj h)
    exact ⟨fun _ => rfl, by simp [Fails], fun _ => rfl⟩
  | done => cases h

theorem takeTurn_spec (h : takeTurn s outcome w = some (t, w')) :
    t.close = s.close ∧ (t.failures = [] ↔ s.failures = [] ∧ ∀ err, outcome ≠ .fail err) ∧
      (t.failures = [] → Quiet t.close w') := by
  cases w with
  | packet =>
    cases outcome with
    | next | carried =>
      obtain ⟨rfl, rfl⟩ := Prod.mk.inj (Option.some.inj h)
      exact ⟨rfl, by simp, fun _ => trivial⟩
    | unlessClosed retry =>
      obtain ⟨rfl, rfl⟩ := Prod.mk.inj (Option.some.inj h)
      exact ⟨rfl, by simp, fun _ => trivial⟩
    | fail err =>
      obtain ⟨rfl, rfl⟩ := Prod.mk.inj (Option.some.inj h)
      exact ⟨rfl, by simp, by simp⟩
  | condition | unlessClosed | behind | setResult | storeClose | done => cases h

theorem strip_error {packet : Bytes} {enabled : Bool} {err : AtrError}
    (h : stripPacketInformation packet enabled = .error err) : isPacketLocalError err := by
  unfold stripPacketInformation at h
  split_ifs at h
  obtain rfl := Except.error.inj h
  rfl

/-- The uplink worker never takes an error about a packet for one about the tunnel. -/
theorem uplinkTurn_ne_fail {received : Except IoError Bytes} {accepted : Bool}
    {written : Except ReatrustError ℕ} (h : PacketLocal (.uplinkPacket received accepted written))
    (err : AtrError) : uplinkTurn c received accepted written ≠ .fail err := by
  obtain ⟨hdevice, htunnel⟩ := h
  intro hf
  cases received with
  | ok bytes =>
    cases bytes with
    | nil => cases hf
    | cons byte bytes =>
      cases hs : stripPacketInformation (byte :: bytes) c.packetInformation with
      | ok packet =>
        cases written with
        | ok n =>
          simp only [uplinkTurn, hs, Except.mapError] at hf
          split_ifs at hf
        | error e =>
          simp only [uplinkTurn, hs, Except.mapError, if_pos (htunnel e rfl)] at hf
          split_ifs at hf
      | error e =>
        simp only [uplinkTurn, hs, if_pos (Or.inl (strip_error hs))] at hf
        cases hf
  | error e =>
    cases hk : e.kind with
    | wouldBlock | interrupted =>
      simp only [uplinkTurn, hk] at hf
      cases hf
    | other => exact hdevice e rfl hk

/-- The downlink worker ends the engine in its turn exactly when the device was interrupted. -/
theorem downlinkTurn_fail_iff {read : Except ReatrustError Bytes} {sent : Except IoError Unit}
    (h : PacketLocal (.downlinkPacket read sent)) :
    (∀ err, downlinkTurn c read sent ≠ .fail err) ↔ (c.exitOnFatalError →
      ∀ packet err, read = .ok packet → sent = .error err → err.kind ≠ .interrupted) := by
  obtain ⟨-, hdevice⟩ := h
  cases read with
  | error e => simp [downlinkTurn, Except.mapError]
  | ok packet =>
    cases sent with
    | ok => simp [downlinkTurn, Except.mapError]
    | error e =>
      have hother := hdevice e rfl
      cases hk : e.kind with
      | wouldBlock => simp [downlinkTurn, Except.mapError, hk]
      | interrupted =>
        by_cases hx : c.exitOnFatalError
        · simp [downlinkTurn, Except.mapError, hk, hx]
        · simp [downlinkTurn, Except.mapError, hk, hx]
      | other => exact absurd hk hother

end Steps

section Runs

variable {c : WorkerConfig} {s t : Engine} {a : Action} {o : Prop}

/-- The runs of the workers, and whether every step so far has been spared. -/
def observed (c : WorkerConfig) : System (Engine × Prop) Action :=
  (workers c).observe True fun o s a => o ∧ Spared c s a

/-- `fail_engine` has been called exactly when a step was not spared, and until then a worker ends
only once the engine is closed. -/
structure Account (s : Engine) (o : Prop) : Prop where
  spared : s.shared.failures = [] ↔ o
  uplink : s.shared.failures = [] → Quiet s.shared.close s.uplink
  downlink : s.shared.failures = [] → Quiet s.shared.close s.downlink

theorem Account.step (hs : Account s o) (hlocal : PacketLocal a)
    (h : VpnEngine.step c s a = some t) : Account t (o ∧ Spared c s a) := by
  cases a with
  | cancel =>
    obtain rfl := Option.some.inj h
    exact ⟨by simp [hs.spared, Spared], fun hf => (hs.uplink hf).mono fun _ => rfl,
      fun hf => (hs.downlink hf).mono fun _ => rfl⟩
  | takeResult =>
    obtain rfl := Option.some.inj h
    have hmono : s.shared.close = true → (s.shared.close || s.shared.result.isSome) = true :=
      fun hc => by rw [hc, Bool.true_or]
    exact ⟨by simp [hs.spared, Spared], fun hf => (hs.uplink hf).mono hmono,
      fun hf => (hs.downlink hf).mono hmono⟩
  | uplink =>
    obtain ⟨⟨shared, w⟩, hw, rfl⟩ := Option.map_eq_some_iff.mp h
    obtain ⟨hclose, hfail, hquiet⟩ := advance_spec hw hs.uplink
    have hnot : ¬ Fails (fun _ => none) s.shared s.uplink := by
      rintro ⟨_, -, -, hne⟩
      exact hne rfl
    refine ⟨by simp [hfail, hnot, hs.spared, Spared], hquiet, fun hf => ?_⟩
    exact (hs.downlink (hfail.mp hf).1).mono hclose
  | uplinkPacket received accepted written =>
    obtain ⟨⟨shared, w⟩, hw, rfl⟩ := Option.map_eq_some_iff.mp h
    obtain ⟨hclose, hfail, hquiet⟩ := takeTurn_spec hw
    have hne := uplinkTurn_ne_fail (c := c) hlocal
    refine ⟨by simp [hfail, hne, hs.spared, Spared], hquiet, fun hf => ?_⟩
    exact (hs.downlink (hfail.mp hf).1).mono fun hc => hclose.trans hc
  | downlink =>
    obtain ⟨⟨shared, w⟩, hw, rfl⟩ := Option.map_eq_some_iff.mp h
    obtain ⟨hclose, hfail, hquiet⟩ := advance_spec hw hs.downlink
    have hspared : ¬ Fails (fun err => if ¬ c.exitOnFatalError then none else some err) s.shared
        s.downlink ↔ Spared c s .downlink := by
      unfold Fails Spared
      by_cases hx : c.exitOnFatalError
      · simp [hx]
      · simp [hx]
    refine ⟨?_, fun hf => ?_, hquiet⟩
    · change shared.failures = [] ↔ _
      rw [hfail, hs.spared, hspared]
    · exact (hs.uplink (hfail.mp hf).1).mono hclose
  | downlinkPacket read sent =>
    obtain ⟨⟨shared, w⟩, hw, rfl⟩ := Option.map_eq_some_iff.mp h
    obtain ⟨hclose, hfail, hquiet⟩ := takeTurn_spec hw
    refine ⟨?_, fun hf => ?_, hquiet⟩
    · change shared.failures = [] ↔ _
      rw [hfail, hs.spared, downlinkTurn_fail_iff hlocal]
      rfl
    · exact (hs.uplink (hfail.mp hf).1).mono fun hc => hclose.trans hc

theorem account_of_reachable
    (h : (observed c).ReachUnder (fun _ a => PacketLocal a) (s, o)) : Account s o := by
  refine h.invariant (I := fun q => Account q.1 q.2) ?_ ?_
  · rintro ⟨s, o⟩ ⟨hs, ho⟩
    dsimp only at hs ho
    subst hs ho
    exact ⟨by simp [initial], fun _ => trivial, fun _ => trivial⟩
  · rintro ⟨s, o⟩ a ⟨t, o'⟩ _ hs hlocal ht
    obtain ⟨hstep, ho⟩ := System.observe_step.mp ht
    dsimp only at hstep ho
    rw [ho]
    exact hs.step hlocal hstep

theorem Quiet.working {Retry : Type} {w : Worker Retry} (h : Quiet false w) : w.Working := by
  cases w with
  | condition | packet | unlessClosed => trivial
  | behind | done => cases h
  | setResult | storeClose => exact h.elim

/-- In a run with errors about single packets only, the engine goes on for as long as every step
is spared, and no longer. -/
theorem unstopped_iff_spared
    (h : (observed c).ReachUnder (fun _ a => PacketLocal a) (s, o)) : Unstopped s ↔ o := by
  have hs := account_of_reachable h
  constructor
  · exact fun hu => hs.spared.mp hu.failures
  · intro ho
    have hf := hs.spared.mpr ho
    refine ⟨hf, fun hc => ?_, fun hc => ?_⟩
    · have hq := hs.uplink hf
      rw [hc] at hq
      exact hq.working
    · have hq := hs.downlink hf
      rw [hc] at hq
      exact hq.working

end Runs

section Examples

private def fatal : WorkerConfig where
  packetInformation := false
  exitOnFatalError := true

/-- The uplink worker drops a packet that the tunnel does not know and carries the next one. -/
theorem unstopped_carriesOn : ∃ s : Engine, s.uploadPackets = 1 ∧ Unstopped s := by
  have h0 : (observed fatal).ReachUnder (fun _ a => PacketLocal a) (initial, True) :=
    .init ⟨rfl, rfl⟩
  have h1 := h0.step (a := Action.uplink) trivial rfl
  have h2 := h1.step (a := Action.uplinkPacket (.ok [0x45]) false (.error (.notFound [])))
    ⟨by simp, by simp [mapReatrustError, isPacketLocalError]⟩ rfl
  have h3 := h2.step (a := Action.uplink) trivial rfl
  have h4 := h3.step (a := Action.uplinkPacket (.ok [0x45]) false (.ok 1)) ⟨by simp, by simp⟩ rfl
  exact ⟨_, rfl, (unstopped_iff_spared h4).mpr ⟨⟨⟨⟨trivial, trivial⟩, trivial⟩, trivial⟩, trivial⟩⟩

/-- A malformed packet from the tunnel ends the engine. -/
theorem malformed_stops : ¬ ∀ (c : WorkerConfig) (s : Engine),
    (workers c).ReachUnder (fun _ a => PacketLocal a) s → Unstopped s := by
  intro hall
  have h0 : (workers fatal).ReachUnder (fun _ a => PacketLocal a) initial := .init rfl
  have h1 := h0.step (a := Action.downlink) trivial rfl
  have h2 := h1.step
    (a := Action.downlinkPacket (.error (.parseFailed "packet too short".toList)) (.ok ()))
    ⟨by simp [mapReatrustError, isPacketLocalError], by simp⟩ rfl
  have h3 := h2.step (a := Action.downlink) trivial rfl
  exact List.cons_ne_nil _ _ (hall fatal _ h3).failures

end Examples

end NulConnect.VpnEngine
