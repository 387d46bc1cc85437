import NulConnect.Macos.Client
import NulConnect.Transition.Update

/-! The helper's socket: the loop of `serve`, and any number of clients with the threads of
`handle_client`. -/
namespace NulConnect.Macos
open Net Net.Json Transition

/-- Where `serve` is with the connection it has accepted. -/
inductive ServeLoop where
  | accepting
  | checking (n : ℕ)
  | authorising (n : ℕ)
  | ended

def ServeLoop.current : ServeLoop → Option ℕ
  | .checking n => some n
  | .authorising n => some n
  | _ => none

/-- `late` is history: the connection was accepted when a request had already set
`shutting_down`. -/
structure ServerState where
  connections : ℕ → Option Connection
  loop : ServeLoop
  shuttingDown : Bool
  late : ℕ → Bool

inductive ServerAction where
  | connect (n : ℕ) (uid : UInt32)
  | accept (n : ℕ)
  | acceptFails
  | check
  | credentials (readable : Bool)
  | atConnection (n : ℕ) (action : Connection.Action)

def HelperCommand.isShutdown : HelperCommand → Bool
  | .shutdown => true
  | _ => false

/-- The step answers a `Shutdown` request. -/
def Connection.shutsDown (parse : Text → Except Text HelperRequest) (c : Connection) :
    Connection.Action → Bool
  | .handle _ =>
    match c.phase with
    | .asked line =>
      match parse line with
      | .ok request => request.command.isShutdown
      | .error _ => false
    | _ => false
  | _ => false

namespace ServerState

def put (s : ServerState) (n : ℕ) (c : Connection) : ServerState :=
  { s with connections := Function.update s.connections n (some c) }

variable (parse : Text → Except Text HelperRequest) (allowedUid : UInt32)

/-- The connection has been accepted: is the helper shutting down, and who is the client? -/
def step (s : ServerState) : ServerAction → Option ServerState
  | .connect n uid => when (s.connections n).isNone (s.put n (.opened uid))
  | .accept n =>
    match s.loop, s.connections n with
    | .accepting, some c =>
      match c.phase with
      | .queued => some { s.put n { c with phase := .accepted } with
          loop := .checking n
          late := Function.update s.late n s.shuttingDown }
      | _ => none
    | _, _ => none
  | .acceptFails =>
    match s.loop with
    | .accepting => some s
    | _ => none
  | .check =>
    match s.loop with
    | .checking n => (s.connections n).map fun c =>
        if s.shuttingDown then { s.put n { c with phase := .ended } with loop := .ended }
        else { s with loop := .authorising n }
    | _ => none
  | .credentials readable =>
    match s.loop with
    | .authorising n => (s.connections n).map fun c =>
        let phase := if readable ∧ (c.uid = allowedUid ∨ c.uid = 0) then .reading [] else .ended
        { s.put n { c with phase := phase } with loop := .accepting }
    | _ => none
  | .atConnection n action => (s.connections n).bind fun c =>
      (c.step parse action).map fun d =>
        { s.put n d with shuttingDown := s.shuttingDown || c.shutsDown parse action }

def initial : ServerState where
  connections _ := none
  loop := .accepting
  shuttingDown := false
  late _ := false

def system : System ServerState ServerAction where
  init s := s = initial
  step := step parse allowedUid

end ServerState

namespace Connection

/-- Nothing was read from the connection, nor written to it. -/
structure Untouched (c : Connection) : Prop where
  phase : c.phase = .queued ∨ c.phase = .accepted ∨ c.phase = .ended
  read : c.earlier = [] ∧ c.heard = [] ∧ c.buffered = [] ∧ c.finished = false
  written : c.received = [] ∧ c.exchanges = []

/-- The connection has, or had, a thread of its own. -/
def Served (c : Connection) : Prop := c.phase ≠ .queued ∧ c.phase ≠ .accepted

end Connection

/-- The clients whose requests are answered. -/
def Authorised (allowedUid uid : UInt32) : Prop := uid = allowedUid ∨ uid = 0

/-- Every connection is a dialogue of its own; a client of another user gets none, nor does one
that is accepted while the helper shuts down. -/
structure Dialogues (parse : Text → Except Text HelperRequest) (allowedUid : UInt32)
    (s : ServerState) : Prop where
  dialogue : ∀ n c, s.connections n = some c → c.Dialogue parse
  authorised : ∀ n c, s.connections n = some c → ¬ Authorised allowedUid c.uid → c.Untouched
  late : ∀ n c, s.connections n = some c → s.late n → c.Untouched

namespace Connection

variable {parse : Text → Except Text HelperRequest} {c d : Connection}

/-- What nobody has read or written stands at the beginning of a dialogue. -/
theorem Untouched.sound (h : c.Untouched) (hs : c.Sound parse) {phase : ClientPhase}
    (hphase : phase = .accepted ∨ phase = .reading [] ∨ phase = .ended) :
    Sound parse { c with phase := phase } := by
  obtain ⟨hearlier, hheard, hbuffered, hfinished⟩ := h.read
  obtain ⟨hreceived, hexchanges⟩ := h.written
  have hlines : c.lines = [] := by simp [lines, hearlier, hheard, hfinished, Lines.cut]
  have hresponses : c.responses = [] := by rw [responses, hexchanges, List.map_nil]
  constructor
  · exact hs.taken
  · exact hs.finished
  · intro _
    rw [hfinished, hheard]
    obtain rfl | rfl | rfl := hphase
    all_goals rfl
  · intro _ line hline
    have hnone : line ∈ c.lines := hline
    rw [hlines] at hnone
    exact absurd hnone List.not_mem_nil
  · have hasked : askedLines c.lines = c.exchanges.map Prod.fst := by
      rw [hlines, hexchanges]
      rfl
    obtain rfl | rfl | rfl := hphase
    all_goals exact hasked.trans (List.append_nil _).symm
  · exact hs.answered
  · exact hs.written
  · exact hs.earlierWritten
  · have hall : c.received = c.responses.flatten := by
      rw [hreceived, hresponses]
      rfl
    intro _
    obtain rfl | rfl | rfl := hphase
    all_goals exact (List.append_nil _).trans hall

theorem Untouched.step {action : Connection.Action} (h : c.Untouched)
    (hstep : c.step parse action = some d) :
    d.Untouched ∧ d.phase = c.phase ∧ c.shutsDown parse action = false := by
  have hphase := h.phase
  cases action with
  | send bytes =>
    obtain ⟨-, rfl⟩ := when_eq_some.mp hstep
    exact ⟨⟨h.phase, h.read, h.written⟩, rfl, rfl⟩
  | close =>
    obtain rfl := Option.some.inj hstep
    exact ⟨⟨h.phase, h.read, h.written⟩, rfl, rfl⟩
  | read result =>
    simp only [Connection.step] at hstep
    split at hstep
    · rename_i line hreading
      simp [hreading] at hphase
    · cases hstep
  | scan =>
    simp only [Connection.step] at hstep
    split at hstep
    · rename_i line hreading
      simp [hreading] at hphase
    · cases hstep
  | handle answers =>
    simp only [Connection.step] at hstep
    split at hstep
    · rename_i line hasked
      simp [hasked] at hphase
    · cases hstep
  | write result =>
    simp only [Connection.step] at hstep
    split at hstep
    · rename_i todo hwriting
      simp [hwriting] at hphase
    · cases hstep

theorem served_deliver (line : Bytes) :
    deliver line ≠ .queued ∧ deliver line ≠ .accepted := by
  obtain ⟨h, -⟩ | ⟨h, -⟩ | ⟨text, h, -⟩ := deliver_cases line
  all_goals
    rw [h]
    exact ⟨ClientPhase.noConfusion, ClientPhase.noConfusion⟩

theorem Served.read (h : c.Served) {line : Bytes} {result : ReadResult}
    (hstep : readStep c line result = some d) : d.Served ∧ d.uid = c.uid := by
  cases result with
  | bytes n =>
    obtain ⟨-, rfl⟩ := when_eq_some.mp hstep
    exact ⟨h, rfl⟩
  | endOfStream =>
    obtain ⟨-, rfl⟩ := when_eq_some.mp hstep
    split_ifs
    · exact ⟨⟨ClientPhase.noConfusion, ClientPhase.noConfusion⟩, rfl⟩
    · exact ⟨served_deliver line, rfl⟩
  | interrupted =>
    obtain rfl := Option.some.inj hstep
    exact ⟨h, rfl⟩
  | wouldBlock =>
    obtain ⟨-, rfl⟩ := when_eq_some.mp hstep
    exact ⟨⟨ClientPhase.noConfusion, ClientPhase.noConfusion⟩, rfl⟩
  | failed =>
    obtain rfl := Option.some.inj hstep
    exact ⟨⟨ClientPhase.noConfusion, ClientPhase.noConfusion⟩, rfl⟩

theorem Served.write (h : c.Served) {left : Bytes} {result : WriteResult}
    (hstep : writeStep c left result = some d) : d.Served ∧ d.uid = c.uid := by
  cases result with
  | bytes n =>
    obtain ⟨-, rfl⟩ := when_eq_some.mp hstep
    refine ⟨?_, rfl⟩
    unfold Served
    dsimp only
    split_ifs
    all_goals exact ⟨ClientPhase.noConfusion, ClientPhase.noConfusion⟩
  | interrupted =>
    obtain rfl := Option.some.inj hstep
    exact ⟨h, rfl⟩
  | disconnected =>
    obtain rfl := Option.some.inj hstep
    exact ⟨⟨ClientPhase.noConfusion, ClientPhase.noConfusion⟩, rfl⟩
  | failed =>
    obtain rfl := Option.some.inj hstep
    exact ⟨⟨ClientPhase.noConfusion, ClientPhase.noConfusion⟩, rfl⟩

/-- A thread never gives its connection back. -/
theorem Served.step {action : Connection.Action} (h : c.Served)
    (hstep : c.step parse action = some d) : d.Served ∧ d.uid = c.uid := by
  cases action with
  | send bytes =>
    obtain ⟨-, rfl⟩ := when_eq_some.mp hstep
    exact ⟨h, rfl⟩
  | close =>
    obtain rfl := Option.some.inj hstep
    exact ⟨h, rfl⟩
  | read result =>
    simp only [Connection.step] at hstep
    split at hstep
    · split_ifs at hstep
      exact h.read hstep
    · cases hstep
  | scan =>
    simp only [Connection.step] at hstep
    split at hstep
    · split_ifs at hstep
      obtain rfl := Option.some.inj hstep
      unfold scanStep
      split
      · exact ⟨⟨ClientPhase.noConfusion, ClientPhase.noConfusion⟩, rfl⟩
      · exact ⟨served_deliver _, rfl⟩
    · cases hstep
  | handle answers =>
    simp only [Connection.step] at hstep
    split at hstep
    · obtain rfl := Option.some.inj hstep
      exact ⟨⟨ClientPhase.noConfusion, ClientPhase.noConfusion⟩, rfl⟩
    · cases hstep
  | write result =>
    simp only [Connection.step] at hstep
    split at hstep
    · exact h.write hstep
    · cases hstep

end Connection

/-- Where a connection stands: untouched, or served, and then it was accepted in time and its
client is one of those that may ask. -/
def Admitted (allowedUid : UInt32) (late : Bool) (c : Connection) : Prop :=
  c.Untouched ∨ late = false ∧ Authorised allowedUid c.uid ∧ c.Served

namespace ServerState

variable {parse : Text → Except Text HelperRequest} {allowedUid : UInt32} {s t : ServerState}
  {n : ℕ} {c d : Connection}

structure Invariant (parse : Text → Except Text HelperRequest) (allowedUid : UInt32)
    (s : ServerState) : Prop where
  sound : ∀ n c, s.connections n = some c → c.Sound parse
  admitted : ∀ n c, s.connections n = some c → Admitted allowedUid (s.late n) c
  current : ∀ n, s.loop.current = some n → ∃ c, s.connections n = some c ∧ c.phase = .accepted
  late : ∀ n, s.late n → s.shuttingDown ∧ s.loop ≠ .authorising n ∧
    ∃ c, s.connections n = some c ∧ c.phase ≠ .queued

theorem put_connections (s : ServerState) (n m : ℕ) (c : Connection) :
    (s.put n c).connections m = if m = n then some c else s.connections m := by
  unfold put
  exact Function.update_apply _ _ _ _

/-- What is known after a step of one connection, or of the loop with it. -/
theorem Invariant.put (hs : Invariant parse allowedUid s) (hsound : d.Sound parse)
    (hadmitted : Admitted allowedUid (t.late n) d)
    (hconnections : t.connections = (s.put n d).connections)
    (hlate : ∀ m, m ≠ n → t.late m = s.late m)
    (hcurrent : ∀ m, t.loop.current = some m → m = n ∧ d.phase = .accepted ∨
      m ≠ n ∧ s.loop.current = some m)
    (hauthorising : ∀ m, m ≠ n → t.loop = .authorising m → s.loop = .authorising m)
    (hdown : s.shuttingDown → t.shuttingDown)
    (hown : t.late n → t.shuttingDown ∧ t.loop ≠ .authorising n ∧ d.phase ≠ .queued) :
    Invariant parse allowedUid t := by
  have hput (m : ℕ) : t.connections m = if m = n then some d else s.connections m := by
    rw [hconnections]
    exact put_connections s n m d
  constructor
  · intro m e he
    rw [hput] at he
    split_ifs at he with hm
    · obtain rfl := Option.some.inj he
      exact hsound
    · exact hs.sound m e he
  · intro m e he
    rw [hput] at he
    split_ifs at he with hm
    · obtain rfl := Option.some.inj he
      rw [hm]
      exact hadmitted
    · rw [hlate m hm]
      exact hs.admitted m e he
  · intro m hm
    rw [hput]
    cases hcurrent m hm with
    | inl hself =>
      rw [if_pos hself.1]
      exact ⟨d, rfl, hself.2⟩
    | inr hother =>
      rw [if_neg hother.1]
      exact hs.current m hother.2
  · intro m hm
    rw [hput]
    split_ifs with hmn
    · rw [hmn] at hm ⊢
      obtain ⟨hshut, hloop, hphase⟩ := hown hm
      exact ⟨hshut, hloop, d, rfl, hphase⟩
    · rw [hlate m hmn] at hm
      obtain ⟨hshut, hloop, e, he, hphase⟩ := hs.late m hm
      exact ⟨hdown hshut, fun hauth => hloop (hauthorising m hmn hauth), e, he, hphase⟩

/-- What `serve` has just accepted has no thread yet. -/
theorem Invariant.untouched_current (hs : Invariant parse allowedUid s)
    (hn : s.loop.current = some n) (hc : s.connections n = some c) : c.Untouched := by
  obtain ⟨e, he, hphase⟩ := hs.current n hn
  obtain rfl := Option.some.inj (hc.symm.trans he)
  cases hs.admitted n c hc with
  | inl h => exact h
  | inr h => exact absurd hphase h.2.2.2

theorem Invariant.connect (hs : Invariant parse allowedUid s) {uid : UInt32}
    (h : step parse allowedUid s (.connect n uid) = some t) : Invariant parse allowedUid t := by
  obtain ⟨hnone, rfl⟩ := when_eq_some.mp h
  rw [Option.isNone_iff_eq_none] at hnone
  have hother (m : ℕ) (hm : s.loop.current = some m) : m ≠ n := by
    intro hmn
    obtain ⟨c, hc, -⟩ := hs.current m hm
    rw [hmn, hnone] at hc
    cases hc
  apply hs.put (n := n) (Connection.sound_opened uid)
  · exact .inl ⟨.inl rfl, ⟨rfl, rfl, rfl, rfl⟩, rfl, rfl⟩
  · rfl
  · exact fun _ _ => rfl
  · exact fun m hm => .inr ⟨hother m hm, hm⟩
  · exact fun _ _ hauth => hauth
  · exact id
  · intro hlate
    obtain ⟨-, -, c, hc, -⟩ := hs.late n hlate
    rw [hnone] at hc
    cases hc

theorem Invariant.accept (hs : Invariant parse allowedUid s)
    (h : step parse allowedUid s (.accept n) = some t) : Invariant parse allowedUid t := by
  simp only [ServerState.step] at h
  split at h
  · rename_i c hloop hc
    split at h
    · rename_i hphase
      obtain rfl := Option.some.inj h
      have huntouched : c.Untouched := by
        cases hs.admitted n c hc with
        | inl h => exact h
        | inr h => exact absurd hphase h.2.2.1
      apply hs.put (n := n) (huntouched.sound (hs.sound n c hc) (.inl rfl))
      · exact .inl ⟨.inr (.inl rfl), huntouched.read, huntouched.written⟩
      · rfl
      · exact fun m hm => Function.update_of_ne hm _ _
      · intro m hm
        exact .inl ⟨(Option.some.inj hm).symm, rfl⟩
      · exact fun _ _ hauth => ServeLoop.noConfusion hauth
      · exact id
      · intro hlate
        have hshut : s.shuttingDown = true := by simpa using hlate
        exact ⟨hshut, ServeLoop.noConfusion, ClientPhase.noConfusion⟩
    · cases h
  · cases h

/-- `serve` is done with the connection: it drops it, or leaves it to a thread. -/
theorem Invariant.leave (hs : Invariant parse allowedUid s) (hsound : d.Sound parse)
    (hadmitted : Admitted allowedUid (s.late n) d) {loop : ServeLoop}
    (hloop : loop = .accepting ∨ loop = .ended)
    (hown : s.late n → s.shuttingDown ∧ d.phase ≠ .queued) :
    Invariant parse allowedUid { s.put n d with loop := loop } := by
  have hfree (m : ℕ) : loop.current ≠ some m ∧ loop ≠ .authorising m := by
    rcases hloop with rfl | rfl <;> exact ⟨(Option.some_ne_none m).symm, ServeLoop.noConfusion⟩
  apply hs.put (t := { s.put n d with loop := loop }) hsound hadmitted
  · rfl
  · exact fun _ _ => rfl
  · exact fun m hm => absurd hm (hfree m).1
  · exact fun m _ hauth => absurd hauth (hfree m).2
  · exact id
  · exact fun hlate => ⟨(hown hlate).1, (hfree n).2, (hown hlate).2⟩

theorem Invariant.check (hs : Invariant parse allowedUid s)
    (h : step parse allowedUid s .check = some t) : Invariant parse allowedUid t := by
  simp only [ServerState.step] at h
  split at h
  · rename_i n hloop
    obtain ⟨c, hc, rfl⟩ := Option.map_eq_some_iff.mp h
    have huntouched := hs.untouched_current (by rw [hloop]; rfl) hc
    split_ifs with hshut
    · apply hs.leave (huntouched.sound (hs.sound n c hc) (.inr (.inr rfl)))
      · exact .inl ⟨.inr (.inr rfl), huntouched.read, huntouched.written⟩
      · exact .inr rfl
      · exact fun _ => ⟨hshut, ClientPhase.noConfusion⟩
    · constructor
      · exact hs.sound
      · exact hs.admitted
      · intro m hm
        exact hs.current m (by rw [hloop]; exact hm)
      · intro m hm
        exact absurd (hs.late m hm).1 hshut
  · cases h

theorem Invariant.credentials (hs : Invariant parse allowedUid s) {readable : Bool}
    (h : step parse allowedUid s (.credentials readable) = some t) :
    Invariant parse allowedUid t := by
  simp only [ServerState.step] at h
  split at h
  · rename_i n hloop
    obtain ⟨c, hc, rfl⟩ := Option.map_eq_some_iff.mp h
    have huntouched := hs.untouched_current (by rw [hloop]; rfl) hc
    have hlate : s.late n = false := by
      by_contra hlate
      exact (hs.late n (by simpa using hlate)).2.1 hloop
    split_ifs with huid
    · apply hs.leave (huntouched.sound (hs.sound n c hc) (.inr (.inl rfl)))
      · exact .inr ⟨hlate, huid.2, ClientPhase.noConfusion, ClientPhase.noConfusion⟩
      · exact .inl rfl
      · exact fun hn => absurd (hlate.symm.trans hn) Bool.false_ne_true
    · apply hs.leave (huntouched.sound (hs.sound n c hc) (.inr (.inr rfl)))
      · exact .inl ⟨.inr (.inr rfl), huntouched.read, huntouched.written⟩
      · exact .inl rfl
      · exact fun hn => absurd (hlate.symm.trans hn) Bool.false_ne_true
  · cases h

/-- A step of a connection keeps whether it is the one that `serve` has just accepted. -/
theorem Invariant.at_connection (hs : Invariant parse allowedUid s) {action : Connection.Action}
    (h : step parse allowedUid s (.atConnection n action) = some t) :
    Invariant parse allowedUid t := by
  obtain ⟨c, hc, h⟩ := Option.bind_eq_some_iff.mp h
  obtain ⟨d, hd, rfl⟩ := Option.map_eq_some_iff.mp h
  have hsound := (hs.sound n c hc).step hd
  have hshut : s.shuttingDown = true →
      (s.shuttingDown || c.shutsDown parse action) = true := by
    intro hshut
    rw [hshut, Bool.true_or]
  cases hs.admitted n c hc with
  | inl huntouched =>
    obtain ⟨hd, hphase, -⟩ := huntouched.step hd
    apply hs.put (n := n) hsound (.inl hd)
    · rfl
    · exact fun _ _ => rfl
    · intro m hm
      obtain ⟨e, he, haccepted⟩ := hs.current m hm
      by_cases hmn : m = n
      · rw [hmn, hc] at he
        obtain rfl := Option.some.inj he
        exact .inl ⟨hmn, hphase.trans haccepted⟩
      · exact .inr ⟨hmn, hm⟩
    · exact fun _ _ hauth => hauth
    · exact hshut
    · intro hlate
      obtain ⟨hdown, hloop, e, he, hqueued⟩ := hs.late n hlate
      obtain rfl := Option.some.inj (hc.symm.trans he)
      rw [hphase]
      exact ⟨hshut hdown, hloop, hqueued⟩
  | inr hserved =>
    obtain ⟨hlate, hauth, hserved⟩ := hserved
    obtain ⟨hd, huid⟩ := hserved.step hd
    have hadmitted : Admitted allowedUid (s.late n) d := by
      rw [← huid] at hauth
      exact .inr ⟨hlate, hauth, hd⟩
    apply hs.put (n := n) hsound
    · exact hadmitted
    · rfl
    · exact fun _ _ => rfl
    · intro m hm
      obtain ⟨e, he, haccepted⟩ := hs.current m hm
      refine .inr ⟨?_, hm⟩
      intro hmn
      rw [hmn, hc] at he
      obtain rfl := Option.some.inj he
      exact hserved.2 haccepted
    · exact fun _ _ hauth => hauth
    · exact hshut
    · intro hn
      exact absurd (hlate.symm.trans hn) Bool.false_ne_true

theorem Invariant.step {a : ServerAction} (hs : Invariant parse allowedUid s)
    (h : step parse allowedUid s a = some t) : Invariant parse allowedUid t := by
  cases a with
  | connect n uid => exact hs.connect h
  | accept n => exact hs.accept h
  | acceptFails =>
    simp only [ServerState.step] at h
    split at h
    · obtain rfl := Option.some.inj h
      exact hs
    · cases h
  | check => exact hs.check h
  | credentials readable => exact hs.credentials h
  | atConnection n action => exact hs.at_connection h

theorem invariant_of_reachable (hs : (system parse allowedUid).Reachable s) :
    Invariant parse allowedUid s := by
  refine System.ReachUnder.invariant hs ?_ fun _ _ _ _ ih _ h => ih.step h
  intro s hinit
  have hnone : s = initial := hinit
  rw [hnone]
  constructor
  · intro n c hc
    cases hc
  · intro n c hc
    cases hc
  · intro n hn
    cases hn
  · intro n hn
    cases hn

/-- Whoever connects, whatever is sent, and however reads and writes cut it up: every client that
may ask has its lines answered one by one, in order, and nobody else is heard. -/
theorem dialogues_of_reachable (s : ServerState) (hs : (system parse allowedUid).Reachable s) :
    Dialogues parse allowedUid s := by
  have hs := invariant_of_reachable hs
  constructor
  · exact fun n c hc => (hs.sound n c hc).dialogue
  · intro n c hc huid
    cases hs.admitted n c hc with
    | inl h => exact h
    | inr h => exact absurd h.2.1 huid
  · intro n c hc hlate
    cases hs.admitted n c hc with
    | inl h => exact h
    | inr h => exact absurd (h.1.symm.trans hlate) Bool.false_ne_true

/-- Reads the one letter `v`. -/
private def letterV (line : Text) : Except Text HelperRequest :=
  if line = ['v'] then .ok { id := ['a'], command := .version } else .error ['?']

private def versionAnswers : Answers where
  version := ['1']
  pid := 7
  helperStatus := .error (.internal [])
  startTun _ := .error (.internal [])
  stopTun := .ok ()
  setSystemProxy _ _ _ := .error (.internal [])
  restoreSystemProxy := .ok ()

private def versionRun : List ServerAction :=
  [.connect 0 501, .atConnection 0 (.send [118]), .accept 0, .check, .credentials true,
    .atConnection 0 (.read (.bytes 1)), .atConnection 0 .scan, .connect 1 502,
    .atConnection 1 (.send [118, 10]), .accept 1, .check, .credentials true,
    .atConnection 0 (.send [10]), .atConnection 0 (.read (.bytes 1)), .atConnection 0 .scan,
    .atConnection 0 (.handle versionAnswers), .atConnection 0 (.write (.bytes 20)),
    .atConnection 0 (.write (.bytes 32))]

/-- The line comes in two pieces and the response leaves in two; the client of another user is
turned away. -/
theorem dialogues_version : ∃ s c, s.connections 0 = some c ∧
    c.received = (respond letterV versionAnswers ['v']).bytes ∧ Dialogues letterV 501 s := by
  have hend : (((system letterV 501).run initial versionRun).bind fun s => s.connections 0).map
      Connection.received = some (respond letterV versionAnswers ['v']).bytes := by decide +kernel
  obtain ⟨c, hc, hreceived⟩ := Option.map_eq_some_iff.mp hend
  obtain ⟨s, hrun, hc⟩ := Option.bind_eq_some_iff.mp hc
  have hs : (system letterV 501).Reachable s := System.Reachable.run (.init rfl) versionRun hrun
  exact ⟨s, c, hc, hreceived, dialogues_of_reachable s hs⟩

end ServerState

end NulConnect.Macos
