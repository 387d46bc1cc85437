import NulConnect.Macos.Config
import NulConnect.Macos.DnsReady
import NulConnect.Macos.Proxy
import NulConnect.Net.Json
import NulConnect.Net.Lines

/-! One connection of the helper: `handle_client`, which reads a line, has `handle_request` answer
it and writes the response, and the client at the other end of the socket. -/
namespace NulConnect.Macos
open Net Net.Json Transition

abbrev Bytes := List UInt8

inductive HelperCommand where
  | version
  | status
  | startTun (config : HelperConfig)
  | stopTun
  | setSystemProxy (endpoint : ProxyEndpoint) (serverHost : Text) (pacUrl : Option Text)
  | restoreSystemProxy
  | cleanup
  | shutdown
  | setLogging (enabled : Bool)

structure HelperRequest where
  id : Text
  command : HelperCommand

structure HelperErrorResponse where
  code : Text
  message : Text

structure HelperResponse where
  id : Text
  ok : Bool
  data : Option Value
  error : Option HelperErrorResponse

/-- What the functions behind the commands return while a request is handled. -/
structure Answers where
  version : Text
  pid : ℕ
  helperStatus : Except AtrError Value
  startTun : HelperConfig → Except AtrError Value
  stopTun : Except AtrError Unit
  setSystemProxy : ProxyEndpoint → Text → Option Text → Except AtrError Value
  restoreSystemProxy : Except AtrError Unit

def statusValue (status : Text) : Value := .object [("status".toList, .string status)]

/-- The result of a command. The keys of an object are in the order in which they are printed. -/
def Answers.result (answers : Answers) : HelperCommand → Except AtrError Value
  | .version => .ok (.object [("pid".toList, .number (.ofNat answers.pid)),
      ("version".toList, .string answers.version)])
  | .status => answers.helperStatus
  | .startTun config => answers.startTun config
  | .stopTun => answers.stopTun.map fun _ => statusValue "stopped".toList
  | .setSystemProxy endpoint serverHost pacUrl =>
    answers.setSystemProxy endpoint serverHost pacUrl
  | .restoreSystemProxy => answers.restoreSystemProxy.map fun _ => statusValue "restored".toList
  | .cleanup => answers.restoreSystemProxy.map fun _ => statusValue "cleaned".toList
  | .setLogging enabled => .ok (.object [("logging".toList, .bool enabled)])
  | .shutdown => .ok (statusValue "shutting_down".toList)

def handleRequest (answers : Answers) (request : HelperRequest) : HelperResponse :=
  match answers.result request.command with
  | .ok data => { id := request.id, ok := true, data := some data, error := none }
  | .error err => {
      id := request.id
      ok := false
      data := none
      error := some { code := err.code.lowercase, message := err.toText } }

/-- The response to a line; `parse` is `serde_json::from_str`. -/
def respond (parse : Text → Except Text HelperRequest) (answers : Answers) (line : Text) :
    HelperResponse :=
  match parse line with
  | .ok request => handleRequest answers request
  | .error message => {
      id := []
      ok := false
      data := none
      error := some { code := "parse_failed".toList, message := message } }

def HelperErrorResponse.toValue (error : HelperErrorResponse) : Value :=
  .object [("code".toList, .string error.code), ("message".toList, .string error.message)]

/-- The fields in the order of the struct, without those that are `None`. -/
def HelperResponse.toValue (response : HelperResponse) : Value :=
  .object ([("id".toList, .string response.id), ("ok".toList, .bool response.ok)] ++
    (response.data.map fun data => ("data".toList, data)).toList ++
    (response.error.map fun error => ("error".toList, error.toValue)).toList)

def newline : UInt8 := 10

/-- What `write_response` writes. -/
def HelperResponse.bytes (response : HelperResponse) : Bytes :=
  toUtf8 (print response.toValue) ++ [newline]

/-- A line without its ending, as `lines` gives it. -/
def stripEnding (line : Text) : Text :=
  if line.getLast? = some '\n' then stripReturn line.dropLast else line

/-- The text of a line that is answered: not of a blank one. -/
def askedLine (line : Bytes) : Option Text :=
  let text := stripEnding (fromUtf8Lossy line)
  if trim text = [] then none else some text

/-- A line that is no UTF-8 ends the connection. -/
def askedLines (lines : List Bytes) : List Text := (lines.takeWhile isUtf8).filterMap askedLine

inductive ReadResult where
  | bytes (n : ℕ)
  | endOfStream
  | interrupted
  | wouldBlock
  | failed

/-- `disconnected` is one of the four kinds of errors that end the connection without an error. -/
inductive WriteResult where
  | bytes (n : ℕ)
  | interrupted
  | disconnected
  | failed

/-- Where the thread of the connection is: it has read a part of a line, has a line to answer, or
has yet to write a part of a response. -/
inductive ClientPhase where
  | queued
  | accepted
  | reading (line : Bytes)
  | asked (line : Text)
  | writing (todo : Bytes)
  | ended

/-- A connection. `inbox` is what the client has sent and nobody has read, `buffered` what
`BufReader` holds. The rest is history: all that was sent, what was read before each
`WouldBlock` and since, whether the stream has ended within a line, and the lines answered. -/
structure Connection where
  uid : UInt32
  closed : Bool
  inbox : Bytes
  buffered : Bytes
  phase : ClientPhase
  received : Bytes
  sent : Bytes
  earlier : List Bytes
  heard : Bytes
  finished : Bool
  exchanges : List (Text × HelperResponse)

namespace Connection

/-- A new connection, which waits for `accept`. -/
def opened (uid : UInt32) : Connection where
  uid := uid
  closed := false
  inbox := []
  buffered := []
  phase := .queued
  received := []
  sent := []
  earlier := []
  heard := []
  finished := false
  exchanges := []

/-- The capacity of a `BufReader`. -/
def bufferCapacity : ℕ := 8 * 1024

/-- `read_line` has its line. -/
def deliver (line : Bytes) : ClientPhase :=
  if isUtf8 line then
    match askedLine line with
    | some text => .asked text
    | none => .reading []
  else .ended

/-- `read_until` where the buffer is empty. A `WouldBlock` drops the part of the line that was
read. -/
def readStep (c : Connection) (line : Bytes) : ReadResult → Option Connection
  | .bytes n => when (0 < n ∧ n ≤ bufferCapacity ∧ n ≤ c.inbox.length) { c with
      buffered := c.inbox.take n
      inbox := c.inbox.drop n }
  | .endOfStream => when (c.closed ∧ c.inbox = [])
      (if line = [] then { c with phase := .ended }
      else { c with phase := deliver line, finished := true })
  | .interrupted => some c
  | .wouldBlock => when (c.closed = false ∧ c.inbox = []) { c with
      phase := .reading []
      earlier := c.earlier ++ [c.heard]
      heard := [] }
  | .failed => some { c with phase := .ended }

/-- `read_until` where the buffer holds something. -/
def scanStep (c : Connection) (line : Bytes) : Connection :=
  match Lines.scan newline c.buffered with
  | (front, []) => { c with
      phase := .reading (line ++ front)
      buffered := []
      heard := c.heard ++ front }
  | (front, mark :: rest) => { c with
      phase := deliver (line ++ front ++ [mark])
      buffered := rest
      heard := c.heard ++ front ++ [mark] }

/-- `write_all`. -/
def writeStep (c : Connection) (todo : Bytes) : WriteResult → Option Connection
  | .bytes n => when (0 < n ∧ n ≤ todo.length) { c with
      received := c.received ++ todo.take n
      phase := if n = todo.length then .reading [] else .writing (todo.drop n) }
  | .interrupted => some c
  | .disconnected => some { c with phase := .ended }
  | .failed => some { c with phase := .ended }

/-- What the client does, and the thread of the connection. -/
inductive Action where
  | send (bytes : Bytes)
  | close
  | read (result : ReadResult)
  | scan
  | handle (answers : Answers)
  | write (result : WriteResult)

variable (parse : Text → Except Text HelperRequest)

def step (c : Connection) : Action → Option Connection
  | .send bytes => when (c.closed = false) { c with
      inbox := c.inbox ++ bytes
      sent := c.sent ++ bytes }
  | .close => some { c with closed := true }
  | .read result =>
    match c.phase with
    | .reading line => if c.buffered = [] then readStep c line result else none
    | _ => none
  | .scan =>
    match c.phase with
    | .reading line => if c.buffered = [] then none else some (scanStep c line)
    | _ => none
  | .handle answers =>
    match c.phase with
    | .asked line =>
      let response := respond parse answers line
      some { c with
        phase := .writing response.bytes
        exchanges := c.exchanges ++ [(line, response)] }
    | _ => none
  | .write result =>
    match c.phase with
    | .writing todo => writeStep c todo result
    | _ => none

/-- The lines that were read, each with its ending, and at the end of the stream what follows the
last of them. -/
def lines (c : Connection) : List Bytes :=
  (c.earlier.flatMap fun part => (Lines.cut newline part).1) ++ (Lines.cut newline c.heard).1 ++
    if c.finished then [(Lines.cut newline c.heard).2] else []

/-- The line that has yet to be answered. -/
def waiting (c : Connection) : List Text :=
  match c.phase with
  | .asked line => [line]
  | _ => []

/-- The responses as they are written. -/
def responses (c : Connection) : List Bytes := c.exchanges.map fun e => e.2.bytes

/-- What one connection may rely on. The lines that are answered are those of the stream that the
client has sent, however it was cut up on its way: each in its turn, with the response to it
written before the next line is answered. Only a read that would block loses anything, the line
that has begun. -/
structure Dialogue (c : Connection) : Prop where
  stream : c.earlier.flatten ++ c.heard <+: c.sent
  finished : c.finished → c.closed ∧ c.earlier.flatten ++ c.heard = c.sent
  asked : askedLines c.lines = c.exchanges.map Prod.fst ++ c.waiting
  answered : ∀ e ∈ c.exchanges, ∃ answers, e.2 = respond parse answers e.1
  named : ∀ e ∈ c.exchanges, ∀ request, parse e.1 = .ok request → e.2.id = request.id
  written : c.received <+: c.responses.flatten
  received : (Lines.cut newline c.received).1 <+: c.responses ∧
    c.exchanges.length ≤ (Lines.cut newline c.received).1.length + 1
  replied : c.waiting ≠ [] → c.received = c.responses.flatten

/-- The part of a line that was read. -/
def part (c : Connection) : Bytes :=
  match c.phase with
  | .reading line => line
  | _ => []

/-- What is left to write. -/
def todo (c : Connection) : Bytes :=
  match c.phase with
  | .writing todo => todo
  | _ => []

/-- The invariant of one connection. -/
structure Sound (c : Connection) : Prop where
  taken : c.earlier.flatten ++ c.heard ++ (c.buffered ++ c.inbox) = c.sent
  finished : c.finished → c.closed ∧ c.buffered = [] ∧ c.inbox = []
  begun : c.phase ≠ .ended → c.part = if c.finished then [] else (Lines.cut newline c.heard).2
  alive : c.phase ≠ .ended → ∀ line ∈ c.lines, isUtf8 line
  asked : askedLines c.lines = c.exchanges.map Prod.fst ++ c.waiting
  answered : ∀ e ∈ c.exchanges, ∃ answers, e.2 = respond parse answers e.1
  written : c.received <+: c.responses.flatten
  earlierWritten : c.responses.dropLast.flatten <+: c.received
  complete : c.phase ≠ .ended → c.received ++ c.todo = c.responses.flatten

end Connection

theorem isLine_bytes (response : HelperResponse) : Lines.IsLine newline response.bytes := by
  refine ⟨toUtf8 (print response.toValue), ?_, rfl⟩
  intro hmem
  have hvisible := visible_toUtf8 (visible_print response.toValue) newline hmem
  exact absurd hvisible (by decide)

theorem respond_id {parse : Text → Except Text HelperRequest} {line : Text}
    {request : HelperRequest} (h : parse line = .ok request) (answers : Answers) :
    (respond parse answers line).id = request.id := by
  unfold respond handleRequest
  rw [h]
  dsimp only
  split
  all_goals rfl

/-- One more line is asked, unless it is blank or no UTF-8. -/
theorem askedLines_append {lines : List Bytes} (h : ∀ line ∈ lines, isUtf8 line) (line : Bytes) :
    askedLines (lines ++ [line]) =
      askedLines lines ++ if isUtf8 line then (askedLine line).toList else [] := by
  have hall : lines.takeWhile isUtf8 = lines := List.takeWhile_eq_self_iff.mpr h
  unfold askedLines
  rw [List.takeWhile_append_of_pos h, hall, List.filterMap_append]
  congr 1
  by_cases hline : isUtf8 line
  · rw [List.takeWhile_cons_of_pos hline, if_pos hline]
    cases hasked : askedLine line with
    | none => simp [hasked]
    | some text => simp [hasked]
  · rw [List.takeWhile_cons_of_neg hline, if_neg hline, List.filterMap_nil]

namespace Connection

variable {parse : Text → Except Text HelperRequest} {c d : Connection}

theorem sound_opened (uid : UInt32) : (opened uid).Sound parse where
  taken := rfl
  finished := by simp [opened]
  begun _ := rfl
  alive _ := by simp [opened, lines, Lines.cut]
  asked := by simp [opened, lines, Lines.cut, askedLines, waiting]
  answered := by simp [opened]
  written := List.nil_prefix
  earlierWritten := List.nil_prefix
  complete _ := rfl

/-- The thread ends, or the loop rejects the client. -/
theorem Sound.giveUp (h : c.Sound parse) (hwaiting : c.waiting = []) :
    { c with phase := .ended }.Sound parse where
  taken := h.taken
  finished := h.finished
  begun hne := absurd rfl hne
  alive hne := absurd rfl hne
  asked := by
    have hasked := h.asked
    rw [hwaiting] at hasked
    exact hasked
  answered := h.answered
  written := h.written
  earlierWritten := h.earlierWritten
  complete hne := absurd rfl hne

theorem deliver_cases (line : Bytes) :
    (deliver line = .ended ∧ ¬ isUtf8 line) ∨
    (deliver line = .reading [] ∧ isUtf8 line ∧ askedLine line = none) ∨
    ∃ text, deliver line = .asked text ∧ isUtf8 line ∧ askedLine line = some text := by
  unfold deliver
  by_cases hline : isUtf8 line
  · rw [if_pos hline]
    cases hasked : askedLine line with
    | none => exact .inr (.inl ⟨rfl, hline, rfl⟩)
    | some text => exact .inr (.inr ⟨text, rfl, hline, rfl⟩)
  · rw [if_neg hline]
    exact .inl ⟨rfl, hline⟩

/-- The thread has read one more line, after which the next one begins. -/
theorem Sound.delivered (h : c.Sound parse) (line : Bytes)
    (hphase : ∃ front, c.phase = .reading front)
    (htaken : d.earlier.flatten ++ d.heard ++ (d.buffered ++ d.inbox) = d.sent)
    (hfinished : d.finished → d.closed ∧ d.buffered = [] ∧ d.inbox = [])
    (hopen : d.finished ∨ (Lines.cut newline d.heard).2 = [])
    (hlines : d.lines = c.lines ++ [line]) (hdeliver : d.phase = deliver line)
    (hexchanges : d.exchanges = c.exchanges) (hreceived : d.received = c.received) :
    d.Sound parse := by
  obtain ⟨front, hphase⟩ := hphase
  have halive := h.alive (by rw [hphase]; exact ClientPhase.noConfusion)
  have hwaiting : c.waiting = [] := by rw [waiting, hphase]
  have htodo := h.complete (by rw [hphase]; exact ClientPhase.noConfusion)
  have hresponses : d.responses = c.responses := by rw [responses, hexchanges, responses]
  have hasked := askedLines_append halive line
  rw [h.asked, hwaiting, List.append_nil] at hasked
  have hnothing : d.todo = [] ∧ d.part = [] := by
    obtain ⟨hd, -⟩ | ⟨hd, -⟩ | ⟨text, hd, -⟩ := deliver_cases line
    all_goals
      rw [todo, part, hdeliver, hd]
      exact ⟨rfl, rfl⟩
  constructor
  · exact htaken
  · exact hfinished
  · intro _
    rw [hnothing.2]
    cases hopen with
    | inl hd => rw [if_pos hd]
    | inr hd => rw [hd, ite_self]
  · intro hne l hl
    rw [hlines] at hl
    cases List.mem_append.mp hl with
    | inl hold => exact halive l hold
    | inr hnew =>
      rw [List.mem_singleton.mp hnew]
      obtain ⟨hd, -⟩ | ⟨-, hline, -⟩ | ⟨text, -, hline, -⟩ := deliver_cases line
      · exact absurd (hdeliver.trans hd) hne
      · exact hline
      · exact hline
  · rw [hlines, hasked, hexchanges]
    congr 1
    rw [waiting, hdeliver]
    obtain ⟨hd, hline⟩ | ⟨hd, hline, hnone⟩ | ⟨text, hd, hline, hsome⟩ := deliver_cases line
    · rw [hd, if_neg hline]
    · rw [hd, if_pos hline, hnone]
      rfl
    · rw [hd, if_pos hline, hsome]
      rfl
  · rw [hexchanges]
    exact h.answered
  · rw [hreceived, hresponses]
    exact h.written
  · rw [hreceived, hresponses]
    exact h.earlierWritten
  · intro _
    have hpart : c.todo = [] := by rw [todo, hphase]
    rw [hpart] at htodo
    rw [hreceived, hresponses, hnothing.1]
    exact htodo

/-- What the client does, and what `read` brings, is no concern of the lines. -/
theorem Sound.arrived (h : c.Sound parse)
    (htaken : d.earlier.flatten ++ d.heard ++ (d.buffered ++ d.inbox) = d.sent)
    (hfinished : d.finished → d.closed ∧ d.buffered = [] ∧ d.inbox = [])
    (hsame : d = { c with
      closed := d.closed
      inbox := d.inbox
      buffered := d.buffered
      sent := d.sent }) : d.Sound parse := by
  rw [hsame] at htaken hfinished ⊢
  constructor
  · exact htaken
  · exact hfinished
  · exact h.begun
  · exact h.alive
  · exact h.asked
  · exact h.answered
  · exact h.written
  · exact h.earlierWritten
  · exact h.complete

theorem Sound.read (h : c.Sound parse) {line : Bytes} (hphase : c.phase = .reading line)
    (hbuffered : c.buffered = []) {result : ReadResult} (hstep : readStep c line result = some d) :
    d.Sound parse := by
  have hne : c.phase ≠ .ended := by
    rw [hphase]
    exact ClientPhase.noConfusion
  have hbegun := h.begun hne
  have hwaiting : c.waiting = [] := by rw [waiting, hphase]
  rw [part, hphase] at hbegun
  cases result with
  | bytes n =>
    obtain ⟨⟨hpos, -, hle⟩, rfl⟩ := when_eq_some.mp hstep
    apply h.arrived
    · have htaken := h.taken
      rw [hbuffered, List.nil_append] at htaken
      rw [← htaken]
      dsimp only
      rw [List.take_append_drop]
    · intro hfin
      have hinbox := (h.finished hfin).2.2
      rw [hinbox, List.length_nil] at hle
      omega
    · rfl
  | endOfStream =>
    obtain ⟨⟨hclosed, hinbox⟩, rfl⟩ := when_eq_some.mp hstep
    split_ifs with hline
    · exact h.giveUp hwaiting
    · have hfin : c.finished = false := by
        by_contra hfin
        rw [if_pos (by simpa using hfin)] at hbegun
        exact hline hbegun
      rw [hfin] at hbegun
      apply h.delivered line ⟨line, hphase⟩
      · exact h.taken
      · exact fun _ => ⟨hclosed, hbuffered, hinbox⟩
      · exact .inl rfl
      · have hrest : line = (Lines.cut newline c.heard).2 := by simpa using hbegun
        simp [lines, hfin, hrest]
      · rfl
      · rfl
      · rfl
  | interrupted =>
    rw [← Option.some.inj hstep]
    exact h
  | wouldBlock =>
    obtain ⟨⟨hclosed, hinbox⟩, rfl⟩ := when_eq_some.mp hstep
    have hfin : c.finished = false := by
      by_contra hfin
      have hc := (h.finished (by simpa using hfin)).1
      rw [hclosed] at hc
      exact absurd hc Bool.false_ne_true
    have hlines : c.lines =
        (c.earlier ++ [c.heard]).flatMap fun part => (Lines.cut newline part).1 := by
      simp [lines, hfin]
    constructor
    · have htaken := h.taken
      simpa using htaken
    · intro hfin'
      rw [hfin] at hfin'
      exact absurd hfin' Bool.false_ne_true
    · intro _
      simp [part, Lines.cut]
    · intro _ l hl
      apply h.alive hne l
      rw [hlines]
      simpa [lines, Lines.cut, hfin] using hl
    · have hasked := h.asked
      rw [hwaiting, hlines] at hasked
      simpa [lines, Lines.cut, hfin, waiting] using hasked
    · exact h.answered
    · exact h.written
    · exact h.earlierWritten
    · intro _
      have hcomplete := h.complete hne
      rw [todo, hphase] at hcomplete
      exact hcomplete
  | failed =>
    rw [← Option.some.inj hstep]
    exact h.giveUp hwaiting

theorem Sound.scan (h : c.Sound parse) {line : Bytes} (hphase : c.phase = .reading line)
    (hbuffered : c.buffered ≠ []) : (scanStep c line).Sound parse := by
  have hne : c.phase ≠ .ended := by
    rw [hphase]
    exact ClientPhase.noConfusion
  have hfin : c.finished = false := by
    by_contra hfin
    exact hbuffered (h.finished (by simpa using hfin)).2.1
  have hline : line = (Lines.cut newline c.heard).2 := by
    have hbegun := h.begun hne
    rw [part, hphase, hfin] at hbegun
    exact hbegun
  have hwaiting : c.waiting = [] := by rw [waiting, hphase]
  have htaken := h.taken
  obtain ⟨hscan, hfree⟩ | ⟨front, rest, hscan, hfree, hsplit⟩ :=
    Lines.scan_cases newline c.buffered
  · rw [scanStep, hscan]
    have hcut := Lines.cut_append_open hfree c.heard
    have hlines : (Lines.cut newline (c.heard ++ c.buffered)).1 =
        (Lines.cut newline c.heard).1 := by rw [hcut]
    constructor
    · rw [← htaken]
      simp
    · intro hfin'
      rw [hfin] at hfin'
      exact absurd hfin' Bool.false_ne_true
    · intro _
      rw [part, hcut, hline, hfin]
      rfl
    · intro _ l hl
      apply h.alive hne l
      simpa [lines, hlines, hfin] using hl
    · have hasked := h.asked
      rw [hwaiting] at hasked
      simpa [lines, hlines, hfin, waiting] using hasked
    · exact h.answered
    · exact h.written
    · exact h.earlierWritten
    · intro _
      have hcomplete := h.complete hne
      rw [todo, hphase] at hcomplete
      exact hcomplete
  · rw [scanStep, hscan]
    have hcut := Lines.cut_append_mark hfree c.heard
    apply h.delivered (line ++ front ++ [newline]) ⟨line, hphase⟩
    · rw [← htaken, hsplit]
      simp
    · intro hfin'
      rw [hfin] at hfin'
      exact absurd hfin' Bool.false_ne_true
    · rw [hcut]
      exact .inr rfl
    · simp only [lines, hcut, hfin, hline, Bool.false_eq_true, if_false, List.append_nil]
      exact (List.append_assoc _ _ _).symm
    · rfl
    · rfl
    · rfl

/-- A response is begun once the ones before it are written. -/
theorem Sound.handle (h : c.Sound parse) {line : Text} (hphase : c.phase = .asked line)
    (answers : Answers) : Sound parse { c with
      phase := .writing (respond parse answers line).bytes
      exchanges := c.exchanges ++ [(line, respond parse answers line)] } := by
  have hne : c.phase ≠ .ended := by
    rw [hphase]
    exact ClientPhase.noConfusion
  have hcomplete : c.received = c.responses.flatten := by
    have hall := h.complete hne
    rwa [todo, hphase, List.append_nil] at hall
  have hwaiting : c.waiting = [line] := by rw [waiting, hphase]
  constructor
  · exact h.taken
  · exact h.finished
  · intro _
    have hbegun := h.begun hne
    rw [part, hphase] at hbegun
    exact hbegun
  · exact fun _ => h.alive hne
  · have hasked := h.asked
    rw [hwaiting] at hasked
    simpa [lines, waiting] using hasked
  · intro e he
    rw [List.mem_append, List.mem_singleton] at he
    cases he with
    | inl hold => exact h.answered e hold
    | inr hnew => exact ⟨answers, by rw [hnew]⟩
  · rw [hcomplete]
    simp [responses]
  · rw [hcomplete]
    simp [responses]
  · intro _
    rw [hcomplete]
    simp [responses, todo]

theorem Sound.write (h : c.Sound parse) {left : Bytes} (hphase : c.phase = .writing left)
    {result : WriteResult} (hstep : writeStep c left result = some d) : d.Sound parse := by
  have hne : c.phase ≠ .ended := by
    rw [hphase]
    exact ClientPhase.noConfusion
  have hwaiting : c.waiting = [] := by rw [waiting, hphase]
  have hcomplete : c.received ++ left = c.responses.flatten := by
    have hall := h.complete hne
    rwa [todo, hphase] at hall
  cases result with
  | bytes n =>
    obtain ⟨⟨-, hle⟩, rfl⟩ := when_eq_some.mp hstep
    have hmore : c.received ++ left.take n ++ left.drop n = c.responses.flatten := by
      rw [List.append_assoc, List.take_append_drop, hcomplete]
    have hlast : n = left.length → left.drop n = [] := by
      intro hn
      rw [hn, List.drop_length]
    constructor
    · exact h.taken
    · exact h.finished
    · intro _
      have hbegun := h.begun hne
      rw [part, hphase] at hbegun
      rw [part, ← hbegun]
      split_ifs
      all_goals rfl
    · exact fun _ => h.alive hne
    · have hasked := h.asked
      rw [hwaiting] at hasked
      rw [waiting]
      split_ifs
      all_goals exact hasked
    · exact h.answered
    · exact ⟨_, hmore⟩
    · exact h.earlierWritten.trans (List.prefix_append _ _)
    · intro _
      rw [todo]
      split_ifs with hn
      · rw [hlast hn] at hmore
        exact hmore
      · exact hmore
  | interrupted =>
    rw [← Option.some.inj hstep]
    exact h
  | disconnected =>
    rw [← Option.some.inj hstep]
    exact h.giveUp hwaiting
  | failed =>
    rw [← Option.some.inj hstep]
    exact h.giveUp hwaiting

theorem Sound.step {a : Action} (h : c.Sound parse) (hstep : c.step parse a = some d) :
    d.Sound parse := by
  cases a with
  | send bytes =>
    obtain ⟨hopen, rfl⟩ := when_eq_some.mp hstep
    apply h.arrived
    · rw [← h.taken]
      simp
    · intro hfin
      have hclosed := (h.finished hfin).1
      rw [hopen] at hclosed
      exact absurd hclosed Bool.false_ne_true
    · rfl
  | close =>
    rw [← Option.some.inj hstep]
    apply h.arrived
    · exact h.taken
    · exact fun hfin => ⟨rfl, (h.finished hfin).2⟩
    · rfl
  | read result =>
    simp only [Connection.step] at hstep
    split at hstep
    · rename_i line hphase
      split_ifs at hstep with hbuffered
      exact h.read hphase hbuffered hstep
    · cases hstep
  | scan =>
    simp only [Connection.step] at hstep
    split at hstep
    · rename_i line hphase
      split_ifs at hstep with hbuffered
      rw [← Option.some.inj hstep]
      exact h.scan hphase hbuffered
    · cases hstep
  | handle answers =>
    simp only [Connection.step] at hstep
    split at hstep
    · rename_i line hphase
      rw [← Option.some.inj hstep]
      exact h.handle hphase answers
    · cases hstep
  | write result =>
    simp only [Connection.step] at hstep
    split at hstep
    · rename_i left hphase
      exact h.write hphase hstep
    · cases hstep

/-- All responses but the last are read whole. -/
theorem Sound.length_le (h : c.Sound parse) :
    c.exchanges.length ≤ (Lines.cut newline c.received).1.length + 1 := by
  obtain ⟨rest, hrest⟩ := h.earlierWritten
  have hlines : ∀ line ∈ c.responses.dropLast, Lines.IsLine newline line := by
    intro line hline
    obtain ⟨e, -, rfl⟩ := List.mem_map.mp (List.mem_of_mem_dropLast hline)
    exact isLine_bytes e.2
  have hcut := Lines.cut_flatten hlines rest
  rw [hrest] at hcut
  have hlength : c.responses.length = c.exchanges.length := List.length_map _
  rw [hcut, List.length_append, List.length_dropLast, hlength]
  omega

theorem Sound.dialogue (h : c.Sound parse) : c.Dialogue parse where
  stream := ⟨_, h.taken⟩
  finished hfin := by
    obtain ⟨hclosed, hbuffered, hinbox⟩ := h.finished hfin
    have htaken := h.taken
    rw [hbuffered, hinbox, List.append_nil, List.append_nil] at htaken
    exact ⟨hclosed, htaken⟩
  asked := h.asked
  answered := h.answered
  named e he request hparse := by
    obtain ⟨answers, hanswer⟩ := h.answered e he
    rw [hanswer]
    exact respond_id hparse answers
  written := h.written
  received := by
    have hlines : ∀ line ∈ c.responses, Lines.IsLine newline line := by
      intro line hline
      obtain ⟨e, -, rfl⟩ := List.mem_map.mp hline
      exact isLine_bytes e.2
    exact ⟨Lines.cut_prefix hlines h.written, h.length_le⟩
  replied hwaiting := by
    unfold waiting at hwaiting
    split at hwaiting
    · rename_i line hphase
      have hcomplete := h.complete (by rw [hphase]; exact ClientPhase.noConfusion)
      rwa [todo, hphase, List.append_nil] at hcomplete
    · exact absurd rfl hwaiting

end Connection

end NulConnect.Macos
