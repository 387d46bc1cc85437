import Mathlib.Tactic.Common
import NulConnect.Net.Json
import NulConnect.Net.MessagePipe

/-! The messages of the named pipe: `read_message`, `write_message` and `handle_request`. -/
namespace NulConnect.Windows.Pipe
open Net Net.Json

abbrev Bytes := List UInt8

/-- `BUFFER_SIZE`. -/
def bufferSize : ℕ := 64 * 1024

/-- `MAX_REQUEST_BYTES`. -/
def maxRequestBytes : ℕ := 16 * 1024 * 1024

abbrev Inbox := MessagePipe.Inbox UInt8

/-- `read_message`: `ReadFile` with the buffer, until there is no `ERROR_MORE_DATA`. It waits where
there is no message, and gives none for `request too large`. -/
def readMessage (inbox : Inbox) : Option (Option Bytes × Inbox) :=
  MessagePipe.readOn maxRequestBytes (by decide : 0 < bufferSize) [] inbox

/-- What `WriteFile` is told to write: as many bytes as a `u32` of the length says. -/
def written (data : Bytes) : Bytes := data.take (data.length % 2 ^ 32)

def writeMessage (inbox : Inbox) (data : Bytes) : Inbox := inbox ++ [written data]

/-- `serde_json`. -/
structure Codec where
  fromSlice : Bytes → Except Text Value
  toVec : Value → Except Text Bytes

/-- What the runtime answers while it handles a request; `beginStart` also parses the config. -/
structure Answers where
  version : Text
  statusJson : Value
  beginStart : Value → Except Text Value

/-- What a request has the runtime do. -/
inductive Effect where
  | none
  | beginStart (config : Value)
  | stop
  | cleanup
  | setLogging (enabled : Bool)
  | requestShutdown

def ok (id data : Value) : Value :=
  .object [("id".toList, id), ("ok".toList, .bool true), ("data".toList, data)]

def fail (id : Value) (code message : Text) : Value :=
  .object [("id".toList, id), ("ok".toList, .bool false),
    ("error".toList, .object [("code".toList, .string code), ("message".toList, .string message)])]

def status (text : Text) : Value := .object [("status".toList, .string text)]

/-- The arm of `start_tun`. -/
def startTun (answers : Answers) (id : Value) : Option Value → Value × Effect
  | none => (fail id "tun_start_failed".toList "start_tun requires config".toList, .none)
  | some config =>
    match answers.beginStart config with
    | .ok data => (ok id data, .beginStart config)
    | .error message => (fail id "tun_start_failed".toList message, .beginStart config)

/-- The arms of `handle_request` for a request that was parsed. -/
def dispatch (answers : Answers) (request : Value) (allowShutdown : Bool) : Value × Effect :=
  let id := (request.get "id".toList).getD .null
  let command := ((request.get "command".toList).bind Value.asStr).getD []
  if command = "version".toList then
    (ok id (.object [("version".toList, .string answers.version)]), .none)
  else if command = "status".toList then (ok id answers.statusJson, .none)
  else if command = "start_tun".toList then startTun answers id (request.get "config".toList)
  else if command = "stop_tun".toList then (ok id (status "stopped".toList), .stop)
  else if command = "cleanup".toList then (ok id (status "clean".toList), .cleanup)
  else if command = "set_logging".toList then
    let enabled := ((request.get "enabled".toList).bind Value.asBool).getD false
    (ok id (.object [("logging".toList, .bool enabled)]), .setLogging enabled)
  else if command = "shutdown".toList ∧ allowShutdown then
    (ok id (status "stopping".toList), .requestShutdown)
  else (fail id "invalid_command".toList ("unsupported command: ".toList ++ command), .none)

def handleRequest (codec : Codec) (answers : Answers) (request : Bytes) (allowShutdown : Bool) :
    Value × Effect :=
  match codec.fromSlice request with
  | .ok value => dispatch answers value allowShutdown
  | .error message => (fail .null "invalid_request".toList message, .none)

theorem readMessage_nil : readMessage [] = none := MessagePipe.readOn_nil _

/-- A message as it arrives is read as it was written, if it is within the limit; the next one is
left as it is. -/
theorem readMessage_eq (m : Bytes) (rest : Inbox) :
    readMessage (m :: rest) = some
      (if m.length ≤ maxRequestBytes then (some m, rest)
      else (none, if m.length ≤ maxRequestBytes + bufferSize then rest
        else m.drop (maxRequestBytes + bufferSize) :: rest)) := by
  have hlimit : bufferSize ∣ maxRequestBytes := ⟨256, rfl⟩
  have hnil : bufferSize ∣ ([] : Bytes).length := Nat.dvd_zero bufferSize
  exact MessagePipe.readOn_eq _ hlimit hnil (Nat.zero_le maxRequestBytes)

theorem startTun_cases (answers : Answers) (id : Value) (config : Option Value) :
    (startTun answers id config).1.get "id".toList = some id ∧
      (startTun answers id config).2 ≠ .requestShutdown := by
  cases config with
  | none => exact ⟨rfl, by simp [startTun]⟩
  | some config =>
    cases hbegin : answers.beginStart config with
    | ok data =>
      simp only [startTun, hbegin]
      exact ⟨rfl, by simp⟩
    | error message =>
      simp only [startTun, hbegin]
      exact ⟨rfl, by simp⟩

/-- Every response carries the id of its request, `null` where there is none. -/
theorem get_id_dispatch (answers : Answers) (request : Value) (allowShutdown : Bool) :
    (dispatch answers request allowShutdown).1.get "id".toList =
      some ((request.get "id".toList).getD .null) := by
  unfold dispatch
  dsimp only
  split_ifs
  all_goals first
    | exact (startTun_cases _ _ _).1
    | rfl

/-- A client of the service cannot end it. -/
theorem dispatch_ne_requestShutdown (answers : Answers) (request : Value) :
    (dispatch answers request false).2 ≠ .requestShutdown := by
  unfold dispatch
  dsimp only
  split_ifs
  all_goals first
    | exact (startTun_cases _ _ _).2
    | exact absurd (And.right ‹_ ∧ False›) id
    | exact Effect.noConfusion

end NulConnect.Windows.Pipe
