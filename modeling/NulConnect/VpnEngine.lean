import Mathlib.Tactic.Common

/-! `VpnEngine` as its owners see it: the result its workers publish, and its status. -/
namespace NulConnect

/-- What the workers publish: the number of sessions, or the error that ended the engine. -/
inductive EngineResult where
  | ok (sessions : ℕ)
  | error (message : String)
deriving DecidableEq, Repr

inductive VpnEngineStatus where
  | running
  | stopped
deriving DecidableEq, Repr

/-- `VpnEngine::status`: the engine is stopped while its result slot is filled. -/
def engineStatus (result : Option EngineResult) : VpnEngineStatus :=
  if result.isSome then .stopped else .running

@[simp] theorem engineStatus_eq_stopped {result : Option EngineResult} :
    engineStatus result = .stopped ↔ result ≠ none := by
  cases result <;> simp [engineStatus]

end NulConnect
