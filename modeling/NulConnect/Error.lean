import NulConnect.Net.Text

/-! `AtrError` and `ErrorCode`. -/
namespace NulConnect
open Net

inductive AtrError where
  | invalidArgument (message : Text)
  | parseFailed (message : Text)
  | networkFailed (message : Text)
  | unauthorized (message : Text)
  | challengeRequired (message : Text)
  | invalidState (message : Text)
  | cryptoFailed (message : Text)
  | notFound (message : Text)
  | unsupported (message : Text)
  | internal (message : Text)
deriving DecidableEq, Repr

inductive ErrorCode where
  | ok
  | invalidArgument
  | parseFailed
  | networkFailed
  | unauthorized
  | challengeRequired
  | invalidState
  | cryptoFailed
  | notFound
  | unsupported
  | internal
deriving DecidableEq, Repr

namespace AtrError

def code : AtrError → ErrorCode
  | .invalidArgument _ => .invalidArgument
  | .parseFailed _ => .parseFailed
  | .networkFailed _ => .networkFailed
  | .unauthorized _ => .unauthorized
  | .challengeRequired _ => .challengeRequired
  | .invalidState _ => .invalidState
  | .cryptoFailed _ => .cryptoFailed
  | .notFound _ => .notFound
  | .unsupported _ => .unsupported
  | .internal _ => .internal

/-- `to_string`. -/
def toText : AtrError → Text
  | .invalidArgument message => "invalid argument: ".toList ++ message
  | .parseFailed message => "parse failed: ".toList ++ message
  | .networkFailed message => "network failed: ".toList ++ message
  | .unauthorized message => "unauthorized: ".toList ++ message
  | .challengeRequired message => "challenge required: ".toList ++ message
  | .invalidState message => "invalid state: ".toList ++ message
  | .cryptoFailed message => "crypto failed: ".toList ++ message
  | .notFound message => "not found: ".toList ++ message
  | .unsupported message => "unsupported: ".toList ++ message
  | .internal message => "internal error: ".toList ++ message

end AtrError

/-- The name of the code as `Debug` writes it, in lower case. -/
def ErrorCode.lowercase : ErrorCode → Text
  | .ok => "ok".toList
  | .invalidArgument => "invalidargument".toList
  | .parseFailed => "parsefailed".toList
  | .networkFailed => "networkfailed".toList
  | .unauthorized => "unauthorized".toList
  | .challengeRequired => "challengerequired".toList
  | .invalidState => "invalidstate".toList
  | .cryptoFailed => "cryptofailed".toList
  | .notFound => "notfound".toList
  | .unsupported => "unsupported".toList
  | .internal => "internal".toList

end NulConnect
