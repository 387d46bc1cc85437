import NulConnect.Net.Text
import Mathlib.Tactic

/-! IPv4 addresses and their dotted form. -/
namespace NulConnect.Net

abbrev Ipv4Addr := BitVec 32

namespace Ipv4Addr

def ofOctets (a b c d : BitVec 8) : Ipv4Addr := a ++ b ++ c ++ d

def octets (ip : Ipv4Addr) : List (BitVec 8) :=
  [ip.extractLsb' 24 8, ip.extractLsb' 16 8, ip.extractLsb' 8 8, ip.extractLsb' 0 8]

/-- `Display`. -/
def toText (ip : Ipv4Addr) : Text :=
  ['.'].intercalate (ip.octets.map fun b => Nat.toDigits 10 b.toNat)

/-- One number of `Ipv4Addr::from_str`: up to three digits, without a leading zero. -/
def parseOctet (s : Text) : Option (BitVec 8) :=
  if s ≠ [] ∧ s.length ≤ 3 ∧ s.all Char.isDigit ∧ (s.head? = some '0' → s.length = 1) ∧
      Nat.ofDigitChars 10 s 0 < 256 then
    some (BitVec.ofNat 8 (Nat.ofDigitChars 10 s 0))
  else none

def parse (s : Text) : Option Ipv4Addr :=
  match s.splitOn '.' with
  | [a, b, c, d] => do
    return ofOctets (← parseOctet a) (← parseOctet b) (← parseOctet c) (← parseOctet d)
  | _ => none

end Ipv4Addr

end NulConnect.Net
