import NulConnect.Net.Ipv4

/-! `u8::from_str` and `IpAddr::from_str`: the prefix lengths, and which texts are addresses of
which kind. -/
namespace NulConnect.Net

/-- `parse::<u8>`: an optional plus sign and decimal digits. -/
def parseU8 (s : Text) : Option ℕ :=
  let digits := match s with
    | '+' :: rest => rest
    | _ => s
  if digits ≠ [] ∧ digits.all Char.isDigit ∧ Nat.ofDigitChars 10 digits 0 < 256 then
    some (Nat.ofDigitChars 10 digits 0)
  else none

inductive IpKind where
  | v4
  | v6
deriving DecidableEq, Repr

def isHexDigit (c : Char) : Bool :=
  c.isDigit || ('a' ≤ c && c ≤ 'f') || ('A' ≤ c && c ≤ 'F')

def readChar (c : Char) : Text → Option Text
  | [] => none
  | x :: rest => if x = c then some rest else none

def readOctet (s : Text) : Option (BitVec 8 × Text) :=
  (Ipv4Addr.parseOctet (s.takeWhile Char.isDigit)).map fun octet =>
    (octet, s.dropWhile Char.isDigit)

/-- `read_ipv4_addr`: the address at the head and the rest. -/
def readIpv4 (s : Text) : Option (Ipv4Addr × Text) := do
  let (a, s) ← readOctet s
  let (b, s) ← readOctet (← readChar '.' s)
  let (c, s) ← readOctet (← readChar '.' s)
  let (d, s) ← readOctet (← readChar '.' s)
  return (Ipv4Addr.ofOctets a b c d, s)

/-- A group of an IPv6 address: up to four hexadecimal digits. -/
def readGroup (s : Text) : Option Text :=
  let digits := s.takeWhile isHexDigit
  if digits ≠ [] ∧ digits.length ≤ 4 then some (s.dropWhile isHexDigit) else none

/-- `read_separator` with a colon before every group but the first. -/
def readSeparated {α : Type*} (i : ℕ) (read : Text → Option α) (s : Text) : Option α :=
  if i = 0 then read s else (readChar ':' s).bind read

/-- `read_groups` with room for `left` more groups after the first `i`: how many have been read,
whether the last two were an IPv4 address, and the rest. -/
def readGroups : ℕ → ℕ → Text → ℕ × Bool × Text
  | 0, i, s => (i, false, s)
  | left + 1, i, s =>
    match if left ≠ 0 then readSeparated i readIpv4 s else none with
    | some (_, rest) => (i + 2, true, rest)
    | none =>
      match readSeparated i readGroup s with
      | some rest => readGroups left (i + 1) rest
      | none => (i, false, s)

/-- `read_ipv6_addr`: what follows the address at the head. -/
def readIpv6 (s : Text) : Option Text :=
  let (head, ipv4, rest) := readGroups 8 0 s
  if head = 8 then some rest
  else if ipv4 then none
  else do
    let rest ← readChar ':' (← readChar ':' rest)
    return (readGroups (7 - head) 0 rest).2.2

def ipKind (s : Text) : Option IpKind :=
  if (Ipv4Addr.parse s).isSome then some .v4
  else if readIpv6 s = some [] then some .v6
  else none

example : ["10.0.0.1", "::", "fe80::1", "::ffff:1.2.3.4", "1:2:3:4:5:6:7::", "1:2:3:4:5:6:7::8",
    "1.2.3.4::", "12345::"].map (fun s => ipKind s.toList) =
    [some .v4, some .v6, some .v6, some .v6, some .v6, none, none, none] := by decide +kernel

end NulConnect.Net
