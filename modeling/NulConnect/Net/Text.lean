import Mathlib.Data.List.Destutter
import Mathlib.Data.List.DropRight
import Mathlib.Data.List.Sort
import Mathlib.Data.String.Basic
import Mathlib.Tactic.Common

/-! The string functions the sources call, on lists of characters. -/
namespace NulConnect.Net

abbrev Text := List Char

instance : LawfulBEq Text := inferInstance

/-- The `White_Space` property of Unicode, which `trim` goes by. -/
def isWhitespace (c : Char) : Bool :=
  (0x9 ≤ c.toNat && c.toNat ≤ 0xd) || c.toNat == 0x20 || c.toNat == 0x85 || c.toNat == 0xa0 ||
    c.toNat == 0x1680 || (0x2000 ≤ c.toNat && c.toNat ≤ 0x200a) || c.toNat == 0x2028 ||
    c.toNat == 0x2029 || c.toNat == 0x202f || c.toNat == 0x205f || c.toNat == 0x3000

/-- `str::trim_matches`. -/
def trimMatches (p : Char → Bool) (s : Text) : Text :=
  (s.dropWhile p).rdropWhile p

def trim (s : Text) : Text := trimMatches isWhitespace s

/-- `str::split_once` at the first `c`. -/
def splitOnce (c : Char) : Text → Option (Text × Text)
  | [] => none
  | x :: rest =>
    if x = c then some ([], rest)
    else (splitOnce c rest).map fun p => (x :: p.1, p.2)

/-- `str::rsplit_once` at the last `c`. -/
def rsplitOnce (c : Char) (s : Text) : Option (Text × Text) :=
  (splitOnce c s.reverse).map fun p => (p.2.reverse, p.1.reverse)

/-- `sort` and `dedup`, in the order of the code points. -/
def sortDedup (l : List Text) : List Text :=
  (l.insertionSort (· ≤ ·)).destutter (· ≠ ·)

end NulConnect.Net
