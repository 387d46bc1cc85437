import NulConnect.Net.Utf8

/-! JSON values and their compact form, which has no line break. -/
namespace NulConnect.Net.Json

/-- What a number is printed with. -/
def isNumberChar (c : Char) : Bool := c.isDigit || "+-.e".toList.contains c

/-- A number as it is printed. -/
abbrev Number := { literal : Text // ∀ c ∈ literal, isNumberChar c }

def Number.ofNat (n : ℕ) : Number where
  val := Nat.toDigits 10 n
  property c hc := by
    have hdigit : c.isDigit := Nat.isDigit_of_mem_toDigits (by decide) (by decide) hc
    simp [isNumberChar, hdigit]

inductive Value where
  | null
  | bool (b : Bool)
  | number (literal : Number)
  | string (s : Text)
  | array (values : List Value)
  | object (fields : List (Text × Value))

/-- `Value::get` with a key. -/
def Value.get (key : Text) : Value → Option Value
  | .object fields => (fields.find? fun f => f.1 = key).map Prod.snd
  | _ => none

def Value.asStr : Value → Option Text
  | .string s => some s
  | _ => none

def Value.asBool : Value → Option Bool
  | .bool b => some b
  | _ => none

def hexDigit (n : ℕ) : Char := "0123456789abcdef".toList.getD n '0'

/-- A character within a string: a quote, a backslash and the control characters are escaped. -/
def escape (c : Char) : Text :=
  if c = '"' then ['\\', '"']
  else if c = '\\' then ['\\', '\\']
  else if 0x20 ≤ c.toNat then [c]
  else if c.toNat = 0x08 then ['\\', 'b']
  else if c.toNat = 0x09 then ['\\', 't']
  else if c.toNat = 0x0a then ['\\', 'n']
  else if c.toNat = 0x0c then ['\\', 'f']
  else if c.toNat = 0x0d then ['\\', 'r']
  else ['\\', 'u', '0', '0', hexDigit (c.toNat / 16), hexDigit (c.toNat % 16)]

def quote (s : Text) : Text := '"' :: s.flatMap escape ++ ['"']

mutual

/-- The compact form. -/
def print : Value → Text
  | .null => "null".toList
  | .bool true => "true".toList
  | .bool false => "false".toList
  | .number literal => literal
  | .string s => quote s
  | .array values => '[' :: [','].intercalate (printAll values) ++ [']']
  | .object fields => '\x7b' :: [','].intercalate (printFields fields) ++ ['\x7d']

def printAll : List Value → List Text
  | [] => []
  | value :: rest => print value :: printAll rest

def printFields : List (Text × Value) → List Text
  | [] => []
  | (key, value) :: rest => (quote key ++ ':' :: print value) :: printFields rest

end

/-- No control character. -/
def Visible (s : Text) : Prop := ∀ c ∈ s, 0x20 ≤ c.toNat

instance (s : Text) : Decidable (Visible s) :=
  List.decidableBAll (fun c : Char => 0x20 ≤ c.toNat) s

theorem visible_append {s t : Text} : Visible (s ++ t) ↔ Visible s ∧ Visible t :=
  List.forall_mem_append

theorem visible_cons {c : Char} {s : Text} : Visible (c :: s) ↔ 0x20 ≤ c.toNat ∧ Visible s :=
  List.forall_mem_cons

theorem visible_escape (c : Char) : Visible (escape c) := by
  have hdigit : ∀ n < 16, 0x20 ≤ (hexDigit n).toNat := by decide
  unfold escape
  split_ifs with _ _ hvisible
  · decide
  · decide
  · intro d hd
    rw [List.mem_singleton.mp hd]
    exact hvisible
  · decide
  · decide
  · decide
  · decide
  · decide
  · have hhigh : c.toNat / 16 < 16 := by omega
    have hlow : c.toNat % 16 < 16 := by omega
    simp only [visible_cons]
    exact ⟨by decide, by decide, by decide, by decide, hdigit _ hhigh, hdigit _ hlow, by decide⟩

theorem visible_quote (s : Text) : Visible (quote s) := by
  have hinner : Visible (s.flatMap escape) := by
    intro d hd
    obtain ⟨c, -, hc⟩ := List.mem_flatMap.mp hd
    exact visible_escape c d hc
  unfold quote
  rw [List.cons_append, visible_cons, visible_append]
  exact ⟨by decide, hinner, by decide⟩

theorem visible_number (n : Number) : Visible n.val := by
  intro c hc
  have hchar := n.property c hc
  simp only [isNumberChar, Bool.or_eq_true] at hchar
  cases hchar with
  | inl hdigit =>
    have hrange : 48 ≤ c.toNat ∧ c.toNat ≤ 57 := by
      simpa [Char.isDigit, UInt32.le_iff_toNat_le] using hdigit
    omega
  | inr hsign =>
    have hall : Visible "+-.e".toList := by decide
    exact hall c (by simpa using hsign)

theorem visible_intercalate {parts : List Text} (h : ∀ part ∈ parts, Visible part) :
    Visible ([','].intercalate parts) := by
  induction parts with
  | nil => simp [Visible]
  | cons part parts ih =>
    rw [List.forall_mem_cons] at h
    cases parts with
    | nil => simpa using h.1
    | cons next parts =>
      have hrest := ih h.2
      rw [List.intercalate_cons_cons, visible_append, visible_append]
      exact ⟨⟨h.1, by decide⟩, hrest⟩

mutual

theorem visible_print : ∀ value : Value, Visible (print value)
  | .null => by decide
  | .bool true => by decide
  | .bool false => by decide
  | .number literal => visible_number literal
  | .string s => visible_quote s
  | .array values => by
    have hinner := visible_intercalate (visible_printAll values)
    rw [print, List.cons_append, visible_cons, visible_append]
    exact ⟨by decide, hinner, by decide⟩
  | .object fields => by
    have hinner := visible_intercalate (visible_printFields fields)
    rw [print, List.cons_append, visible_cons, visible_append]
    exact ⟨by decide, hinner, by decide⟩

theorem visible_printAll : ∀ values : List Value, ∀ part ∈ printAll values, Visible part
  | [] => by simp [printAll]
  | value :: rest => by
    rw [printAll, List.forall_mem_cons]
    exact ⟨visible_print value, visible_printAll rest⟩

theorem visible_printFields : ∀ fields : List (Text × Value),
    ∀ part ∈ printFields fields, Visible part
  | [] => by simp [printFields]
  | (key, value) :: rest => by
    rw [printFields, List.forall_mem_cons]
    refine ⟨?_, visible_printFields rest⟩
    rw [visible_append, visible_cons]
    exact ⟨visible_quote key, by decide, visible_print value⟩

end

/-- Beyond ASCII every byte of a character has its highest bit. -/
theorem visible_toUtf8 {s : Text} (h : Visible s) : ∀ b ∈ toUtf8 s, 0x20 ≤ b.toNat := by
  intro b hb
  obtain ⟨c, hc, hb⟩ := List.mem_flatMap.mp hb
  by_cases hascii : c.toNat < 0x80
  · have hchar : String.utf8EncodeChar c = [UInt8.ofNat c.toNat] :=
      if_pos (Nat.le_of_lt_succ hascii)
    rw [hchar, List.mem_singleton] at hb
    rw [hb, UInt8.toNat_ofNat_of_lt' (show c.toNat < 256 by omega)]
    exact h c hc
  · have hbyte := le_of_mem_utf8EncodeChar (Nat.le_of_not_lt hascii) b hb
    omega

end NulConnect.Net.Json
