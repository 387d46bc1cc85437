import Mathlib.Data.List.Basic

/-! Pipes in message mode: a message that is longer than the buffer of its reader is read in
chunks and put together again, up to a limit. -/
namespace NulConnect.Net.MessagePipe

variable {β : Type*}

/-- The messages at one end of a pipe that are still to be read; of the first, a part may have been
read. -/
abbrev Inbox (β : Type*) := List (List β)

/-- What one read gives: data, and whether the message ends with them. -/
structure Chunk (β : Type*) where
  data : List β
  complete : Bool

/-- A read with a buffer of a size; it waits where there is no message. -/
def readChunk (size : ℕ) : Inbox β → Option (Chunk β × Inbox β)
  | [] => none
  | m :: rest =>
    if m.length ≤ size then some (⟨m, true⟩, rest)
    else some (⟨m.take size, false⟩, m.drop size :: rest)

variable {size limit : ℕ} {message m : List β} {rest inbox inbox' : Inbox β} {chunk : Chunk β}

/-- What a read leaves of a message is shorter. -/
theorem headD_readChunk_lt (hsize : 0 < size) (h : readChunk size inbox = some (chunk, inbox'))
    (hmore : ¬ chunk.complete) : (inbox'.headD []).length < (inbox.headD []).length := by
  cases inbox with
  | nil => cases h
  | cons m rest =>
    simp only [readChunk] at h
    split_ifs at h with hm
    · obtain ⟨rfl, rfl⟩ := Prod.mk.inj (Option.some.inj h)
      exact absurd rfl hmore
    · obtain ⟨rfl, rfl⟩ := Prod.mk.inj (Option.some.inj h)
      simp only [List.headD_cons, List.length_drop]
      omega

/-- Reads to the end of a message, with what has been read of it before; `none` in the result is
for a message beyond the limit. -/
def readOn (limit : ℕ) (hsize : 0 < size) (message : List β) (inbox : Inbox β) :
    Option (Option (List β) × Inbox β) :=
  match _h : readChunk size inbox with
  | none => none
  | some (chunk, inbox') =>
    if limit < (message ++ chunk.data).length then some (none, inbox')
    else if _hmore : chunk.complete then some (some (message ++ chunk.data), inbox')
    else readOn limit hsize (message ++ chunk.data) inbox'
termination_by (inbox.headD []).length
decreasing_by exact headD_readChunk_lt hsize _h _hmore

theorem readOn_nil (hsize : 0 < size) : readOn limit hsize message [] = none := by
  rw [readOn]
  rfl

/-- One turn of the loop. -/
theorem readOn_turn (hsize : 0 < size) (h : readChunk size inbox = some (chunk, inbox')) :
    readOn limit hsize message inbox =
      if limit < (message ++ chunk.data).length then some (none, inbox')
      else if chunk.complete then some (some (message ++ chunk.data), inbox')
      else readOn limit hsize (message ++ chunk.data) inbox' := by
  conv_lhs => rw [readOn]
  split
  · rename_i hnone
    rw [h] at hnone
    cases hnone
  · rename_i hsome
    rw [h] at hsome
    obtain ⟨rfl, rfl⟩ := Prod.mk.inj (Option.some.inj hsome)
    rfl

/-- The reader puts a message together again and leaves the next one as it is. Of a message beyond
a limit that is a number of whole chunks it reads one chunk more than the limit. -/
theorem readOn_eq (hsize : 0 < size) (hlimit : size ∣ limit) (hdvd : size ∣ message.length)
    (hle : message.length ≤ limit) :
    readOn limit hsize message (m :: rest) = some
      (if (message ++ m).length ≤ limit then (some (message ++ m), rest)
      else (none, if (message ++ m).length ≤ limit + size then rest
        else (message ++ m).drop (limit + size) :: rest)) := by
  induction hn : m.length using Nat.strongRecOn generalizing message m with
  | ind n ih =>
    subst hn
    have hlength : (message ++ m).length = message.length + m.length := List.length_append
    by_cases hm : m.length ≤ size
    · -- the last chunk of the message
      have hread : readChunk size (m :: rest) = some (⟨m, true⟩, rest) := if_pos hm
      rw [readOn_turn hsize hread]
      by_cases hlarge : limit < (message ++ m).length
      · rw [if_pos hlarge, if_neg (by omega), if_pos (by omega)]
      · rw [if_neg hlarge, if_pos rfl, if_pos (by omega)]
    · have hread : readChunk size (m :: rest) =
          some (⟨m.take size, false⟩, m.drop size :: rest) := if_neg hm
      have htake : (message ++ m.take size).length = message.length + size := by
        rw [List.length_append, List.length_take, Nat.min_eq_left (by omega)]
      rw [readOn_turn hsize hread]
      by_cases hlarge : limit < (message ++ m.take size).length
      · -- both are whole chunks, so the limit had been reached to the byte
        have hfull : message.length = limit := by
          obtain ⟨j, hj⟩ := hlimit
          obtain ⟨k, hk⟩ := hdvd
          have hkj : k ≤ j := Nat.le_of_mul_le_mul_left (by omega : size * k ≤ size * j) hsize
          have hlt : size * j < size * (k + 1) := by
            rw [Nat.mul_succ]
            omega
          have hjk : j < k + 1 := Nat.lt_of_mul_lt_mul_left hlt
          rw [hk, hj, show k = j by omega]
        have hnil : message.drop (message.length + size) = [] :=
          List.drop_eq_nil_of_le (Nat.le_add_right _ _)
        have hrest : (message ++ m).drop (limit + size) = m.drop size := by
          rw [← hfull, List.drop_append, hnil, List.nil_append, Nat.add_sub_cancel_left]
        rw [if_pos hlarge, if_neg (by omega), if_neg (by omega), hrest]
      · rw [if_neg hlarge, if_neg Bool.false_ne_true, ih _ _ _ _ rfl, List.append_assoc,
          List.take_append_drop]
        · rw [List.length_drop]
          omega
        · rw [htake]
          exact Nat.dvd_add hdvd (Nat.dvd_refl size)
        · exact Nat.le_of_not_lt hlarge

end NulConnect.Net.MessagePipe
