import Mathlib.Data.List.Basic

namespace Library.Stdio

variable {α : Type*}

-- `fread` of one item of `size` elements from the unread part of a stream.
-- An item of size zero is never counted as read and leaves the stream alone.
-- A short read is not counted either, and consumes what was left.
def fread (size : Nat) (stream : List α) : Option (List α) × List α :=
  if size = 0 then (none, stream)
  else if size ≤ stream.length then (some (stream.take size), stream.drop size)
  else (none, [])

theorem fread_eq_some_iff (size : Nat) (stream item rest : List α) :
    fread size stream = (some item, rest) ↔
      0 < size ∧ item.length = size ∧ stream = item ++ rest := by
  unfold fread
  split
  · rename_i hz
    simp [hz]
  · split
    · rename_i hz hlen
      constructor
      · intro h
        obtain ⟨rfl, rfl⟩ : stream.take size = item ∧ stream.drop size = rest := by simpa using h
        exact ⟨by omega, List.length_take_of_le hlen, (List.take_append_drop size stream).symm⟩
      · rintro ⟨_, rfl, rfl⟩
        simp
    · rename_i hz hlen
      constructor
      · intro h
        simp at h
      · rintro ⟨_, rfl, rfl⟩
        simp at hlen

theorem fread_append (item rest : List α) (h : 0 < item.length) :
    fread item.length (item ++ rest) = (some item, rest) :=
  (fread_eq_some_iff _ _ _ _).mpr ⟨h, rfl, rfl⟩

theorem fread_short (size : Nat) (stream : List α) (h : stream.length < size) :
    fread size stream = (none, []) := by
  have hz : size ≠ 0 := by omega
  have hlen : ¬size ≤ stream.length := by omega
  simp [fread, hz, hlen]

theorem fread_none_rest {size : Nat} {stream rest : List α} (hsize : 0 < size)
    (h : fread size stream = (none, rest)) : rest = [] := by
  unfold fread at h
  rw [if_neg (by omega)] at h
  split at h
  · cases h
  · cases h
    rfl

theorem fread_one_eq_none_iff (stream : List α) : (fread 1 stream).1 = none ↔ stream = [] := by
  cases stream <;> simp [fread]

theorem fread_some_length {size : Nat} {stream item rest : List α}
    (h : fread size stream = (some item, rest)) : rest.length + size = stream.length := by
  obtain ⟨_, hlen, rfl⟩ := (fread_eq_some_iff _ _ _ _).mp h
  rw [List.length_append]
  omega

theorem fread_length_le (size : Nat) (stream : List α) :
    (fread size stream).2.length ≤ stream.length := by
  unfold fread
  split
  · exact Nat.le_refl _
  · split
    · rw [List.length_drop]
      omega
    · exact Nat.zero_le _

end Library.Stdio
