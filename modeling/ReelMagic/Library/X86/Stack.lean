import Mathlib.Data.List.Basic
import ReelMagic.Library.X86

namespace Library.X86

open Library.Bytes

section

variable {seg a b : UInt16}

theorem physical_ne (h : a ≠ b) : physical seg a ≠ physical seg b := by
  have ha := a.toNat_lt
  have hb := b.toNat_lt
  have hne : a.toNat ≠ b.toNat := fun heq => h (UInt16.toNat_inj.mp heq)
  unfold physical
  omega

theorem succ_ne_self (a : UInt16) : a + 1 ≠ a := by
  have ha := a.toNat_lt
  intro h
  have htoNat := congrArg UInt16.toNat h
  rw [UInt16.toNat_add] at htoNat
  simp only [UInt16.reduceToNat] at htoNat
  omega

theorem writeWord_of_ne (mem : Memory) (v : UInt16) {address : Nat}
    (h : address ≠ physical seg a) (h' : address ≠ physical seg (a + 1)) :
    writeWord mem seg a v address = mem address := by
  rw [writeWord, Function.update_of_ne h', Function.update_of_ne h]

theorem readWord_writeWord (mem : Memory) (seg a v : UInt16) :
    readWord (writeWord mem seg a v) seg a = v := by
  have hne : physical seg a ≠ physical seg (a + 1) := physical_ne (succ_ne_self a).symm
  rw [readWord, writeWord, Function.update_self, Function.update_of_ne hne, Function.update_self]
  exact word16_bytes16 v

theorem readWord_congr {mem mem' : Memory} (h : mem' (physical seg a) = mem (physical seg a))
    (h' : mem' (physical seg (a + 1)) = mem (physical seg (a + 1))) :
    readWord mem' seg a = readWord mem seg a := by
  rw [readWord, readWord, h, h']

end

-- The words at `seg:off` and upwards.
def Holds (mem : Memory) (seg : UInt16) : UInt16 → List UInt16 → Prop
  | _, [] => True
  | off, word :: words => readWord mem seg off = word ∧ Holds mem seg (off + 2) words

section

variable {mem mem' : Memory} {seg off : UInt16} {words more : List UInt16}

-- The offset of the byte `n` above another.
def above (off : UInt16) (n : Nat) : UInt16 := off + UInt16.ofNat n

theorem above_toNat (off : UInt16) (n : Nat) : (above off n).toNat = (off.toNat + n) % 65536 := by
  rw [above, UInt16.toNat_add, UInt16.toNat_ofNat']
  omega

theorem above_above (off : UInt16) (m n : Nat) : above (above off m) n = above off (m + n) := by
  apply UInt16.toNat_inj.mp
  rw [above_toNat, above_toNat, above_toNat]
  omega

theorem add_one_eq_above (off : UInt16) : off + 1 = above off 1 := rfl

theorem add_two_eq_above (off : UInt16) : off + 2 = above off 2 := rfl

theorem above_zero (off : UInt16) : above off 0 = off := by
  apply UInt16.toNat_inj.mp
  have hoff := off.toNat_lt
  rw [above_toNat]
  omega

theorem add_six_eq_above (off : UInt16) : off + 2 + 2 + 2 = above off 6 := by
  rw [add_two_eq_above, add_two_eq_above, add_two_eq_above, above_above, above_above]

theorem above_sub_two (off : UInt16) (n : Nat) : above (off - 2) (n + 2) = above off n := by
  have hback : off - 2 + 2 = off := UInt16.sub_add_cancel off 2
  rw [Nat.add_comm, ← above_above, ← add_two_eq_above, hback]

-- The bytes of a word.
def WordAt (seg off : UInt16) (address : Nat) : Prop :=
  ∃ n < 2, address = physical seg (above off n)

theorem readWord_of_kept (h : ∀ a, WordAt seg off a → mem' a = mem a) :
    readWord mem' seg off = readWord mem seg off := by
  have hlow := h _ ⟨0, by omega, rfl⟩
  rw [above_zero] at hlow
  exact readWord_congr hlow (h _ ⟨1, by omega, rfl⟩)

-- A word is as it was when another one has been written.
theorem readWord_of_apart {seg' off' : UInt16} (v : UInt16)
    (h : ∀ a, WordAt seg off a → ¬WordAt seg' off' a) :
    readWord (writeWord mem seg' off' v) seg off = readWord mem seg off := by
  apply readWord_of_kept
  intro a ha
  apply writeWord_of_ne
  · intro heq
    exact h a ha ⟨0, by omega, by rw [heq, above_zero]⟩
  · intro heq
    exact h a ha ⟨1, by omega, heq⟩

-- A word that is written at one place leaves the bytes at others alone.
theorem writeWord_above (mem : Memory) (seg off v : UInt16) {j k : Nat} (hj : j + 1 < 65536) (hk : k < 65536)
    (hne : k ≠ j) (hne' : k ≠ j + 1) :
    writeWord mem seg (above off j) v (physical seg (above off k)) = mem (physical seg (above off k)) := by
  have hoff := off.toNat_lt
  apply writeWord_of_ne
  · apply physical_ne
    intro heq
    have htoNat := congrArg UInt16.toNat heq
    rw [above_toNat, above_toNat] at htoNat
    omega
  · apply physical_ne
    intro heq
    have htoNat := congrArg UInt16.toNat heq
    rw [add_one_eq_above, above_above, above_toNat, above_toNat] at htoNat
    omega

-- Only the bytes of the words themselves matter.
theorem Holds.congr (h : Holds mem seg off words)
    (hsame : ∀ k < 2 * words.length, mem' (physical seg (above off k)) = mem (physical seg (above off k))) :
    Holds mem' seg off words := by
  induction words generalizing off with
  | nil => trivial
  | cons word words ih =>
      obtain ⟨hword, hwords⟩ := h
      rw [List.length_cons] at hsame
      have hlow := hsame 0 (by omega)
      rw [above_zero] at hlow
      refine ⟨(readWord_congr hlow (hsame 1 (by omega))).trans hword, ih hwords ?_⟩
      intro k hk
      rw [add_two_eq_above, above_above]
      exact hsame (2 + k) (by omega)

theorem holds_append : Holds mem seg off (words ++ more) ↔
    Holds mem seg off words ∧ Holds mem seg (above off (2 * words.length)) more := by
  induction words generalizing off with
  | nil =>
      rw [List.length_nil, above_zero]
      simp [Holds]
  | cons word words ih =>
      have hoff : above (off + 2) (2 * words.length) = above off (2 * (words.length + 1)) := by
        rw [add_two_eq_above, above_above]
        congr 1
        omega
      rw [List.cons_append, Holds, Holds, ih, hoff, List.length_cons, and_assoc]

theorem Holds.getElem (h : Holds mem seg off words) {k : Nat} (hk : k < words.length) :
    readWord mem seg (above off (2 * k)) = words[k] := by
  induction words generalizing off k with
  | nil => exact absurd hk (Nat.not_lt_zero k)
  | cons word words ih =>
      obtain ⟨hword, hwords⟩ := h
      cases k with
      | zero =>
          rw [above_zero]
          exact hword
      | succ k =>
          have hrest := ih hwords (Nat.lt_of_succ_lt_succ hk)
          rw [add_two_eq_above, above_above] at hrest
          have hindex : 2 + 2 * k = 2 * (k + 1) := by omega
          rw [hindex] at hrest
          exact hrest

-- A word below the others leaves them alone.
theorem holds_push (h : Holds mem seg off words) (v : UInt16) (hroom : 2 * (words.length + 1) ≤ 65536) :
    Holds (writeWord mem seg (off - 2) v) seg (off - 2) (v :: words) := by
  have hback : off - 2 + 2 = off := UInt16.sub_add_cancel off 2
  refine ⟨readWord_writeWord mem seg _ v, ?_⟩
  rw [hback]
  apply h.congr
  intro k hk
  have hlow : above (off - 2) (2 + k) = above off k := by
    rw [← above_above, ← add_two_eq_above, hback]
  have hsame := writeWord_above mem seg (off - 2) v (j := 0) (k := 2 + k) (by omega) (by omega)
    (by omega) (by omega)
  rw [above_zero, hlow] at hsame
  exact hsame

-- One of the words is overwritten.
theorem holds_set (h : Holds mem seg off words) (v : UInt16) {k : Nat} (hk : k < words.length)
    (hroom : 2 * words.length ≤ 65536) :
    Holds (writeWord mem seg (above off (2 * k)) v) seg off (words.set k v) := by
  induction words generalizing off k with
  | nil => trivial
  | cons word words ih =>
      obtain ⟨hword, hwords⟩ := h
      rw [List.length_cons] at hk hroom
      cases k with
      | zero =>
          refine ⟨?_, hwords.congr fun j hj => ?_⟩
          · rw [Nat.mul_zero, above_zero]
            exact readWord_writeWord mem seg off v
          · rw [add_two_eq_above, above_above]
            exact writeWord_above mem seg off v (by omega) (by omega) (by omega) (by omega)
      | succ k =>
          refine ⟨?_, ?_⟩
          · rw [← hword]
            apply readWord_congr
            · have hsame := writeWord_above mem seg off v (j := 2 * (k + 1)) (k := 0) (by omega)
                (by omega) (by omega) (by omega)
              rw [above_zero] at hsame
              exact hsame
            · rw [add_one_eq_above]
              exact writeWord_above mem seg off v (by omega) (by omega) (by omega) (by omega)
          · have hindex : above off (2 * (k + 1)) = above (off + 2) (2 * k) := by
              rw [add_two_eq_above, above_above]
              congr 1
              omega
            rw [hindex]
            exact ih hwords (by omega) (by omega)

end

end Library.X86
