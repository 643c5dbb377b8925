import Mathlib.Data.Nat.Bitwise
import Mathlib.Tactic.Ring.RingNF

namespace Library.Bytes

-- Words as the bytes a little-endian host keeps in memory, least significant first.
def word16 (b0 b1 : UInt8) : UInt16 :=
  UInt16.ofNat (b0.toNat + 256 * b1.toNat)

def word32 (b0 b1 b2 b3 : UInt8) : UInt32 :=
  UInt32.ofNat (b0.toNat + 256 * b1.toNat + 65536 * b2.toNat + 16777216 * b3.toNat)

def bytes16 (w : UInt16) : List UInt8 :=
  [w.toUInt8, UInt8.ofNat (w.toNat / 256)]

-- An array of words over the bytes of its memory.
def words16 : List UInt8 → List UInt16
  | b0 :: b1 :: rest => word16 b0 b1 :: words16 rest
  | _ => []

-- A fixed-size array from the bytes at its address.
def array (n : Nat) (bytes : List UInt8) : Vector UInt8 n :=
  Vector.ofFn fun i => bytes.getD i 0

def bytes32 (w : UInt32) : List UInt8 :=
  [w.toUInt8, UInt8.ofNat (w.toNat / 256), UInt8.ofNat (w.toNat / 65536),
    UInt8.ofNat (w.toNat / 16777216)]

@[simp] theorem bytes16_length (w : UInt16) : (bytes16 w).length = 2 := rfl

theorem word16_toNat (b0 b1 : UInt8) : (word16 b0 b1).toNat = b0.toNat + 256 * b1.toNat := by
  have h0 := b0.toNat_lt
  have h1 := b1.toNat_lt
  simp only [word16, UInt16.toNat_ofNat']
  omega

theorem word32_toNat (b0 b1 b2 b3 : UInt8) : (word32 b0 b1 b2 b3).toNat =
    b0.toNat + 256 * b1.toNat + 65536 * b2.toNat + 16777216 * b3.toNat := by
  have h0 := b0.toNat_lt
  have h1 := b1.toNat_lt
  have h2 := b2.toNat_lt
  have h3 := b3.toNat_lt
  simp only [word32, UInt32.toNat_ofNat']
  omega

@[simp] theorem word16_bytes16 (w : UInt16) :
    word16 w.toUInt8 (UInt8.ofNat (w.toNat / 256)) = w := by
  have h := w.toNat_lt
  apply UInt16.toNat_inj.mp
  simp only [word16_toNat, UInt8.toNat_ofNat', UInt16.toNat_toUInt8]
  omega

@[simp] theorem word32_bytes32 (w : UInt32) :
    word32 w.toUInt8 (UInt8.ofNat (w.toNat / 256)) (UInt8.ofNat (w.toNat / 65536))
      (UInt8.ofNat (w.toNat / 16777216)) = w := by
  have h := w.toNat_lt
  apply UInt32.toNat_inj.mp
  simp only [word32_toNat, UInt8.toNat_ofNat', UInt32.toNat_toUInt8]
  omega

@[simp] theorem bytes16_word16 (b0 b1 : UInt8) : bytes16 (word16 b0 b1) = [b0, b1] := by
  have h0 := b0.toNat_lt
  have h1 := b1.toNat_lt
  simp only [bytes16, word16_toNat, List.cons.injEq, ← UInt8.toNat_inj, UInt8.toNat_ofNat',
    UInt16.toNat_toUInt8, and_true]
  omega

@[simp] theorem bytes32_word32 (b0 b1 b2 b3 : UInt8) :
    bytes32 (word32 b0 b1 b2 b3) = [b0, b1, b2, b3] := by
  have h0 := b0.toNat_lt
  have h1 := b1.toNat_lt
  have h2 := b2.toNat_lt
  have h3 := b3.toNat_lt
  simp only [bytes32, word32_toNat, List.cons.injEq, ← UInt8.toNat_inj, UInt8.toNat_ofNat',
    UInt32.toNat_toUInt8, and_true]
  omega

@[simp] theorem array_toList (n : Nat) (v : Vector UInt8 n) : array n v.toList = v := by
  ext i hi
  simp [array]

theorem toList_array (n : Nat) (bytes : List UInt8) (h : bytes.length = n) :
    (array n bytes).toList = bytes := by
  apply List.ext_getElem
  · simp [h]
  · intro i hi hj
    simp [array, hj]

theorem words16_length (bytes : List UInt8) : (words16 bytes).length = bytes.length / 2 := by
  induction bytes using words16.induct with
  | case1 b0 b1 rest ih =>
      rw [words16, List.length_cons, ih, List.length_cons, List.length_cons]
      omega
  | case2 bytes h =>
      match bytes, h with
      | [], _ => rfl
      | [_], _ => simp [words16]
      | b0 :: b1 :: rest, h => exact absurd rfl (h b0 b1 rest)

theorem flatMap_bytes16_words16 (bytes : List UInt8) (h : bytes.length % 2 = 0) :
    (words16 bytes).flatMap bytes16 = bytes := by
  induction bytes using words16.induct with
  | case1 b0 b1 rest ih =>
      rw [words16, List.flatMap_cons, bytes16_word16, ih]
      · rfl
      · rw [List.length_cons, List.length_cons] at h
        omega
  | case2 bytes hne =>
      match bytes, hne with
      | [], _ => rfl
      | [_], _ => simp at h
      | b0 :: b1 :: rest, hne => exact absurd rfl (hne b0 b1 rest)

end Library.Bytes
