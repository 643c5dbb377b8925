import Mathlib.Data.Nat.Bitwise

namespace Library.Registers

-- A register that is put together of two halves by a shift and an or.

section Words

variable (high low : UInt8)

theorem toNat_word : (high.toUInt16 <<< 8 ||| low.toUInt16).toNat = high.toNat * 256 + low.toNat := by
  have hhigh : high.toNat < 256 := high.toNat_lt
  have hor : high.toNat <<< 8 + low.toNat = high.toNat <<< 8 ||| low.toNat :=
    Nat.shiftLeft_add_eq_or_of_lt low.toNat_lt high.toNat
  have hshift : high.toNat <<< 8 = high.toNat * 256 := Nat.shiftLeft_eq _ _
  rw [UInt16.toNat_or, UInt16.toNat_shiftLeft, UInt8.toNat_toUInt16, UInt8.toNat_toUInt16]
  show high.toNat <<< 8 % 65536 ||| low.toNat = _
  rw [Nat.mod_eq_of_lt (show high.toNat <<< 8 < 65536 by omega), ← hor, hshift]

theorem word_eq : high.toUInt16 <<< 8 ||| low.toUInt16 = high.toUInt16 * 256 + low.toUInt16 := by
  have hhigh : high.toNat < 256 := high.toNat_lt
  have hlow : low.toNat < 256 := low.toNat_lt
  rw [← UInt16.toNat_inj, toNat_word, UInt16.toNat_add, UInt16.toNat_mul, UInt8.toNat_toUInt16,
    UInt8.toNat_toUInt16]
  show high.toNat * 256 + low.toNat = (high.toNat * 256 % 65536 + low.toNat) % 65536
  omega

theorem word_shiftRight : (high.toUInt16 <<< 8 ||| low.toUInt16) >>> 8 = high.toUInt16 := by
  have hlow : low.toNat < 256 := low.toNat_lt
  rw [← UInt16.toNat_inj, UInt16.toNat_shiftRight, toNat_word, UInt8.toNat_toUInt16,
    Nat.shiftRight_eq_div_pow]
  show (high.toNat * 256 + low.toNat) / 256 = high.toNat
  omega

theorem word_and : (high.toUInt16 <<< 8 ||| low.toUInt16) &&& 0xFF = low.toUInt16 := by
  have hlow : low.toNat < 256 := low.toNat_lt
  have hmod : (high.toNat * 256 + low.toNat) &&& 255 = (high.toNat * 256 + low.toNat) % 256 :=
    Nat.and_two_pow_sub_one_eq_mod _ 8
  rw [← UInt16.toNat_inj, UInt16.toNat_and, toNat_word, UInt8.toNat_toUInt16]
  show (high.toNat * 256 + low.toNat) &&& 255 = low.toNat
  omega

theorem word_toUInt8 : (high.toUInt16 <<< 8 ||| low.toUInt16).toUInt8 = low := by
  have hlow : low.toNat < 256 := low.toNat_lt
  rw [← UInt8.toNat_inj, UInt16.toNat_toUInt8, toNat_word]
  omega

end Words

section DoubleWords

variable (high low : UInt16)

theorem toNat_dword :
    (high.toUInt32 <<< 16 ||| low.toUInt32).toNat = high.toNat * 0x10000 + low.toNat := by
  have hhigh : high.toNat < 65536 := high.toNat_lt
  have hor : high.toNat <<< 16 + low.toNat = high.toNat <<< 16 ||| low.toNat :=
    Nat.shiftLeft_add_eq_or_of_lt low.toNat_lt high.toNat
  have hshift : high.toNat <<< 16 = high.toNat * 65536 := Nat.shiftLeft_eq _ _
  rw [UInt32.toNat_or, UInt32.toNat_shiftLeft, UInt16.toNat_toUInt32, UInt16.toNat_toUInt32]
  show high.toNat <<< 16 % 4294967296 ||| low.toNat = _
  rw [Nat.mod_eq_of_lt (show high.toNat <<< 16 < 4294967296 by omega), ← hor, hshift]

theorem dword_shiftRight_toUInt16 :
    ((high.toUInt32 <<< 16 ||| low.toUInt32) >>> 16).toUInt16 = high := by
  have hhigh : high.toNat < 65536 := high.toNat_lt
  have hlow : low.toNat < 65536 := low.toNat_lt
  rw [← UInt16.toNat_inj, UInt32.toNat_toUInt16, UInt32.toNat_shiftRight, toNat_dword,
    Nat.shiftRight_eq_div_pow]
  show (high.toNat * 65536 + low.toNat) / 65536 % 65536 = high.toNat
  omega

theorem dword_toUInt16 : (high.toUInt32 <<< 16 ||| low.toUInt32).toUInt16 = low := by
  have hlow : low.toNat < 65536 := low.toNat_lt
  rw [← UInt16.toNat_inj, UInt32.toNat_toUInt16, toNat_dword]
  omega

theorem dword_toUInt8 : (high.toUInt32 <<< 16 ||| low.toUInt32).toUInt8 = low.toUInt8 := by
  have hlow : low.toNat < 65536 := low.toNat_lt
  rw [← UInt8.toNat_inj, UInt32.toNat_toUInt8, toNat_dword, UInt16.toNat_toUInt8]
  omega

theorem dword_and_toUInt16 : ((high.toUInt32 <<< 16 ||| low.toUInt32) &&& 0xFFFF).toUInt16 = low := by
  have hlow : low.toNat < 65536 := low.toNat_lt
  have hmod : (high.toNat * 0x10000 + low.toNat) &&& 65535 = (high.toNat * 0x10000 + low.toNat) % 65536 :=
    Nat.and_two_pow_sub_one_eq_mod _ 16
  rw [← UInt16.toNat_inj, UInt32.toNat_toUInt16, UInt32.toNat_and, toNat_dword]
  show ((high.toNat * 0x10000 + low.toNat) &&& 65535) % 65536 = low.toNat
  omega

end DoubleWords

end Library.Registers
