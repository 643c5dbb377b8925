import Mathlib.Tactic.IntervalCases
import ReelMagic.Parse450.Format

namespace ReelMagic.Parse450

open Library Library.Bytes

theorem segByteOffset_toNat (index : Nat) :
    (UInt32.ofNat index <<< 2).toNat = 4 * index % 2 ^ 32 := by
  rw [UInt32.toNat_shiftLeft, UInt32.toNat_ofNat', Nat.shiftLeft_eq]
  simp only [UInt32.reduceToNat, Nat.reduceMod]
  omega

-- Where the `index`-th instruction of a segment goes, in 32-bit arithmetic.
def Exe450CodeSegmentHeader.instructionAddress (segHeader : Exe450CodeSegmentHeader) (index : Nat) : Nat :=
  (segHeader.segAddress.toNat + 4 * index) % 2 ^ 32

theorem writeInstructionToDram_eq (out : Buffer UInt8) (segHeader : Exe450CodeSegmentHeader)
    (index : Nat) (instruction : Exe450CodeSegmentInstruction) :
    writeInstructionToDram out segHeader (UInt32.ofNat index <<< 2) instruction =
      (((out.store ((segHeader.segAddress.toNat + 4 * index) % 2 ^ 32)
        (UInt8.ofNat (instruction.instructionWord1.toNat / 256))).store
        ((segHeader.segAddress.toNat + 4 * index + 1) % 2 ^ 32) instruction.instructionWord1.toUInt8).store
        ((segHeader.segAddress.toNat + 4 * index + 2) % 2 ^ 32)
        (UInt8.ofNat (instruction.instructionWord0.toNat / 256))).store
        ((segHeader.segAddress.toNat + 4 * index + 3) % 2 ^ 32) instruction.instructionWord0.toUInt8 := by
  have hi : ∀ k : UInt32, (segHeader.segAddress + UInt32.ofNat index <<< 2 + k).toNat =
      (segHeader.segAddress.toNat + 4 * index + k.toNat) % 2 ^ 32 := by
    intro k
    simp only [UInt32.toNat_add, segByteOffset_toNat]
    omega
  have hhi : ∀ w : UInt16, (w >>> 8).toUInt8 = UInt8.ofNat (w.toNat / 256) := by
    intro w
    apply UInt8.toNat_inj.mp
    simp [UInt16.toNat_shiftRight, Nat.shiftRight_eq_div_pow]
  have hlo : ∀ w : UInt16, (w &&& 0xFF).toUInt8 = w.toUInt8 := by
    intro w
    apply UInt8.toNat_inj.mp
    have h : (w &&& 0xFF).toNat = w.toNat % 2 ^ 8 := by
      rw [UInt16.toNat_and]
      exact Nat.and_two_pow_sub_one_eq_mod w.toNat 8
    rw [UInt16.toNat_toUInt8, h, UInt16.toNat_toUInt8, Nat.mod_mod]
  simp only [writeInstructionToDram, hi, hhi, hlo, UInt32.reduceToNat, Nat.add_zero]

-- Below the wrap-around the four stores copy the instruction, most significant byte first.
theorem writeInstructionToDram_eq_memcpy (out : Buffer UInt8) (segHeader : Exe450CodeSegmentHeader)
    (index : Nat) (instruction : Exe450CodeSegmentInstruction)
    (hw : segHeader.segAddress.toNat + 4 * index + 4 ≤ 2 ^ 32) :
    writeInstructionToDram out segHeader (UInt32.ofNat index <<< 2) instruction =
      out.memcpy (segHeader.segAddress.toNat + 4 * index)
        [UInt8.ofNat (instruction.instructionWord1.toNat / 256), instruction.instructionWord1.toUInt8,
          UInt8.ofNat (instruction.instructionWord0.toNat / 256), instruction.instructionWord0.toUInt8] := by
  have hm : ∀ k < 4, (segHeader.segAddress.toNat + 4 * index + k) % 2 ^ 32 =
      segHeader.segAddress.toNat + 4 * index + k := fun k hk => Nat.mod_eq_of_lt (by omega)
  have hm0 := hm 0 (by omega)
  rw [Nat.add_zero] at hm0
  rw [writeInstructionToDram_eq, hm0, hm 1 (by omega), hm 2 (by omega), hm 3 (by omega)]
  rfl

theorem writeInstructionToImem_eq (out : Buffer UInt8) (fileHeader : Exe450FileHeader)
    (segHeader : Exe450CodeSegmentHeader) (index : Nat) (instruction : Exe450CodeSegmentInstruction) :
    writeInstructionToImem out fileHeader segHeader (UInt32.ofNat index <<< 2) instruction =
      if fileHeader.imemDram.toNat ≤ segHeader.instructionAddress index ∧
          segHeader.instructionAddress index < fileHeader.imemDram.toNat + IMEM_BYTE_SIZE then
        out.memcpy (segHeader.instructionAddress index - fileHeader.imemDram.toNat) instruction.toBytes
      else out := by
  have hr : (segHeader.segAddress + UInt32.ofNat index <<< 2).toNat =
      segHeader.instructionAddress index := by
    simp only [UInt32.toNat_add, segByteOffset_toNat, Exe450CodeSegmentHeader.instructionAddress]
    omega
  have hd := fileHeader.imemDram.toNat_lt
  have hmax : (fileHeader.imemDram.toUInt32 + UInt32.ofNat IMEM_BYTE_SIZE).toNat =
      fileHeader.imemDram.toNat + IMEM_BYTE_SIZE := by
    simp only [UInt32.toNat_add, UInt16.toNat_toUInt32, UInt32.toNat_ofNat', IMEM_BYTE_SIZE, IMEM_SIZE]
    omega
  unfold writeInstructionToImem
  simp only [UInt32.lt_iff_toNat_lt, ge_iff_le, UInt32.le_iff_toNat_le, hr, hmax, UInt16.toNat_toUInt32]
  by_cases hlo : segHeader.instructionAddress index < fileHeader.imemDram.toNat
  · simp [hlo, Nat.not_le.mpr hlo]
  · by_cases hhi : fileHeader.imemDram.toNat + IMEM_BYTE_SIZE ≤ segHeader.instructionAddress index
    · simp [hlo, hhi, Nat.not_lt.mpr hhi]
    · rw [if_neg hlo, if_neg hhi, if_pos ⟨by omega, by omega⟩, UInt32.toNat_sub_of_le, hr,
        UInt16.toNat_toUInt32]
      rw [UInt32.le_iff_toNat_le, hr, UInt16.toNat_toUInt32]
      omega

-- The four bytes of an instruction stay inside together or not at all, unless the
-- 32-bit index wraps around between them.
theorem writeInstructionToDram_within_iff (out : Buffer UInt8) (segHeader : Exe450CodeSegmentHeader)
    (index : Nat) (instruction : Exe450CodeSegmentInstruction) (size : Nat) :
    (writeInstructionToDram out segHeader (UInt32.ofNat index <<< 2) instruction).Within size ↔
      out.Within size ∧ ∀ k < 4, (segHeader.segAddress.toNat + 4 * index + k) % 2 ^ 32 < size := by
  simp only [writeInstructionToDram_eq, Buffer.within_store_iff]
  constructor
  · rintro ⟨⟨⟨⟨h, h0⟩, h1⟩, h2⟩, h3⟩
    refine ⟨h, fun k hk => ?_⟩
    interval_cases k
    · exact h0
    · exact h1
    · exact h2
    · exact h3
  · rintro ⟨h, hk⟩
    exact ⟨⟨⟨⟨h, hk 0 (by omega)⟩, hk 1 (by omega)⟩, hk 2 (by omega)⟩, hk 3 (by omega)⟩

theorem writeInstructionToImem_within_iff (out : Buffer UInt8) (fileHeader : Exe450FileHeader)
    (segHeader : Exe450CodeSegmentHeader) (index : Nat) (instruction : Exe450CodeSegmentInstruction)
    (size : Nat) :
    (writeInstructionToImem out fileHeader segHeader (UInt32.ofNat index <<< 2) instruction).Within
        size ↔
      out.Within size ∧ (fileHeader.imemDram.toNat ≤ segHeader.instructionAddress index →
        segHeader.instructionAddress index < fileHeader.imemDram.toNat + IMEM_BYTE_SIZE →
        segHeader.instructionAddress index - fileHeader.imemDram.toNat + 4 ≤ size) := by
  rw [writeInstructionToImem_eq]
  split
  · rename_i h
    rw [Buffer.within_memcpy_iff _ _ _ _ (by simp [Exe450CodeSegmentInstruction.toBytes, bytes16])]
    exact and_congr_right fun _ => ⟨fun hs _ _ => hs, fun hs => hs h.1 h.2⟩
  · rename_i h
    exact ⟨fun hw => ⟨hw, fun hlo hhi => absurd ⟨hlo, hhi⟩ h⟩, And.left⟩

theorem instructionLoop_dram_within_iff (fileHeader : Exe450FileHeader)
    (segHeader : Exe450CodeSegmentHeader) (segBuf : List UInt8) (dram imem : Buffer UInt8)
    (count size : Nat) :
    (instructionLoop fileHeader segHeader segBuf dram imem count).1.Within size ↔
      dram.Within size ∧
        ∀ i < count, ∀ k < 4, (segHeader.segAddress.toNat + 4 * i + k) % 2 ^ 32 < size := by
  induction count with
  | zero => simp [instructionLoop]
  | succ count ih =>
      rw [instructionLoop, writeInstructionToDram_within_iff, ih, and_assoc]
      exact and_congr_right fun _ => Nat.forall_lt_succ_right.symm

theorem instructionLoop_imem_within_iff (fileHeader : Exe450FileHeader)
    (segHeader : Exe450CodeSegmentHeader) (segBuf : List UInt8) (dram imem : Buffer UInt8)
    (count size : Nat) :
    (instructionLoop fileHeader segHeader segBuf dram imem count).2.Within size ↔
      imem.Within size ∧
        ∀ i < count, fileHeader.imemDram.toNat ≤ segHeader.instructionAddress i →
          segHeader.instructionAddress i < fileHeader.imemDram.toNat + IMEM_BYTE_SIZE →
          segHeader.instructionAddress i - fileHeader.imemDram.toNat + 4 ≤ size := by
  induction count with
  | zero => simp [instructionLoop]
  | succ count ih =>
      rw [instructionLoop, writeInstructionToImem_within_iff, ih, and_assoc]
      exact and_congr_right fun _ => Nat.forall_lt_succ_right.symm

theorem instructionCount_of_wellFormed (segment : CodeSegment) :
    4 * instructionCount segment.val.header = segment.val.header.segLength.toNat := by
  have hm := segment.property.length_mod
  unfold instructionCount
  omega

end ReelMagic.Parse450
