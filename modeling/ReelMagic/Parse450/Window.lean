import ReelMagic.Parse450.Overlay

namespace ReelMagic.Parse450

open Library Library.Bytes Library.Overlay

-- Slot `k` of the IMEM image, in the half-words of the host.
def imemSlot (imem : Buffer UInt8) (k : Nat) : Exe450CodeSegmentInstruction where
  instructionWord1 := word16 (imem.contents (4 * k)) (imem.contents (4 * k + 1))
  instructionWord0 := word16 (imem.contents (4 * k + 2)) (imem.contents (4 * k + 3))

-- The instruction at an address of the DRAM image, in big-endian half-words.
def dramSlot (dram : Buffer UInt8) (a : Nat) : Exe450CodeSegmentInstruction where
  instructionWord1 := word16 (dram.contents (a + 1)) (dram.contents a)
  instructionWord0 := word16 (dram.contents (a + 3)) (dram.contents (a + 2))

-- The header `main` reads off an input it accepts.
def headerOf (input : List UInt8) : Exe450FileHeader :=
  .ofBytes (input.take FILE_HEADER_SIZE)

theorem headerOf_toBytes (firmware : Firmware) : headerOf firmware.toBytes = firmware.header := by
  have ht : firmware.toBytes.take FILE_HEADER_SIZE = firmware.header.toBytes := by
    rw [Firmware.toBytes, List.take_append_of_le_length (by simp), List.take_of_length_le (by simp)]
  rw [headerOf, ht, Exe450FileHeader.ofBytes_toBytes]

theorem imemSlot_congr (imem other : Buffer UInt8) (k : Nat)
    (h : ∀ i < 4, imem.contents (4 * k + i) = other.contents (4 * k + i)) :
    imemSlot imem k = imemSlot other k := by
  have h0 := h 0 (by omega)
  rw [Nat.add_zero] at h0
  simp only [imemSlot, h0, h 1 (by omega), h 2 (by omega), h 3 (by omega)]

theorem dramSlot_congr (dram other : Buffer UInt8) (a : Nat)
    (h : ∀ i < 4, dram.contents (a + i) = other.contents (a + i)) :
    dramSlot dram a = dramSlot other a := by
  have h0 := h 0 (by omega)
  rw [Nat.add_zero] at h0
  simp only [dramSlot, h0, h 1 (by omega), h 2 (by omega), h 3 (by omega)]

theorem imemSlot_memcpy (out : Buffer UInt8) (k : Nat) (instruction : Exe450CodeSegmentInstruction) :
    imemSlot (out.memcpy (4 * k) instruction.toBytes) k = instruction := by
  have h : ∀ i (hi : i < 4), (out.memcpy (4 * k) instruction.toBytes).contents (4 * k + i) =
      instruction.toBytes[i] := fun i hi => Buffer.memcpy_contents_inside _ _ _ _ hi
  have h0 := h 0 (by omega)
  rw [Nat.add_zero] at h0
  simp only [imemSlot, h0, h 1 (by omega), h 2 (by omega), h 3 (by omega)]
  simp [Exe450CodeSegmentInstruction.toBytes, bytes16]

theorem dramSlot_memcpy (out : Buffer UInt8) (a : Nat) (instruction : Exe450CodeSegmentInstruction) :
    dramSlot (out.memcpy a
      [UInt8.ofNat (instruction.instructionWord1.toNat / 256), instruction.instructionWord1.toUInt8,
        UInt8.ofNat (instruction.instructionWord0.toNat / 256),
        instruction.instructionWord0.toUInt8]) a = instruction := by
  have h := fun i hi => Buffer.memcpy_contents_inside out a
    [UInt8.ofNat (instruction.instructionWord1.toNat / 256), instruction.instructionWord1.toUInt8,
      UInt8.ofNat (instruction.instructionWord0.toNat / 256), instruction.instructionWord0.toUInt8] i hi
  have h0 := h 0 (by simp)
  rw [Nat.add_zero] at h0
  simp only [dramSlot, h0, h 1 (by simp), h 2 (by simp), h 3 (by simp)]
  simp

-- Both images see an aligned instruction the same way: it fills one slot and leaves
-- the others alone.
theorem imemSlot_write (out : Buffer UInt8) (fileHeader : Exe450FileHeader)
    (segHeader : Exe450CodeSegmentHeader) (index k : Nat) (instruction : Exe450CodeSegmentInstruction)
    (hw : segHeader.segAddress.toNat + 4 * index < 2 ^ 32)
    (ha : segHeader.segAddress.toNat % 4 = fileHeader.imemDram.toNat % 4) (hk : k < IMEM_SIZE) :
    imemSlot (writeInstructionToImem out fileHeader segHeader (UInt32.ofNat index <<< 2) instruction) k =
      if segHeader.segAddress.toNat + 4 * index = fileHeader.imemDram.toNat + 4 * k
      then instruction else imemSlot out k := by
  have hsize : IMEM_BYTE_SIZE = 4 * IMEM_SIZE := rfl
  rw [writeInstructionToImem_eq, Exe450CodeSegmentHeader.instructionAddress, Nat.mod_eq_of_lt hw]
  generalize segHeader.segAddress.toNat = address at *
  generalize fileHeader.imemDram.toNat = start at *
  by_cases hhit : address + 4 * index = start + 4 * k
  · have hs : address + 4 * index - start = 4 * k := by omega
    rw [if_pos ⟨by omega, by omega⟩, if_pos hhit, hs, imemSlot_memcpy]
  · rw [if_neg hhit]
    split
    · apply imemSlot_congr
      intro i hi
      apply Buffer.memcpy_contents_outside
      simp only [Exe450CodeSegmentInstruction.toBytes, List.length_append, bytes16_length]
      omega
    · rfl

theorem dramSlot_write (out : Buffer UInt8) (segHeader : Exe450CodeSegmentHeader)
    (start index k : Nat) (instruction : Exe450CodeSegmentInstruction)
    (hw : segHeader.segAddress.toNat + 4 * index + 4 ≤ 2 ^ 32)
    (ha : segHeader.segAddress.toNat % 4 = start % 4) :
    dramSlot (writeInstructionToDram out segHeader (UInt32.ofNat index <<< 2) instruction)
        (start + 4 * k) =
      if segHeader.segAddress.toNat + 4 * index = start + 4 * k
      then instruction else dramSlot out (start + 4 * k) := by
  rw [writeInstructionToDram_eq_memcpy _ _ _ _ hw]
  generalize segHeader.segAddress.toNat = address at *
  by_cases hhit : address + 4 * index = start + 4 * k
  · rw [if_pos hhit, hhit, dramSlot_memcpy]
  · rw [if_neg hhit]
    apply dramSlot_congr
    intro i hi
    apply Buffer.memcpy_contents_outside
    simp only [List.length_cons, List.length_nil]
    omega

theorem instructionLoop_slots (fileHeader : Exe450FileHeader) (segHeader : Exe450CodeSegmentHeader)
    (segBuf : List UInt8) (dram imem : Buffer UInt8) (count k : Nat)
    (hw : segHeader.segAddress.toNat + 4 * count < 2 ^ 32)
    (ha : segHeader.segAddress.toNat % 4 = fileHeader.imemDram.toNat % 4) (hk : k < IMEM_SIZE)
    (h : imemSlot imem k = dramSlot dram (fileHeader.imemDram.toNat + 4 * k)) :
    imemSlot (instructionLoop fileHeader segHeader segBuf dram imem count).2 k =
      dramSlot (instructionLoop fileHeader segHeader segBuf dram imem count).1
        (fileHeader.imemDram.toNat + 4 * k) := by
  induction count with
  | zero => exact h
  | succ count ih =>
      rw [instructionLoop, imemSlot_write _ _ _ _ _ _ (by omega) ha hk,
        dramSlot_write _ _ _ _ _ _ (by omega) ha, ih (by omega)]

theorem loadedAll_slots (fileHeader : Exe450FileHeader) (segments : List CodeSegment)
    (fh rest : List UInt8) (k : Nat) (hw : ∀ segment ∈ segments, segment.val.End < 2 ^ 32)
    (ha : ∀ segment ∈ segments,
      segment.val.header.segAddress.toNat % 4 = fileHeader.imemDram.toNat % 4) (hk : k < IMEM_SIZE) :
    imemSlot ((LoadState.start fh).loadedAll fileHeader segments rest).imem k =
      dramSlot ((LoadState.start fh).loadedAll fileHeader segments rest).dram
        (fileHeader.imemDram.toNat + 4 * k) := by
  simp only [LoadState.loadedAll, LoadState.start]
  induction segments using List.reverseRecOn with
  | nil => rfl
  | append_singleton segments segment ih =>
      have hc := instructionCount_of_wellFormed segment
      have hs := hw segment (by simp)
      rw [Segment.End] at hs
      rw [List.foldl_append]
      apply instructionLoop_slots _ _ _ _ _ _ _ (by omega) (ha segment (by simp)) hk
      exact ih (fun other ho => hw other (by simp [ho])) (fun other ho => ha other (by simp [ho]))

theorem dramSlot_of_uncovered (dram : Buffer UInt8) (a : Nat)
    (h : ∀ i < 4, dram.contents (a + i) = 0) : dramSlot dram a = ⟨0, 0⟩ :=
  dramSlot_congr dram (.filled 0) a h

-- In the IMEM window the two images of an accepted file agree, instruction by
-- instruction, when its segments are aligned with the window and end below 2 ^ 32.
theorem imem_agrees_with_dram (input : List UInt8) (haccept : (load input).2 = none)
    (hw : ∀ segment ∈ (load input).1.segments, segment.End < 2 ^ 32)
    (ha : ∀ segment ∈ (load input).1.segments,
      segment.header.segAddress.toNat % 4 = (headerOf input).imemDram.toNat % 4)
    (k : Nat) (hk : k < IMEM_SIZE) :
    imemSlot (load input).1.imem k =
      dramSlot (load input).1.dram ((headerOf input).imemDram.toNat + 4 * k) ∧
    ((∀ segment ∈ (load input).1.segments, ∀ i < 4,
        ¬segment.Covers ((headerOf input).imemDram.toNat + 4 * k + i)) →
      imemSlot (load input).1.imem k = ⟨0, 0⟩ ∧
        dramSlot (load input).1.dram ((headerOf input).imemDram.toNat + 4 * k) = ⟨0, 0⟩) := by
  obtain ⟨firmware, fh, rest, rfl, hs⟩ := load_ok_state input haccept
  have hsegments : (load firmware.toBytes).1.segments = firmware.segments.map Subtype.val := by
    rw [hs]
    rfl
  rw [hsegments] at hw ha ⊢
  rw [headerOf_toBytes] at ha ⊢
  rw [hs]
  have hw' : ∀ segment ∈ firmware.segments, segment.val.End < 2 ^ 32 :=
    fun segment hm => hw _ (List.mem_map_of_mem hm)
  have hagree := loadedAll_slots firmware.header firmware.segments fh rest k hw'
    (fun segment hm => ha _ (List.mem_map_of_mem hm)) hk
  refine ⟨hagree, fun hcovers => ?_⟩
  rw [hagree, and_self]
  apply dramSlot_of_uncovered
  intro i hi
  rw [loadedAll_dram_contents _ _ _ _ hw']
  apply overlay_of_uncovered
  intro _ hlayer
  obtain ⟨segment, hm, rfl⟩ := List.mem_map.mp hlayer
  exact if_neg (hcovers segment hm i hi)

-- Eight bytes across the start of a window at 0x100.
def windowFile : List UInt8 :=
  [0xC3, 0xC3] ++ List.replicate 6 0 ++ [0, 1] ++ List.replicate 4 0 ++ [1, 0] ++
    List.replicate 84 0 ++ [8, 0, 0, 0, 0xFC, 0, 0, 0] ++
    [0x10, 0x11, 0x12, 0x13, 0x14, 0x15, 0x16, 0x17]

theorem imem_agrees_with_dram_window :
    imemSlot (load windowFile).1.imem 0 =
      dramSlot (load windowFile).1.dram ((headerOf windowFile).imemDram.toNat + 4 * 0) :=
  (imem_agrees_with_dram windowFile (by decide +kernel) (by decide +kernel) (by decide +kernel) 0 (by decide +kernel)).1

end ReelMagic.Parse450
