import Mathlib.Data.List.Nodup
import ReelMagic.Parse450.Output
import ReelMagic.Parse450.Window

namespace ReelMagic.Parse450

open Library Library.Bytes

-- An instruction with the address of its first byte.
structure Placed where
  address : Nat
  instruction : Exe450CodeSegmentInstruction
deriving DecidableEq

-- What a segment asks for: each of its instructions, at its own address.
def Segment.placed (segment : Segment) : List Placed :=
  (List.range (instructionCount segment.header)).map fun index =>
    ⟨segment.header.instructionAddress index, .ofSegBuf segment.data index⟩

-- What a whole file asks for, however its instructions are grouped into segments.
def placedBy (input : List UInt8) : List Placed :=
  (load input).1.segments.flatMap Segment.placed

-- The four bytes a placed instruction puts into the DRAM buffer, and into the IMEM buffer.
def Placed.dramStores (placed : Placed) : List (Nat × UInt8) :=
  [(placed.address % 2 ^ 32, UInt8.ofNat (placed.instruction.instructionWord1.toNat / 256)),
    ((placed.address + 1) % 2 ^ 32, placed.instruction.instructionWord1.toUInt8),
    ((placed.address + 2) % 2 ^ 32,
      UInt8.ofNat (placed.instruction.instructionWord0.toNat / 256)),
    ((placed.address + 3) % 2 ^ 32, placed.instruction.instructionWord0.toUInt8)]

-- Where the IMEM buffer starts decides which addresses go into it.
def Placed.InWindow (start : Nat) (placed : Placed) : Prop :=
  start ≤ placed.address ∧ placed.address < start + IMEM_BYTE_SIZE

instance (start : Nat) (placed : Placed) : Decidable (placed.InWindow start) :=
  inferInstanceAs (Decidable (_ ∧ _))

def Placed.imemStores (start : Nat) (placed : Placed) : List (Nat × UInt8) :=
  if placed.InWindow start then
    [(placed.address - start, placed.instruction.instructionWord1.toUInt8),
      (placed.address - start + 1,
        UInt8.ofNat (placed.instruction.instructionWord1.toNat / 256)),
      (placed.address - start + 2, placed.instruction.instructionWord0.toUInt8),
      (placed.address - start + 3,
        UInt8.ofNat (placed.instruction.instructionWord0.toNat / 256))]
  else []

-- No two of the instructions have a byte of the DRAM image in common.
def Apart (instructions : List Placed) : Prop :=
  ((instructions.flatMap Placed.dramStores).map Prod.fst).Nodup

instance (instructions : List Placed) : Decidable (Apart instructions) :=
  inferInstanceAs (Decidable (List.Nodup _))

theorem writeInstructionToDram_eq_storeAll (out : Buffer UInt8)
    (segHeader : Exe450CodeSegmentHeader) (index : Nat)
    (instruction : Exe450CodeSegmentInstruction) :
    writeInstructionToDram out segHeader (UInt32.ofNat index <<< 2) instruction =
      out.storeAll (Placed.mk (segHeader.instructionAddress index) instruction).dramStores := by
  rw [writeInstructionToDram_eq]
  simp only [Placed.dramStores, Exe450CodeSegmentHeader.instructionAddress, Nat.mod_add_mod,
    Nat.mod_mod]
  rfl

theorem writeInstructionToImem_eq_storeAll (out : Buffer UInt8) (fileHeader : Exe450FileHeader)
    (segHeader : Exe450CodeSegmentHeader) (index : Nat)
    (instruction : Exe450CodeSegmentInstruction) :
    writeInstructionToImem out fileHeader segHeader (UInt32.ofNat index <<< 2) instruction =
      out.storeAll ((Placed.mk (segHeader.instructionAddress index) instruction).imemStores
        fileHeader.imemDram.toNat) := by
  rw [writeInstructionToImem_eq, Placed.imemStores]
  by_cases h : fileHeader.imemDram.toNat ≤ segHeader.instructionAddress index ∧
      segHeader.instructionAddress index < fileHeader.imemDram.toNat + IMEM_BYTE_SIZE
  · rw [if_pos h, if_pos]
    · rfl
    · exact h
  · rw [if_neg h, if_neg]
    · rfl
    · exact h

theorem instructionLoop_eq_storeAll (fileHeader : Exe450FileHeader)
    (segHeader : Exe450CodeSegmentHeader) (segBuf : List UInt8) (dram imem : Buffer UInt8)
    (count : Nat) :
    instructionLoop fileHeader segHeader segBuf dram imem count =
      (dram.storeAll (((List.range count).map fun index => Placed.mk
          (segHeader.instructionAddress index) (.ofSegBuf segBuf index)).flatMap
            Placed.dramStores),
        imem.storeAll (((List.range count).map fun index => Placed.mk
          (segHeader.instructionAddress index) (.ofSegBuf segBuf index)).flatMap
            (Placed.imemStores fileHeader.imemDram.toNat))) := by
  induction count with
  | zero => rfl
  | succ count ih =>
      simp only [instructionLoop, ih, List.range_succ, List.map_append, List.map_singleton,
        List.flatMap_append, List.flatMap_singleton, Buffer.storeAll_append,
        writeInstructionToDram_eq_storeAll, writeInstructionToImem_eq_storeAll]

theorem writeSegment_eq_storeAll (fileHeader : Exe450FileHeader) (segment : Segment)
    (images : Buffer UInt8 × Buffer UInt8) :
    writeSegment fileHeader segment images =
      (images.1.storeAll (segment.placed.flatMap Placed.dramStores),
        images.2.storeAll
          (segment.placed.flatMap (Placed.imemStores fileHeader.imemDram.toNat))) :=
  instructionLoop_eq_storeAll _ _ _ _ _ _

theorem foldl_writeSegment (fileHeader : Exe450FileHeader) (segments : List Segment)
    (images : Buffer UInt8 × Buffer UInt8) :
    segments.foldl (fun images segment => writeSegment fileHeader segment images) images =
      (images.1.storeAll ((segments.flatMap Segment.placed).flatMap Placed.dramStores),
        images.2.storeAll ((segments.flatMap Segment.placed).flatMap
          (Placed.imemStores fileHeader.imemDram.toNat))) := by
  induction segments generalizing images with
  | nil => rfl
  | cons segment segments ih =>
      rw [List.foldl_cons, ih, writeSegment_eq_storeAll]
      simp only [List.flatMap_cons, List.flatMap_append, Buffer.storeAll_append]

-- The two images of an accepted file by the instructions it places.
theorem load_images {input : List UInt8} (haccepted : (load input).2 = none) :
    (load input).1.dram = (Buffer.filled 0).storeAll
        ((placedBy input).flatMap Placed.dramStores) ∧
      (load input).1.imem = (Buffer.filled 0).storeAll ((placedBy input).flatMap
        (Placed.imemStores (headerOf input).imemDram.toNat)) := by
  obtain ⟨firmware, fh, rest, rfl, hs⟩ := load_ok_state input haccepted
  have hsegments : (load firmware.toBytes).1.segments = firmware.segments.map Subtype.val := by
    rw [hs]
    rfl
  have himages : ((load firmware.toBytes).1.dram, (load firmware.toBytes).1.imem) =
      (firmware.segments.map Subtype.val).foldl
        (fun images segment => writeSegment firmware.header segment images)
        (.filled 0, .filled 0) := by
    rw [hs, List.foldl_map]
    rfl
  rw [foldl_writeSegment] at himages
  rw [placedBy, hsegments, headerOf_toBytes]
  exact ⟨congrArg Prod.fst himages, congrArg Prod.snd himages⟩

-- Inside the window the stores into the two images are the same ones, `start` bytes apart.
theorem imemStores_sublist {start : Nat} (hstart : start < 2 ^ 16) (instructions : List Placed) :
    ((instructions.flatMap (Placed.imemStores start)).map fun store => store.1 + start).Sublist
      ((instructions.flatMap Placed.dramStores).map Prod.fst) := by
  induction instructions with
  | nil => exact List.Sublist.refl _
  | cons placed instructions ih =>
      rw [List.flatMap_cons, List.flatMap_cons, List.map_append, List.map_append]
      apply List.Sublist.append _ ih
      rw [Placed.imemStores]
      split
      · rename_i hwindow
        obtain ⟨hlo, hhi⟩ := hwindow
        rw [IMEM_BYTE_SIZE, IMEM_SIZE] at hhi
        have hsame : ∀ k < 4, placed.address - start + k + start =
            (placed.address + k) % 2 ^ 32 := by
          intro k hk
          omega
        have h0 := hsame 0 (by omega)
        have h1 := hsame 1 (by omega)
        have h2 := hsame 2 (by omega)
        have h3 := hsame 3 (by omega)
        rw [Nat.add_zero, Nat.add_zero] at h0
        simp only [Placed.dramStores, List.map_cons, List.map_nil, h0, h1, h2, h3]
        exact List.Sublist.refl _
      · exact List.nil_sublist _

theorem imemStores_nodup {start : Nat} (hstart : start < 2 ^ 16) {instructions : List Placed}
    (hapart : Apart instructions) :
    ((instructions.flatMap (Placed.imemStores start)).map Prod.fst).Nodup := by
  have h := hapart.sublist (imemStores_sublist hstart instructions)
  rw [← Function.comp_def (fun index => index + start) Prod.fst, ← List.map_map] at h
  exact List.Nodup.of_map _ h

-- Two instructions in one segment, and the same two in two segments, the later one first.
def joinedFile : List UInt8 :=
  [0xC3, 0xC3] ++ List.replicate 12 0 ++ [1, 0] ++ List.replicate 84 0 ++
    [8, 0, 0, 0, 2, 0, 0, 0] ++ [0x10, 0x11, 0x12, 0x13, 0x14, 0x15, 0x16, 0x17]

def splitFile : List UInt8 :=
  [0xC3, 0xC3] ++ List.replicate 12 0 ++ [2, 0] ++ List.replicate 84 0 ++
    [4, 0, 0, 0, 6, 0, 0, 0] ++ [0x14, 0x15, 0x16, 0x17] ++
    [4, 0, 0, 0, 2, 0, 0, 0] ++ [0x10, 0x11, 0x12, 0x13]

end ReelMagic.Parse450
