import Mathlib.Data.Nat.Bitwise
import ReelMagic.Library.Overlay
import ReelMagic.Parse450.Acceptance
import ReelMagic.Parse450.Images

namespace ReelMagic.Parse450

open Library Library.Bytes Library.Overlay

-- The end of the segment, as an unbounded sum.
def Segment.End (segment : Segment) : Nat :=
  segment.header.segAddress.toNat + segment.header.segLength.toNat

def Segment.Covers (segment : Segment) (a : Nat) : Prop :=
  segment.header.segAddress.toNat ≤ a ∧ a < segment.End

instance (segment : Segment) (a : Nat) : Decidable (segment.Covers a) :=
  inferInstanceAs (Decidable (segment.header.segAddress.toNat ≤ a ∧ a < segment.End))

-- What the segment puts into the DRAM image: its bytes with each half-word turned
-- around, counted from its own start.
def Segment.dramLayer (segment : Segment) (a : Nat) : Option UInt8 :=
  if segment.Covers a then segment.data[(a - segment.header.segAddress.toNat) ^^^ 1]? else none

-- Turning the half-words around stays inside the four bytes of an instruction.
theorem group_xor_one (n : Nat) : (4 * n) ^^^ 1 = 4 * n + 1 ∧ (4 * n + 1) ^^^ 1 = 4 * n ∧
    (4 * n + 2) ^^^ 1 = 4 * n + 3 ∧ (4 * n + 3) ^^^ 1 = 4 * n + 2 :=
  ⟨Nat.xor_one_of_even ⟨2 * n, by omega⟩, Nat.xor_one_of_odd ⟨2 * n, by omega⟩,
    Nat.xor_one_of_even ⟨2 * n + 1, by omega⟩, Nat.xor_one_of_odd ⟨2 * n + 1, by omega⟩⟩

theorem xor_one_lt {n length : Nat} (h : n < length) (hm : length % 2 = 0) : n ^^^ 1 < length := by
  rcases Nat.even_or_odd n with he | ho
  · rw [Nat.xor_one_of_even he]
    obtain ⟨m, rfl⟩ := he
    omega
  · rw [Nat.xor_one_of_odd ho]
    omega

theorem bytes16_eq_iff (w : UInt16) (b0 b1 : UInt8) :
    bytes16 w = [b0, b1] ↔ w.toUInt8 = b0 ∧ UInt8.ofNat (w.toNat / 256) = b1 := by
  simp [bytes16]

-- One instruction written below the wrap-around: the high byte of each half-word,
-- which is second in the file, comes first.
theorem writeInstructionToDram_contents (out : Buffer UInt8) (segHeader : Exe450CodeSegmentHeader)
    (segBuf : List UInt8) (index a : Nat)
    (hw : segHeader.segAddress.toNat + 4 * index + 4 ≤ 2 ^ 32) :
    (writeInstructionToDram out segHeader (UInt32.ofNat index <<< 2)
        (.ofSegBuf segBuf index)).contents a =
      if segHeader.segAddress.toNat + 4 * index ≤ a ∧ a < segHeader.segAddress.toNat + 4 * index + 4
      then segBuf.getD ((a - segHeader.segAddress.toNat) ^^^ 1) 0
      else out.contents a := by
  have hw1 := (bytes16_eq_iff _ _ _).mp
    (bytes16_word16 (segBuf.getD (4 * index) 0) (segBuf.getD (4 * index + 1) 0))
  have hw0 := (bytes16_eq_iff _ _ _).mp
    (bytes16_word16 (segBuf.getD (4 * index + 2) 0) (segBuf.getD (4 * index + 3) 0))
  rw [writeInstructionToDram_eq_memcpy _ _ _ _ hw]
  simp only [Exe450CodeSegmentInstruction.ofSegBuf, hw1, hw0]
  generalize segHeader.segAddress.toNat = address at *
  by_cases ha : address + 4 * index ≤ a ∧ a < address + 4 * index + 4
  · rw [if_pos ha]
    obtain ⟨k, hk, rfl⟩ : ∃ k < 4, a = address + 4 * index + k :=
      ⟨a - (address + 4 * index), by omega, by omega⟩
    obtain ⟨hx0, hx1, hx2, hx3⟩ := group_xor_one index
    have hs : address + 4 * index + k - address = 4 * index + k := by omega
    rw [hs, Buffer.memcpy_contents_inside _ _ _ _ (by simpa using hk)]
    interval_cases k
    · simp [hx0]
    · simp [hx1]
    · simp [hx2]
    · simp [hx3]
  · rw [if_neg ha]
    apply Buffer.memcpy_contents_outside
    simp only [List.length_cons, List.length_nil]
    omega

theorem instructionLoop_dram_contents (fileHeader : Exe450FileHeader)
    (segHeader : Exe450CodeSegmentHeader) (segBuf : List UInt8) (dram imem : Buffer UInt8)
    (count a : Nat) (hw : segHeader.segAddress.toNat + 4 * count ≤ 2 ^ 32) :
    (instructionLoop fileHeader segHeader segBuf dram imem count).1.contents a =
      if segHeader.segAddress.toNat ≤ a ∧ a < segHeader.segAddress.toNat + 4 * count
      then segBuf.getD ((a - segHeader.segAddress.toNat) ^^^ 1) 0
      else dram.contents a := by
  induction count with
  | zero =>
      rw [if_neg (by omega)]
      rfl
  | succ count ih =>
      rw [instructionLoop, writeInstructionToDram_contents _ _ _ _ _ (by omega), ih (by omega)]
      split_ifs <;> first | rfl | omega

theorem dramLayer_of_covers (segment : CodeSegment) (a : Nat) (h : segment.val.Covers a) :
    ∃ byte, segment.val.data[(a - segment.val.header.segAddress.toNat) ^^^ 1]? = some byte ∧
      segment.val.dramLayer a = some byte := by
  obtain ⟨hdata, _, _, hm, _⟩ := segment.property
  have hlt : (a - segment.val.header.segAddress.toNat) ^^^ 1 < segment.val.data.length := by
    obtain ⟨hlo, hhi⟩ := h
    rw [Segment.End] at hhi
    exact xor_one_lt (by omega) (by omega)
  refine ⟨_, List.getElem?_eq_getElem hlt, ?_⟩
  rw [Segment.dramLayer, if_pos h, List.getElem?_eq_getElem hlt]

-- A segment that ends below 2 ^ 32 lays its layer over the DRAM image.
theorem writeSegment_dram_contents (fileHeader : Exe450FileHeader) (segment : CodeSegment)
    (images : Buffer UInt8 × Buffer UInt8) (a : Nat) (hw : segment.val.End < 2 ^ 32) :
    (writeSegment fileHeader segment.val images).1.contents a =
      (segment.val.dramLayer a).getD (images.1.contents a) := by
  have hc := instructionCount_of_wellFormed segment
  rw [Segment.End] at hw
  rw [writeSegment, instructionLoop_dram_contents _ _ _ _ _ _ _ (by omega), hc]
  by_cases ha : segment.val.Covers a
  · obtain ⟨byte, hbyte, hlayer⟩ := dramLayer_of_covers segment a ha
    rw [if_pos ⟨ha.1, ha.2⟩, hlayer, List.getD_eq_getElem?_getD, hbyte]
    rfl
  · have hout : ¬(segment.val.header.segAddress.toNat ≤ a ∧ a < segment.val.header.segAddress.toNat +
        segment.val.header.segLength.toNat) := ha
    rw [if_neg hout, Segment.dramLayer, if_neg ha, Option.getD_none]

-- The DRAM image of an accepted file is the overlay of its segments.
theorem loadedAll_dram_contents (fileHeader : Exe450FileHeader) (segments : List CodeSegment)
    (fh rest : List UInt8) (hw : ∀ segment ∈ segments, segment.val.End < 2 ^ 32) (a : Nat) :
    ((LoadState.start fh).loadedAll fileHeader segments rest).dram.contents a =
      overlay (fun _ => 0) ((segments.map Subtype.val).map Segment.dramLayer) a := by
  rw [List.map_map]
  exact foldl_eq_overlay
    (fun images segment => writeSegment fileHeader segment.val images)
    (fun images => images.1.contents) (fun segment => segment.val.dramLayer) (.filled 0, .filled 0)
    segments (fun segment hm images i => writeSegment_dram_contents fileHeader segment images i
      (hw segment hm)) a

-- The DRAM image of an accepted file whose segments end below 2 ^ 32 holds, at every
-- address, what the last segment over it has there, and zero where there is none.
theorem dram_eq_overlay (input : List UInt8) (haccept : (load input).2 = none)
    (hw : ∀ segment ∈ (load input).1.segments, segment.End < 2 ^ 32) :
    (∃ header : Exe450FileHeader,
      input = header.toBytes ++ (load input).1.segments.flatMap Segment.toBytes) ∧
    ∀ a < DRAM_BYTE_SIZE,
      (∀ before segment after, (load input).1.segments = before ++ segment :: after →
        segment.Covers a → (∀ later ∈ after, ¬later.Covers a) →
        segment.data[(a - segment.header.segAddress.toNat) ^^^ 1]? =
          some ((load input).1.dram.contents a)) ∧
      ((∀ segment ∈ (load input).1.segments, ¬segment.Covers a) →
        (load input).1.dram.contents a = 0) := by
  obtain ⟨firmware, fh, rest, rfl, hs⟩ := load_ok_state input haccept
  have hsegments : (load firmware.toBytes).1.segments = firmware.segments.map Subtype.val := by
    rw [hs]
    rfl
  rw [hsegments] at hw ⊢
  have hdram : ∀ a, (load firmware.toBytes).1.dram.contents a =
      overlay (fun _ => 0) ((firmware.segments.map Subtype.val).map Segment.dramLayer) a := by
    intro a
    rw [hs]
    exact loadedAll_dram_contents _ _ _ _ (fun segment hm => hw _ (List.mem_map_of_mem hm)) a
  constructor
  · refine ⟨firmware.header, ?_⟩
    rw [Firmware.toBytes, Frames.encodeAll, List.flatMap_map]
    rfl
  intro a _
  rw [hdram]
  constructor
  · intro before segment after hsplit hcovers hafter
    have hm : segment ∈ firmware.segments.map Subtype.val := by simp [hsplit]
    obtain ⟨found, _, rfl⟩ := List.mem_map.mp hm
    obtain ⟨byte, hbyte, hlayer⟩ := dramLayer_of_covers found a hcovers
    rw [hsplit, List.map_append, List.map_cons, hbyte,
      overlay_of_last _ _ _ found.val.dramLayer a byte hlayer]
    rintro _ hlater
    obtain ⟨later, hl, rfl⟩ := List.mem_map.mp hlater
    exact if_neg (hafter later hl)
  · intro h
    apply overlay_of_uncovered
    intro _ hlayer
    obtain ⟨segment, hm, rfl⟩ := List.mem_map.mp hlayer
    exact if_neg (h segment hm)

-- Eight bytes at 1, then four bytes over the middle of them at 3.
def overlappingFile : List UInt8 :=
  [0xC3, 0xC3] ++ List.replicate 12 0 ++ [2, 0] ++ List.replicate 84 0 ++
    [8, 0, 0, 0, 1, 0, 0, 0] ++ [0x10, 0x11, 0x12, 0x13, 0x14, 0x15, 0x16, 0x17] ++
    [4, 0, 0, 0, 3, 0, 0, 0] ++ [0x20, 0x21, 0x22, 0x23]

theorem dram_eq_overlay_overlapping : (load overlappingFile).1.dram.contents 4 = 0x20 :=
  (Option.some.inj (((dram_eq_overlay overlappingFile (by decide +kernel) (by decide +kernel)).2 4 (by decide +kernel)).1
    [⟨⟨8, 1⟩, [0x10, 0x11, 0x12, 0x13, 0x14, 0x15, 0x16, 0x17]⟩]
    ⟨⟨4, 3⟩, [0x20, 0x21, 0x22, 0x23]⟩ [] (by decide +kernel) (by decide +kernel) (by simp))).symm

end ReelMagic.Parse450
