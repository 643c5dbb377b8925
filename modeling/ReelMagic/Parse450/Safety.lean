import ReelMagic.Parse450.Acceptance
import ReelMagic.Parse450.Images

namespace ReelMagic.Parse450

open Library

-- The input begins with a good header and with `segments`, no more than it counts.
def StartsWith (input : List UInt8) (header : Exe450FileHeader) (segments : List CodeSegment) :
    Prop :=
  header.magicNumber = 0xC3C3 ∧ segments.length ≤ header.numSegments.toNat ∧
    ∃ rest, input = header.toBytes ++ (segmentFrames.encodeAll segments ++ rest)

theorem StartsWith.header_eq {header other : Exe450FileHeader} {fh : List UInt8}
    {segments : List CodeSegment} (h : StartsWith (header.toBytes ++ fh) other segments) :
    other = header ∧ ∃ rest, fh = segmentFrames.encodeAll segments ++ rest := by
  obtain ⟨_, _, rest, hinput⟩ := h
  obtain ⟨hheader, hfh⟩ := List.append_inj hinput (by simp)
  have he : header = other := by
    rw [← Exe450FileHeader.ofBytes_toBytes header, hheader, Exe450FileHeader.ofBytes_toBytes]
  exact ⟨he.symm, rest, hfh⟩

-- The segments the loop gets through are the longest list the input starts with.
theorem forall_startsWith_iff (header : Exe450FileHeader) (hmagic : header.magicNumber = 0xC3C3)
    (fh : List UInt8) (P : Exe450FileHeader → CodeSegment → Prop) :
    (∀ other segments, StartsWith (header.toBytes ++ fh) other segments →
        ∀ segment ∈ segments, P other segment) ↔
      ∀ segment ∈ (segmentFrames.leading header.numSegments.toNat fh).1, P header segment := by
  constructor
  · intro h
    apply h header
    exact ⟨hmagic, segmentFrames.leading_length_le _ _, _,
      congrArg (header.toBytes ++ ·) (segmentFrames.leading_append _ fh)⟩
  · intro h other segments hs segment hm
    obtain ⟨rfl, rest, hfh⟩ := hs.header_eq
    have hp := segmentFrames.prefix_leading hs.2.1 hfh
    exact h segment (hp.subset hm)

-- Both buffers stay inside an array exactly when no segment leaves it, whichever
-- check the loop may stop at in the end.
theorem load_stores_iff (input : List UInt8) (buffer : Buffer UInt8 × Buffer UInt8 → Buffer UInt8)
    (size : Nat) (P : Exe450FileHeader → CodeSegment → Prop)
    (hstart : (buffer (.filled 0, .filled 0)).Within size)
    (hwrite : ∀ header segment images, (buffer (writeSegment header segment.val images)).Within size ↔
      (buffer images).Within size ∧ P header segment) :
    (buffer ((load input).1.dram, (load input).1.imem)).Within size ↔
      ∀ header segments, StartsWith input header segments →
        ∀ segment ∈ segments, P header segment := by
  by_cases hh : ∃ header fh, header.magicNumber = 0xC3C3 ∧ input = Exe450FileHeader.toBytes header ++ fh
  · obtain ⟨header, fh, hmagic, rfl⟩ := hh
    obtain ⟨rest, hs⟩ := load_state header hmagic fh
    rw [forall_startsWith_iff header hmagic, hs]
    -- the images of `loadedAll` are a fold of `writeSegment` over the leading segments
    have hf := foldl_iff (fun images => (buffer images).Within size) (P header)
      (fun images segment => writeSegment header segment.val images)
      (fun images segment => hwrite header segment images)
    exact (hf (.filled 0, .filled 0) _).trans (and_iff_right hstart)
  · push Not at hh
    obtain ⟨fh, failure, hl⟩ := load_of_no_header input fun header fh hm => hh header fh hm
    rw [hl]
    constructor
    · rintro _ header segments ⟨hmagic, _, rest, hinput⟩
      exact False.elim (hh header _ hmagic hinput)
    · exact fun _ => hstart

theorem writeSegment_dram_within_iff (header : Exe450FileHeader) (segment : CodeSegment)
    (images : Buffer UInt8 × Buffer UInt8) :
    (writeSegment header segment.val images).1.Within DRAM_BYTE_SIZE ↔
      images.1.Within DRAM_BYTE_SIZE ∧
        segment.val.header.segAddress.toNat + segment.val.header.segLength.toNat < 2 ^ 32 := by
  have hc := instructionCount_of_wellFormed segment
  obtain ⟨_, hpos, hle, _, hend⟩ := segment.property
  have ha := segment.val.header.segAddress.toNat_lt
  simp only [Segment.wrappedEnd, SEG_BUF_SIZE, DRAM_BYTE_SIZE] at hle hend ⊢
  rw [writeSegment, instructionLoop_dram_within_iff]
  apply and_congr_right
  intro _
  constructor
  · intro h
    -- a segment that reaches 2 ^ 32 starts far above the array
    have hfirst := h 0 (by omega) 0 (by omega)
    omega
  · intro h i hi k hk
    omega

-- The DRAM image is stored to in bounds exactly when no segment reaches 2 ^ 32: only
-- there does the 32-bit sum of the range check wrap around.
theorem dram_stores_within_iff (input : List UInt8) :
    (load input).1.dram.Within DRAM_BYTE_SIZE ↔
      ∀ header segments, StartsWith input header segments → ∀ segment ∈ segments,
        segment.val.header.segAddress.toNat + segment.val.header.segLength.toNat < 2 ^ 32 :=
  load_stores_iff input Prod.fst DRAM_BYTE_SIZE
    (fun _ segment =>
      segment.val.header.segAddress.toNat + segment.val.header.segLength.toNat < 2 ^ 32)
    (Buffer.within_filled _ _) writeSegment_dram_within_iff

-- One segment of four bytes at 0xFFFFFFFC: its end wraps around to 0.
def wrappingFile : List UInt8 :=
  [0xC3, 0xC3] ++ List.replicate 12 0 ++ [1, 0] ++ List.replicate 84 0 ++
    [4, 0, 0, 0, 0xFC, 0xFF, 0xFF, 0xFF] ++ [0, 0, 0, 0]

theorem dram_store_outside : ¬∀ input, (load input).1.dram.Within DRAM_BYTE_SIZE := by
  intro h
  exact absurd (h wrappingFile) (by decide)

-- The last byte of the IMEM window is in the segment, addresses being taken modulo 2 ^ 32.
def CoversLastImemByte (header : Exe450FileHeader) (segment : CodeSegment) : Prop :=
  (header.imemDram.toNat + (IMEM_BYTE_SIZE - 1) + 2 ^ 32 - segment.val.header.segAddress.toNat) %
    2 ^ 32 < segment.val.header.segLength.toNat

def AlignedWithImem (header : Exe450FileHeader) (segment : CodeSegment) : Prop :=
  segment.val.header.segAddress.toNat % 4 = header.imemDram.toNat % 4

theorem writeSegment_imem_within_iff (header : Exe450FileHeader) (segment : CodeSegment)
    (images : Buffer UInt8 × Buffer UInt8) :
    (writeSegment header segment.val images).2.Within IMEM_BYTE_SIZE ↔
      images.2.Within IMEM_BYTE_SIZE ∧
        (AlignedWithImem header segment ∨ ¬CoversLastImemByte header segment) := by
  have hc := instructionCount_of_wellFormed segment
  obtain ⟨_, hpos, hle, hm, _⟩ := segment.property
  have ha := segment.val.header.segAddress.toNat_lt
  have hd := header.imemDram.toNat_lt
  rw [writeSegment, instructionLoop_imem_within_iff]
  simp only [AlignedWithImem, CoversLastImemByte, SEG_BUF_SIZE, IMEM_BYTE_SIZE, IMEM_SIZE,
    Exe450CodeSegmentHeader.instructionAddress] at hle ⊢
  generalize segment.val.header.segAddress.toNat = address at *
  generalize segment.val.header.segLength.toNat = length at *
  generalize header.imemDram.toNat = start at *
  apply and_congr_right
  intro _
  constructor
  · intro h
    by_contra hn
    push Not at hn
    obtain ⟨hmis, hlast⟩ := hn
    -- the group that holds the last byte of the window starts less than four bytes before its end
    have hi := h ((start + (512 * 4 - 1) + 2 ^ 32 - address) % 2 ^ 32 / 4) (by omega)
    omega
  · rintro (hal | hlast) i hi hlo hhi
    · omega
    · omega

-- The IMEM image is stored to in bounds exactly when every segment off the window's
-- alignment leaves the last byte of the window alone.
theorem imem_stores_within_iff (input : List UInt8) :
    (load input).1.imem.Within IMEM_BYTE_SIZE ↔
      ∀ header segments, StartsWith input header segments → ∀ segment ∈ segments,
        AlignedWithImem header segment ∨ ¬CoversLastImemByte header segment :=
  load_stores_iff input Prod.snd IMEM_BYTE_SIZE
    (fun header segment => AlignedWithImem header segment ∨ ¬CoversLastImemByte header segment)
    (Buffer.within_filled _ _) writeSegment_imem_within_iff

-- One segment of four bytes at 2045, with the IMEM window at 0.
def straddlingFile : List UInt8 :=
  [0xC3, 0xC3] ++ List.replicate 12 0 ++ [1, 0] ++ List.replicate 84 0 ++
    [4, 0, 0, 0, 0xFD, 0x07, 0, 0] ++ [0, 0, 0, 0]

theorem imem_store_outside : ¬∀ input, (load input).1.imem.Within IMEM_BYTE_SIZE := by
  intro h
  exact absurd (h straddlingFile) (by decide)

end ReelMagic.Parse450
