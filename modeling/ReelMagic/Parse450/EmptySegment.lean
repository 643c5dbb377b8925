import ReelMagic.Parse450.Acceptance

namespace ReelMagic.Parse450

open Library Library.Stdio

-- The header of a segment that says it holds no data.
def emptySegHeader (address : UInt32) : Exe450CodeSegmentHeader := ⟨0, address⟩

-- The file with such a header between its segment blocks, `position` blocks in, and
-- counted in the file header.
def Firmware.insertEmpty (firmware : Firmware) (position : Nat) (address : UInt32) : List UInt8 :=
  Exe450FileHeader.toBytes
      { firmware.header with numSegments := firmware.header.numSegments + 1 } ++
    segmentFrames.encodeAll (firmware.segments.take position) ++ (emptySegHeader address).toBytes ++
      segmentFrames.encodeAll (firmware.segments.drop position)

-- The file so made is accepted as well, and leaves the same images.
def EmptyNeutral (firmware : Firmware) (position : Nat) (address : UInt32) : Prop :=
  (load (firmware.insertEmpty position address)).2 = none ∧
    (load (firmware.insertEmpty position address)).1.dram.slice 0 DRAM_BYTE_SIZE =
      (load firmware.toBytes).1.dram.slice 0 DRAM_BYTE_SIZE ∧
    (load (firmware.insertEmpty position address)).1.imem.slice 0 IMEM_BYTE_SIZE =
      (load firmware.toBytes).1.imem.slice 0 IMEM_BYTE_SIZE

theorem segmentLoop_encodeAll (fileHeader : Exe450FileHeader) (segments : List CodeSegment)
    (count : Nat) (rest : List UInt8) (s : LoadState)
    (h : s.fh = segmentFrames.encodeAll segments ++ rest) :
    segmentLoop fileHeader (segments.length + count) s =
      segmentLoop fileHeader count (s.loadedAll fileHeader segments rest) := by
  induction segments generalizing s with
  | nil =>
      obtain ⟨fh, dram, imem, done⟩ := s
      have hfh : fh = rest := h
      simp [LoadState.loadedAll, hfh]
  | cons segment segments ih =>
      have hn : segmentFrames.next s.fh =
          some (segment, segmentFrames.encodeAll segments ++ rest) := by
        rw [h, Frames.encodeAll_cons, List.append_assoc, Frames.next_encode]
      have hs := segmentStep_of_next fileHeader s segment _ hn
      rw [List.length_cons, Nat.add_right_comm, segmentLoop, hs]
      simp only
      rw [ih _ rfl, LoadState.loaded_loadedAll]

-- The header passes both checks on its length. It is the read of one item of no bytes
-- that counts no item.
theorem segmentStep_emptySegHeader (fileHeader : Exe450FileHeader) (address : UInt32)
    (rest : List UInt8) (s : LoadState) (h : s.fh = (emptySegHeader address).toBytes ++ rest) :
    segmentStep fileHeader s = .error .segmentData := by
  have hraw : fread SEG_HEADER_SIZE s.fh = (some (emptySegHeader address).toBytes, rest) := by
    rw [fread_eq_some_iff, h]
    simp [SEG_HEADER_SIZE]
  have hmod : (emptySegHeader address).segLength &&& 0x3 = 0 :=
    (segLength_and_eq_zero_iff _).mpr rfl
  have hsize : ¬(emptySegHeader address).segLength.toNat > SEG_BUF_SIZE := Nat.not_lt_zero _
  have hdata : fread (emptySegHeader address).segLength.toNat rest = (none, rest) := rfl
  simp only [segmentStep, hraw, Exe450CodeSegmentHeader.ofBytes_toBytes, hmod, ne_eq,
    not_true_eq_false, if_false, hsize, hdata]

theorem load_insertEmpty (firmware : Firmware) (position : Nat) (address : UInt32)
    (hcount : firmware.header.numSegments.toNat < 65535)
    (hposition : position ≤ firmware.segments.length) :
    (load (firmware.insertEmpty position address)).2 = some .segmentData := by
  have hnum : (firmware.header.numSegments + 1).toNat =
      (firmware.segments.take position).length + (firmware.segments.length - position + 1) := by
    rw [UInt16.toNat_add, firmware.count, List.length_take, Nat.min_eq_left hposition]
    rw [firmware.count] at hcount
    have hone : (1 : UInt16).toNat = 1 := rfl
    omega
  rw [Firmware.insertEmpty, List.append_assoc, List.append_assoc, load_of_header]
  · simp only
    rw [hnum, segmentLoop_encodeAll _ _ _ _ _ rfl, segmentLoop,
      segmentStep_emptySegHeader _ address _ _ rfl]
    rfl
  · exact firmware.magic

-- An accepted file is a firmware file, and there is no place in it where an empty segment is
-- neutral: with its header put between any two blocks, the file is refused for want of data.
theorem empty_segment_refused {input : List UInt8} (haccepted : (load input).2 = none) :
    (∃ firmware : Firmware, input = firmware.toBytes) ∧
    ∀ (firmware : Firmware) (position : Nat) (address : UInt32), input = firmware.toBytes →
      firmware.header.numSegments.toNat < 65535 → position ≤ firmware.segments.length →
        address.toNat ≤ DRAM_BYTE_SIZE →
          (load (firmware.insertEmpty position address)).2 = some .segmentData ∧
          ¬EmptyNeutral firmware position address := by
  refine ⟨exists_firmware_of_load_ok input haccepted, ?_⟩
  intro firmware position address _ hcount hposition _
  have hrefused := load_insertEmpty firmware position address hcount hposition
  refine ⟨hrefused, ?_⟩
  rintro ⟨hok, _⟩
  rw [hrefused] at hok
  exact absurd hok (by simp)

-- A file of one segment, a single instruction at 0.
def oneSegmentFirmware : Firmware where
  header := ⟨0xC3C3, 0, 0, 0, 0, 0, 0, 0, 1, 0, 0, .replicate 80 0⟩
  segments := [⟨⟨⟨4, 0⟩, [0x10, 0x11, 0x12, 0x13]⟩, by decide⟩]
  magic := rfl
  count := rfl

theorem empty_segment_refused_after_one :
    (load (oneSegmentFirmware.insertEmpty 1 0)).2 = some .segmentData ∧
      ¬EmptyNeutral oneSegmentFirmware 1 0 :=
  (empty_segment_refused (load_toBytes_ok oneSegmentFirmware)).2 oneSegmentFirmware 1 0 rfl
    (by decide) (by decide) (by decide)

theorem empty_segment_not_neutral :
    ¬∀ (firmware : Firmware) (position : Nat) (address : UInt32),
      firmware.header.numSegments.toNat < 65535 → position ≤ firmware.segments.length →
        address.toNat ≤ DRAM_BYTE_SIZE → EmptyNeutral firmware position address := by
  intro h
  have hneutral := h oneSegmentFirmware 1 0 (by decide) (by decide) (by decide)
  exact absurd hneutral.1 (by decide +kernel)

end ReelMagic.Parse450
