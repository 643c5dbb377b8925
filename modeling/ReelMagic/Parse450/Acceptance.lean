import ReelMagic.Parse450.Theorems

namespace ReelMagic.Parse450

open Library Library.Stdio

theorem load_of_header (header : Exe450FileHeader) (hmagic : header.magicNumber = 0xC3C3)
    (fh : List UInt8) :
    load (header.toBytes ++ fh) =
      checkTrailingData (segmentLoop header header.numSegments.toNat (.start fh)) := by
  have hraw : fread FILE_HEADER_SIZE (header.toBytes ++ fh) = (some header.toBytes, fh) := by
    rw [fread_eq_some_iff]
    simp [FILE_HEADER_SIZE]
  simp only [load, hraw, Exe450FileHeader.ofBytes_toBytes, hmagic, ne_eq, not_true_eq_false, if_false]

theorem checkTrailingData_state (result : LoadState × Option Failure) :
    ∃ fh, (checkTrailingData result).1 = { result.1 with fh } := by
  obtain ⟨s, failure⟩ := result
  cases failure with
  | some failure => exact ⟨s.fh, rfl⟩
  | none =>
      simp only [checkTrailingData]
      split
      · exact ⟨s.fh, rfl⟩
      · exact ⟨_, rfl⟩

theorem checkTrailingData_ok_iff (result : LoadState × Option Failure) :
    (checkTrailingData result).2 = none ↔ result.2 = none ∧ result.1.fh = [] := by
  obtain ⟨s, failure⟩ := result
  cases failure with
  | some failure => simp [checkTrailingData]
  | none =>
      have ht := fread_one_eq_none_iff s.fh
      simp only [checkTrailingData]
      split
      · rename_i item tail hread
        rw [hread] at ht
        simpa using ht
      · rename_i tail hread
        rw [hread] at ht
        simpa using ht

-- Without a header that carries the magic number the segment loop is not entered.
theorem load_of_no_header (input : List UInt8)
    (h : ∀ (header : Exe450FileHeader) fh, header.magicNumber = 0xC3C3 → input ≠ header.toBytes ++ fh) :
    ∃ fh failure, load input = (.start fh, some failure) := by
  unfold load
  split
  · exact ⟨_, _, rfl⟩
  rename_i raw fh hraw
  obtain ⟨_, hlen, hinput⟩ := (fread_eq_some_iff _ _ _ _).mp hraw
  have hmagic : (Exe450FileHeader.ofBytes raw).magicNumber ≠ 0xC3C3 := by
    intro hm
    apply h _ fh hm
    rw [Exe450FileHeader.toBytes_ofBytes raw hlen, hinput]
  simp only [ne_eq, hmagic, not_false_eq_true, if_true]
  exact ⟨_, _, rfl⟩

-- What `load` leaves in the buffers, whether or not it fails later on.
theorem load_state (header : Exe450FileHeader) (hmagic : header.magicNumber = 0xC3C3)
    (fh : List UInt8) :
    ∃ rest, (load (header.toBytes ++ fh)).1 =
      (LoadState.start fh).loadedAll header
        (segmentFrames.leading header.numSegments.toNat fh).1 rest := by
  obtain ⟨rest, hs⟩ := checkTrailingData_state
    (segmentLoop header header.numSegments.toNat (.start fh))
  rw [load_of_header header hmagic, hs, segmentLoop_state]
  exact ⟨rest, rfl⟩

theorem load_ok_iff (header : Exe450FileHeader) (hmagic : header.magicNumber = 0xC3C3)
    (fh : List UInt8) :
    (load (header.toBytes ++ fh)).2 = none ↔
      (segmentFrames.leading header.numSegments.toNat fh).1.length = header.numSegments.toNat ∧
        (segmentFrames.leading header.numSegments.toNat fh).2 = [] := by
  rw [load_of_header header hmagic, checkTrailingData_ok_iff, segmentLoop_ok_iff, segmentLoop_state]
  rfl

theorem load_toBytes_ok (firmware : Firmware) : (load firmware.toBytes).2 = none := by
  have hl := segmentFrames.leading_encodeAll_append firmware.segments []
  rw [List.append_nil] at hl
  rw [Firmware.toBytes, load_ok_iff _ firmware.magic, firmware.count, hl]
  exact ⟨rfl, rfl⟩

theorem load_toBytes_state (firmware : Firmware) :
    ∃ fh rest, (load firmware.toBytes).1 =
      (LoadState.start fh).loadedAll firmware.header firmware.segments rest := by
  have hl := segmentFrames.leading_encodeAll_append firmware.segments []
  rw [List.append_nil] at hl
  obtain ⟨rest, hs⟩ := load_state firmware.header firmware.magic
    (segmentFrames.encodeAll firmware.segments)
  rw [firmware.count, hl] at hs
  exact ⟨_, rest, hs⟩

theorem exists_firmware_of_load_ok (input : List UInt8) (h : (load input).2 = none) :
    ∃ firmware : Firmware, input = firmware.toBytes := by
  by_cases hh : ∃ header fh, header.magicNumber = 0xC3C3 ∧ input = Exe450FileHeader.toBytes header ++ fh
  · obtain ⟨header, fh, hmagic, rfl⟩ := hh
    obtain ⟨hlen, hrest⟩ := (load_ok_iff header hmagic fh).mp h
    have hfh := segmentFrames.leading_append header.numSegments.toNat fh
    rw [hrest, List.append_nil] at hfh
    exact ⟨⟨header, _, hmagic, hlen.symm⟩, congrArg (header.toBytes ++ ·) hfh⟩
  · push Not at hh
    obtain ⟨_, failure, hl⟩ := load_of_no_header input fun header fh hm => hh header fh hm
    rw [hl] at h
    simp at h

-- An accepted input is a firmware file, and the state is what its segments leave.
theorem load_ok_state (input : List UInt8) (h : (load input).2 = none) :
    ∃ (firmware : Firmware) (fh rest : List UInt8), input = firmware.toBytes ∧
      (load input).1 = (LoadState.start fh).loadedAll firmware.header firmware.segments rest := by
  obtain ⟨firmware, rfl⟩ := exists_firmware_of_load_ok input h
  obtain ⟨fh, rest, hs⟩ := load_toBytes_state firmware
  exact ⟨firmware, fh, rest, rfl, hs⟩

-- The parser accepts the firmware files and no others, and the loop gets through
-- exactly the segments they hold.
theorem load_accepts_exactly_firmware :
    (∀ input, (load input).2 = none ↔ ∃ firmware : Firmware, input = firmware.toBytes) ∧
    ∀ firmware : Firmware,
      (load firmware.toBytes).1.segments = firmware.segments.map Subtype.val ∧
      ((load firmware.toBytes).1.dram, (load firmware.toBytes).1.imem) =
        firmware.segments.foldl
          (fun images segment => writeSegment firmware.header segment.val images)
          (.filled 0, .filled 0) := by
  constructor
  · intro input
    constructor
    · exact exists_firmware_of_load_ok input
    · rintro ⟨firmware, rfl⟩
      exact load_toBytes_ok firmware
  · intro firmware
    obtain ⟨fh, rest, hs⟩ := load_toBytes_state firmware
    rw [hs]
    exact ⟨rfl, rfl⟩

end ReelMagic.Parse450
