import ReelMagic.Parse450.Format

namespace ReelMagic.Parse450

open Library Library.Stdio

def LoadState.loaded (s : LoadState) (fileHeader : Exe450FileHeader) (segment : CodeSegment)
    (rest : List UInt8) : LoadState where
  fh := rest
  dram := (writeSegment fileHeader segment.val (s.dram, s.imem)).1
  imem := (writeSegment fileHeader segment.val (s.dram, s.imem)).2
  segments := s.segments ++ [segment.val]

theorem segLength_and_eq_zero_iff (length : UInt32) : length &&& 0x3 = 0 ↔ length.toNat % 4 = 0 := by
  have h : (length &&& 0x3).toNat = length.toNat % 4 := by
    rw [UInt32.toNat_and]
    exact Nat.and_two_pow_sub_one_eq_mod length.toNat 2
  rw [← UInt32.toNat_inj, h]
  rfl

-- A turn of the loop gets through exactly when a well-formed segment comes next.
theorem segmentStep_eq_ok_iff (fileHeader : Exe450FileHeader) (s next : LoadState) :
    segmentStep fileHeader s = .ok next ↔
      ∃ segment rest, segmentFrames.next s.fh = some (segment, rest) ∧
        next = s.loaded fileHeader segment rest := by
  constructor
  · intro h
    unfold segmentStep at h
    split at h
    · simp at h
    rename_i raw tail hraw
    simp only at h
    split at h
    · simp at h
    rename_i hmod
    split at h
    · simp at h
    rename_i hle
    split at h
    · simp at h
    rename_i data rest hdata
    split at h
    · simp at h
    rename_i hend
    obtain ⟨_, hraw_length, hfh⟩ := (fread_eq_some_iff _ _ _ _).mp hraw
    obtain ⟨hpos, hdata_length, htail⟩ := (fread_eq_some_iff _ _ _ _).mp hdata
    have hwf : (Segment.mk (.ofBytes raw) data).WellFormed := by
      have hm := (segLength_and_eq_zero_iff _).mp (not_not.mp hmod)
      exact ⟨hdata_length, by simp only; omega, Nat.le_of_not_gt hle, hm,
        by simpa [Segment.wrappedEnd] using hend⟩
    refine ⟨⟨_, hwf⟩, rest, (segmentFrames.next_eq_some_iff _ _ _).mpr ?_, ?_⟩
    · rw [hfh, htail]
      simp [segmentFrames, Segment.toBytes, Exe450CodeSegmentHeader.toBytes_ofBytes raw hraw_length]
    · exact (Except.ok.inj h).symm
  · rintro ⟨⟨⟨segHeader, data⟩, hwf⟩, rest, hn, rfl⟩
    have hfh := (segmentFrames.next_eq_some_iff _ _ _).mp hn
    obtain ⟨hlen, hpos, hle, hm, hend⟩ := hwf
    simp only [Segment.wrappedEnd] at hlen hpos hle hm hend
    have hraw : fread SEG_HEADER_SIZE s.fh = (some segHeader.toBytes, data ++ rest) := by
      rw [fread_eq_some_iff, hfh]
      simp [SEG_HEADER_SIZE, segmentFrames, Segment.toBytes]
    have hdata : fread segHeader.segLength.toNat (data ++ rest) = (some data, rest) := by
      rw [fread_eq_some_iff]
      exact ⟨by omega, hlen, rfl⟩
    have hmod := (segLength_and_eq_zero_iff segHeader.segLength).mpr hm
    have hend' : ¬(segHeader.segAddress + segHeader.segLength).toNat > DRAM_BYTE_SIZE := by
      simpa using hend
    simp only [segmentStep, hraw, Exe450CodeSegmentHeader.ofBytes_toBytes, hmod, ne_eq,
      not_true_eq_false, if_false, Nat.not_lt.mpr hle, gt_iff_lt, hdata, hend', LoadState.loaded]

theorem segmentStep_of_next (fileHeader : Exe450FileHeader) (s : LoadState) (segment : CodeSegment)
    (rest : List UInt8) (h : segmentFrames.next s.fh = some (segment, rest)) :
    segmentStep fileHeader s = .ok (s.loaded fileHeader segment rest) :=
  (segmentStep_eq_ok_iff _ _ _).mpr ⟨segment, rest, h, rfl⟩

theorem segmentStep_of_next_none (fileHeader : Exe450FileHeader) (s : LoadState)
    (h : segmentFrames.next s.fh = none) : ∃ failure, segmentStep fileHeader s = .error failure := by
  cases hs : segmentStep fileHeader s with
  | error failure => exact ⟨failure, rfl⟩
  | ok next =>
      obtain ⟨segment, rest, hn, _⟩ := (segmentStep_eq_ok_iff _ _ _).mp hs
      simp [h] at hn

-- The state after a list of segments has been read and written.
def LoadState.loadedAll (s : LoadState) (fileHeader : Exe450FileHeader)
    (segments : List CodeSegment) (rest : List UInt8) : LoadState :=
  let images := segments.foldl (fun images segment => writeSegment fileHeader segment.val images)
    (s.dram, s.imem)
  ⟨rest, images.1, images.2, s.segments ++ segments.map Subtype.val⟩

theorem LoadState.loaded_loadedAll (s : LoadState) (fileHeader : Exe450FileHeader)
    (segment : CodeSegment) (segments : List CodeSegment) (tail rest : List UInt8) :
    (s.loaded fileHeader segment tail).loadedAll fileHeader segments rest =
      s.loadedAll fileHeader (segment :: segments) rest := by
  simp [loaded, loadedAll]

theorem segmentLoop_state (fileHeader : Exe450FileHeader) (count : Nat) (s : LoadState) :
    (segmentLoop fileHeader count s).1 =
      s.loadedAll fileHeader (segmentFrames.leading count s.fh).1
        (segmentFrames.leading count s.fh).2 := by
  induction count generalizing s with
  | zero => simp [segmentLoop, Frames.leading, LoadState.loadedAll]
  | succ count ih =>
      cases hn : segmentFrames.next s.fh with
      | none =>
          obtain ⟨failure, hs⟩ := segmentStep_of_next_none fileHeader s hn
          simp [segmentLoop, hs, Frames.leading, hn, LoadState.loadedAll]
      | some found =>
          obtain ⟨segment, rest⟩ := found
          have hs := segmentStep_of_next fileHeader s segment rest hn
          simp only [segmentLoop, hs, Frames.leading, hn]
          rw [ih, LoadState.loaded_loadedAll]
          rfl

theorem segmentLoop_ok_iff (fileHeader : Exe450FileHeader) (count : Nat) (s : LoadState) :
    (segmentLoop fileHeader count s).2 = none ↔
      (segmentFrames.leading count s.fh).1.length = count := by
  induction count generalizing s with
  | zero => simp [segmentLoop, Frames.leading]
  | succ count ih =>
      cases hn : segmentFrames.next s.fh with
      | none =>
          obtain ⟨failure, hs⟩ := segmentStep_of_next_none fileHeader s hn
          simp [segmentLoop, hs, Frames.leading, hn]
      | some found =>
          obtain ⟨segment, rest⟩ := found
          have hs := segmentStep_of_next fileHeader s segment rest hn
          simp only [segmentLoop, hs, Frames.leading, hn, List.length_cons, Nat.add_right_cancel_iff]
          exact ih _

end ReelMagic.Parse450
