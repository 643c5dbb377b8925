import ReelMagic.Parse450.EmptySegment
import ReelMagic.Parse450.Output
import ReelMagic.Parse450.Window

namespace ReelMagic.Parse450

open Library Library.Stdio

-- How `main` fails on a file that stops `left` bytes into a segment block.
def cutFailure (left : Nat) : Failure :=
  if left < SEG_HEADER_SIZE then .segmentHeader else .segmentData

-- The segments that end within the first `n` bytes of a file, and how far the bytes go into
-- the next one.
def segmentsWithin (n : Nat) (segments : List Segment) : List Segment :=
  whole Segment.toBytes (n - FILE_HEADER_SIZE) segments

def leftAfter (n : Nat) (segments : List Segment) : Nat :=
  n - FILE_HEADER_SIZE - ((segmentsWithin n segments).flatMap Segment.toBytes).length

theorem segmentStep_of_cut (fileHeader : Exe450FileHeader) (s : LoadState) (segment : CodeSegment)
    {left : Nat} (hleft : left < segment.val.toBytes.length)
    (h : s.fh = segment.val.toBytes.take left) :
    segmentStep fileHeader s = .error (cutFailure left) := by
  obtain ⟨⟨segHeader, data⟩, hwf⟩ := segment
  obtain ⟨hlen, hpos, hle, hm, hend⟩ := hwf
  simp only [Segment.wrappedEnd] at hlen hpos hle hm hend
  simp only [Segment.toBytes, List.length_append, Exe450CodeSegmentHeader.toBytes_length] at hleft h
  by_cases hcut : left < SEG_HEADER_SIZE
  · have hraw : fread SEG_HEADER_SIZE s.fh = (none, []) := by
      apply fread_short
      rw [h, List.length_take, List.length_append, Exe450CodeSegmentHeader.toBytes_length]
      omega
    simp only [segmentStep, hraw, cutFailure, hcut, if_true]
  · rw [List.take_append, List.take_of_length_le
      (by rw [Exe450CodeSegmentHeader.toBytes_length]; omega),
      Exe450CodeSegmentHeader.toBytes_length] at h
    have hraw : fread SEG_HEADER_SIZE s.fh =
        (some segHeader.toBytes, data.take (left - SEG_HEADER_SIZE)) := by
      rw [fread_eq_some_iff, h]
      simp [SEG_HEADER_SIZE]
    have hmod := (segLength_and_eq_zero_iff segHeader.segLength).mpr hm
    have hdata : fread segHeader.segLength.toNat (data.take (left - SEG_HEADER_SIZE)) =
        (none, []) := by
      apply fread_short
      rw [List.length_take]
      omega
    simp only [segmentStep, hraw, Exe450CodeSegmentHeader.ofBytes_toBytes, hmod, ne_eq,
      not_true_eq_false, if_false, Nat.not_lt.mpr hle, hdata, cutFailure, hcut]

theorem flatMap_toBytes_map_val (segments : List CodeSegment) :
    (segments.map Subtype.val).flatMap Segment.toBytes = segmentFrames.encodeAll segments := by
  rw [List.flatMap_map]
  rfl

theorem load_segments (firmware : Firmware) :
    (load firmware.toBytes).1.segments = firmware.segments.map Subtype.val := by
  obtain ⟨fh, rest, hs⟩ := load_toBytes_state firmware
  rw [hs]
  rfl

theorem take_toBytes (firmware : Firmware) {n : Nat} (hheader : FILE_HEADER_SIZE ≤ n) :
    firmware.toBytes.take n = firmware.header.toBytes ++
      (segmentFrames.encodeAll firmware.segments).take (n - FILE_HEADER_SIZE) := by
  rw [Firmware.toBytes, List.take_append, Exe450FileHeader.toBytes_length,
    List.take_of_length_le (by rw [Exe450FileHeader.toBytes_length]; exact hheader)]

-- The loop gets through the segments that are whole, and fails at the one that is cut.
theorem load_take_toBytes (firmware : Firmware) {n : Nat} (hheader : FILE_HEADER_SIZE ≤ n)
    (h : n < firmware.toBytes.length) :
    ∃ (segments : List CodeSegment) (fh rest : List UInt8),
      segments = whole segmentFrames.encode (n - FILE_HEADER_SIZE) firmware.segments ∧
      load (firmware.toBytes.take n) =
        ((LoadState.start fh).loadedAll firmware.header segments rest,
          some (cutFailure
            (n - FILE_HEADER_SIZE - (segmentFrames.encodeAll segments).length))) := by
  have hcut : n - FILE_HEADER_SIZE < (firmware.segments.flatMap segmentFrames.encode).length := by
    rw [Firmware.toBytes, List.length_append, Exe450FileHeader.toBytes_length] at h
    rw [Frames.encodeAll] at h
    omega
  obtain ⟨segment, after, left, hsegments, hleft, hn, htake⟩ :=
    exists_cut_item segmentFrames.encode hcut
  refine ⟨_, (segmentFrames.encodeAll firmware.segments).take (n - FILE_HEADER_SIZE),
    segment.val.toBytes.take left, rfl, ?_⟩
  have hcount : firmware.header.numSegments.toNat =
      (whole segmentFrames.encode (n - FILE_HEADER_SIZE) firmware.segments).length +
        (after.length + 1) := by
    rw [firmware.count]
    exact (congrArg List.length hsegments).trans (by simp)
  have hfh : (segmentFrames.encodeAll firmware.segments).take (n - FILE_HEADER_SIZE) =
      segmentFrames.encodeAll
          (whole segmentFrames.encode (n - FILE_HEADER_SIZE) firmware.segments) ++
        segment.val.toBytes.take left := htake
  rw [take_toBytes firmware hheader, load_of_header _ firmware.magic, hcount,
    segmentLoop_encodeAll _ _ _ _ _ hfh, segmentLoop,
    segmentStep_of_cut firmware.header _ segment hleft rfl, checkTrailingData]
  have hleft_eq : n - FILE_HEADER_SIZE - (segmentFrames.encodeAll
      (whole segmentFrames.encode (n - FILE_HEADER_SIZE) firmware.segments)).length = left := by
    rw [Frames.encodeAll]
    omega
  rw [hleft_eq]

theorem load_append_toBytes (firmware : Firmware) {extra : List UInt8} (h : extra ≠ []) :
    (load (firmware.toBytes ++ extra)).2 = some .trailingData := by
  rw [Firmware.toBytes, List.append_assoc, load_of_header _ firmware.magic, firmware.count,
    ← Nat.add_zero firmware.segments.length, segmentLoop_encodeAll _ _ _ _ _ rfl, segmentLoop]
  obtain ⟨byte, rest, rfl⟩ := List.exists_cons_of_ne_nil h
  rfl

-- A file that is cut short or goes on is refused, and nothing is dumped for it. No accepted
-- file is the start of another. A file that is cut short is read up to the segment it is cut
-- in, and the message says whether it is cut in the header or in the data of that segment.
theorem cut_or_extended_refused {input : List UInt8} (haccepted : (load input).2 = none) :
    (∀ n < FILE_HEADER_SIZE, (load (input.take n)).2 = some .fileHeader) ∧
    (∀ n, FILE_HEADER_SIZE ≤ n → n < input.length →
      (load (input.take n)).1.segments = segmentsWithin n (load input).1.segments ∧
      ((load (input.take n)).1.dram, (load (input.take n)).1.imem) =
        (segmentsWithin n (load input).1.segments).foldl
          (fun images segment => writeSegment (headerOf input) segment images)
          (.filled 0, .filled 0) ∧
      (load (input.take n)).2 = some (cutFailure (leftAfter n (load input).1.segments))) ∧
    (∀ extra, extra ≠ [] → (load (input ++ extra)).2 = some .trailingData) ∧
    ∀ other, other <+: input ∨ input <+: other → other ≠ input →
      ∀ dramDump imemDump files, ∃ failure,
        main 2 (some other) dramDump imemDump files = (files, some (.load failure)) := by
  obtain ⟨firmware, rfl⟩ := exists_firmware_of_load_ok input haccepted
  have hshort : ∀ n < FILE_HEADER_SIZE,
      (load (firmware.toBytes.take n)).2 = some .fileHeader := by
    intro n hn
    have hraw : fread FILE_HEADER_SIZE (firmware.toBytes.take n) = (none, []) := by
      apply fread_short
      rw [List.length_take]
      omega
    simp only [load, hraw]
  have hcut : ∀ n, FILE_HEADER_SIZE ≤ n → n < firmware.toBytes.length →
      (load (firmware.toBytes.take n)).1.segments =
          segmentsWithin n (load firmware.toBytes).1.segments ∧
        ((load (firmware.toBytes.take n)).1.dram, (load (firmware.toBytes.take n)).1.imem) =
          (segmentsWithin n (load firmware.toBytes).1.segments).foldl
            (fun images segment => writeSegment (headerOf firmware.toBytes) segment images)
            (.filled 0, .filled 0) ∧
        (load (firmware.toBytes.take n)).2 =
          some (cutFailure (leftAfter n (load firmware.toBytes).1.segments)) := by
    intro n hheader hn
    obtain ⟨segments, fh, rest, hsegments, hload⟩ := load_take_toBytes firmware hheader hn
    have hwhole : whole (fun segment : CodeSegment => segment.val.toBytes) (n - FILE_HEADER_SIZE)
        firmware.segments = segments := hsegments.symm
    rw [leftAfter, segmentsWithin, load_segments, whole_map, hwhole, headerOf_toBytes,
      flatMap_toBytes_map_val, List.foldl_map, hload]
    exact ⟨rfl, rfl, rfl⟩
  have hextra : ∀ extra, extra ≠ [] → (load (firmware.toBytes ++ extra)).2 = some .trailingData :=
    fun extra hne => load_append_toBytes firmware hne
  refine ⟨hshort, hcut, hextra, ?_⟩
  intro other hother hne dramDump imemDump files
  have hrefused : ∃ failure, (load other).2 = some failure := by
    rcases hother with hpart | ⟨extra, rfl⟩
    · have hlen : other.length < firmware.toBytes.length := by
        apply lt_of_le_of_ne hpart.length_le
        intro heq
        exact hne (hpart.eq_of_length heq)
      rw [List.prefix_iff_eq_take.mp hpart]
      by_cases hheader : other.length < FILE_HEADER_SIZE
      · exact ⟨_, hshort _ hheader⟩
      · exact ⟨_, (hcut _ (by omega) hlen).2.2⟩
    · refine ⟨_, hextra extra ?_⟩
      rintro rfl
      exact hne (List.append_nil _)
  obtain ⟨failure, hfailure⟩ := hrefused
  refine ⟨failure, ?_⟩
  have hload : load other = ((load other).1, some failure) := Prod.ext rfl hfailure
  simp only [main, ne_eq, not_true_eq_false, if_false]
  rw [hload]

theorem cut_or_extended_refused_one_segment :
    (load (oneSegmentFirmware.toBytes.take 104)).2 = some .segmentHeader :=
  ((cut_or_extended_refused (load_toBytes_ok oneSegmentFirmware)).2.1 104 (by decide)
    (by decide)).2.2

end ReelMagic.Parse450
