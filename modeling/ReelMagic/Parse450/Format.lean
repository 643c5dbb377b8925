import ReelMagic.Library.Frames
import ReelMagic.Parse450

namespace ReelMagic.Parse450

open Library Library.Bytes Library.Stdio

def Exe450FileHeader.toBytes (header : Exe450FileHeader) : List UInt8 :=
  bytes16 header.magicNumber ++ [header.revHi, header.revLo] ++ bytes16 header.productID ++
    bytes16 header.initPC ++ bytes16 header.imemDram ++ bytes16 header.exeLengthLo ++
    bytes16 header.exeLengthHi ++ bytes16 header.numSegments ++ bytes16 header.reservedLo ++
    bytes16 header.reservedHi ++ header.commentString.toList

def Exe450CodeSegmentHeader.toBytes (header : Exe450CodeSegmentHeader) : List UInt8 :=
  bytes32 header.segLength ++ bytes32 header.segAddress

def Segment.toBytes (segment : Segment) : List UInt8 :=
  segment.header.toBytes ++ segment.data

-- The address just past the segment, as `main` computes it.
def Segment.wrappedEnd (segment : Segment) : Nat :=
  (segment.header.segAddress.toNat + segment.header.segLength.toNat) % 2 ^ 32

structure Segment.WellFormed (segment : Segment) : Prop where
  data_length : segment.data.length = segment.header.segLength.toNat
  length_pos : 4 ≤ segment.header.segLength.toNat
  length_le : segment.header.segLength.toNat ≤ SEG_BUF_SIZE
  length_mod : segment.header.segLength.toNat % 4 = 0
  end_le : segment.wrappedEnd ≤ DRAM_BYTE_SIZE

instance (segment : Segment) : Decidable segment.WellFormed :=
  decidable_of_iff (segment.data.length = segment.header.segLength.toNat ∧
      4 ≤ segment.header.segLength.toNat ∧ segment.header.segLength.toNat ≤ SEG_BUF_SIZE ∧
      segment.header.segLength.toNat % 4 = 0 ∧ segment.wrappedEnd ≤ DRAM_BYTE_SIZE)
    ⟨fun ⟨hd, hp, hl, hm, he⟩ => ⟨hd, hp, hl, hm, he⟩,
      fun ⟨hd, hp, hl, hm, he⟩ => ⟨hd, hp, hl, hm, he⟩⟩

abbrev CodeSegment := { segment : Segment // segment.WellFormed }

-- A firmware file: a header with the right magic number and the segments it counts.
structure Firmware where
  header : Exe450FileHeader
  segments : List CodeSegment
  magic : header.magicNumber = 0xC3C3
  count : header.numSegments.toNat = segments.length

@[simp] theorem Exe450FileHeader.toBytes_length (header : Exe450FileHeader) :
    header.toBytes.length = FILE_HEADER_SIZE := by
  simp [toBytes, FILE_HEADER_SIZE]

@[simp] theorem Exe450CodeSegmentHeader.toBytes_length (header : Exe450CodeSegmentHeader) :
    header.toBytes.length = SEG_HEADER_SIZE := rfl

@[simp] theorem Exe450CodeSegmentHeader.ofBytes_toBytes (header : Exe450CodeSegmentHeader) :
    ofBytes header.toBytes = header := by
  simp [ofBytes, toBytes, bytes32]

theorem Exe450CodeSegmentHeader.toBytes_ofBytes (raw : List UInt8)
    (h : raw.length = SEG_HEADER_SIZE) : (ofBytes raw).toBytes = raw := by
  match raw, h with
  | [_, _, _, _, _, _, _, _], _ => simp [ofBytes, toBytes]

@[simp] theorem Exe450FileHeader.ofBytes_toBytes (header : Exe450FileHeader) :
    ofBytes header.toBytes = header := by
  have hc : header.toBytes.drop 20 = header.commentString.toList := rfl
  simp only [ofBytes, hc, array_toList]
  simp [toBytes, bytes16]

theorem Exe450FileHeader.toBytes_ofBytes (raw : List UInt8) (h : raw.length = FILE_HEADER_SIZE) :
    (ofBytes raw).toBytes = raw := by
  match raw, h with
  | b0 :: b1 :: b2 :: b3 :: b4 :: b5 :: b6 :: b7 :: b8 :: b9 :: b10 :: b11 :: b12 :: b13 :: b14 ::
      b15 :: b16 :: b17 :: b18 :: b19 :: comment, h =>
      have hlen : comment.length = 80 := by
        simpa [FILE_HEADER_SIZE] using h
      simp [ofBytes, toBytes, toList_array 80 comment hlen]

-- Take a well-formed segment off the front of the unread input.
def nextSegment (fh : List UInt8) : Option (CodeSegment × List UInt8) :=
  match fread SEG_HEADER_SIZE fh with
  | (none, _) => none
  | (some raw, fh) =>
      match fread (Exe450CodeSegmentHeader.ofBytes raw).segLength.toNat fh with
      | (none, _) => none
      | (some data, fh) =>
          if h : (Segment.mk (.ofBytes raw) data).WellFormed then some (⟨_, h⟩, fh) else none

theorem nextSegment_eq_some_iff (fh : List UInt8) (segment : CodeSegment) (rest : List UInt8) :
    nextSegment fh = some (segment, rest) ↔ fh = segment.val.toBytes ++ rest := by
  constructor
  · intro h
    unfold nextSegment at h
    split at h
    · simp at h
    rename_i raw tail hraw
    split at h
    · simp at h
    rename_i data after hdata
    split at h
    · rename_i hwf
      simp only [Option.some.injEq, Prod.mk.injEq] at h
      obtain ⟨rfl, rfl⟩ := h
      obtain ⟨_, hlen, rfl⟩ := (fread_eq_some_iff _ _ _ _).mp hraw
      obtain ⟨_, _, rfl⟩ := (fread_eq_some_iff _ _ _ _).mp hdata
      simp [Segment.toBytes, Exe450CodeSegmentHeader.toBytes_ofBytes raw hlen]
    · simp at h
  · rintro rfl
    obtain ⟨⟨header, data⟩, hwf⟩ := segment
    have hpos := hwf.length_pos
    have hlen := hwf.data_length
    simp only at hpos hlen
    have hraw : fread SEG_HEADER_SIZE (header.toBytes ++ (data ++ rest)) =
        (some header.toBytes, data ++ rest) := fread_append header.toBytes _ (by simp [SEG_HEADER_SIZE])
    have hdata : fread header.segLength.toNat (data ++ rest) = (some data, rest) := by
      rw [← hlen]
      exact fread_append data rest (by omega)
    simp only [nextSegment, Segment.toBytes, List.append_assoc, hraw,
      Exe450CodeSegmentHeader.ofBytes_toBytes, hdata, hwf, dite_true]

def segmentFrames : Frames UInt8 CodeSegment where
  encode := fun segment => segment.val.toBytes
  next := nextSegment
  next_eq_some_iff := nextSegment_eq_some_iff

def Firmware.toBytes (firmware : Firmware) : List UInt8 :=
  firmware.header.toBytes ++ segmentFrames.encodeAll firmware.segments

end ReelMagic.Parse450
