import ReelMagic.Library.Buffer
import ReelMagic.Library.Bytes
import ReelMagic.Library.Stdio

namespace ReelMagic.Parse450

open Library Library.Bytes Library.Stdio

def IMEM_SIZE : Nat := 512

-- IMEM_SIZE instructions of four bytes.
def IMEM_BYTE_SIZE : Nat := IMEM_SIZE * 4

def DRAM_BYTE_SIZE : Nat := 96 * 1024

-- The bytes of `seg_buf`, an array of 65536 / 4 instructions.
def SEG_BUF_SIZE : Nat := 65536

structure Exe450FileHeader where
  magicNumber : UInt16
  revHi : UInt8
  revLo : UInt8
  productID : UInt16
  initPC : UInt16
  imemDram : UInt16
  exeLengthLo : UInt16
  exeLengthHi : UInt16
  numSegments : UInt16
  reservedLo : UInt16
  reservedHi : UInt16
  commentString : Vector UInt8 80
deriving DecidableEq

structure Exe450CodeSegmentHeader where
  segLength : UInt32
  segAddress : UInt32
deriving DecidableEq

structure Exe450CodeSegmentInstruction where
  instructionWord1 : UInt16
  instructionWord0 : UInt16
deriving DecidableEq

-- The structures have no padding, and a little-endian host reads them from the
-- file as they are.
def FILE_HEADER_SIZE : Nat := 100

def SEG_HEADER_SIZE : Nat := 8

def Exe450FileHeader.ofBytes (raw : List UInt8) : Exe450FileHeader where
  magicNumber := word16 (raw.getD 0 0) (raw.getD 1 0)
  revHi := raw.getD 2 0
  revLo := raw.getD 3 0
  productID := word16 (raw.getD 4 0) (raw.getD 5 0)
  initPC := word16 (raw.getD 6 0) (raw.getD 7 0)
  imemDram := word16 (raw.getD 8 0) (raw.getD 9 0)
  exeLengthLo := word16 (raw.getD 10 0) (raw.getD 11 0)
  exeLengthHi := word16 (raw.getD 12 0) (raw.getD 13 0)
  numSegments := word16 (raw.getD 14 0) (raw.getD 15 0)
  reservedLo := word16 (raw.getD 16 0) (raw.getD 17 0)
  reservedHi := word16 (raw.getD 18 0) (raw.getD 19 0)
  commentString := array 80 (raw.drop 20)

def Exe450CodeSegmentHeader.ofBytes (raw : List UInt8) : Exe450CodeSegmentHeader where
  segLength := word32 (raw.getD 0 0) (raw.getD 1 0) (raw.getD 2 0) (raw.getD 3 0)
  segAddress := word32 (raw.getD 4 0) (raw.getD 5 0) (raw.getD 6 0) (raw.getD 7 0)

-- `seg_buf[index]`, from the bytes at the start of `seg_buf`.
def Exe450CodeSegmentInstruction.ofSegBuf (segBuf : List UInt8) (index : Nat) :
    Exe450CodeSegmentInstruction where
  instructionWord1 := word16 (segBuf.getD (4 * index) 0) (segBuf.getD (4 * index + 1) 0)
  instructionWord0 := word16 (segBuf.getD (4 * index + 2) 0) (segBuf.getD (4 * index + 3) 0)

def Exe450CodeSegmentInstruction.toBytes (instruction : Exe450CodeSegmentInstruction) : List UInt8 :=
  bytes16 instruction.instructionWord1 ++ bytes16 instruction.instructionWord0

-- The index is computed in 32 bits, as `uint32_t + unsigned + int` is on the host.
def writeInstructionToDram (out : Buffer UInt8) (segHeader : Exe450CodeSegmentHeader)
    (segByteOffset : UInt32) (instruction : Exe450CodeSegmentInstruction) : Buffer UInt8 :=
  let out := out.store (segHeader.segAddress + segByteOffset + 0).toNat
    (instruction.instructionWord1 >>> 8).toUInt8
  let out := out.store (segHeader.segAddress + segByteOffset + 1).toNat
    (instruction.instructionWord1 &&& 0xFF).toUInt8
  let out := out.store (segHeader.segAddress + segByteOffset + 2).toNat
    (instruction.instructionWord0 >>> 8).toUInt8
  out.store (segHeader.segAddress + segByteOffset + 3).toNat
    (instruction.instructionWord0 &&& 0xFF).toUInt8

def writeInstructionToImem (out : Buffer UInt8) (fileHeader : Exe450FileHeader)
    (segHeader : Exe450CodeSegmentHeader) (segByteOffset : UInt32)
    (instruction : Exe450CodeSegmentInstruction) : Buffer UInt8 :=
  let imemByteAddressStart := fileHeader.imemDram.toUInt32
  let imemByteAddressMax := imemByteAddressStart + UInt32.ofNat IMEM_BYTE_SIZE
  let requestedByteOffset := segHeader.segAddress + segByteOffset
  -- only write instruction if within the imem range
  if requestedByteOffset < imemByteAddressStart then out
  else if requestedByteOffset ≥ imemByteAddressMax then out
  else
    let imemByteOffset := requestedByteOffset - imemByteAddressStart
    out.memcpy imemByteOffset.toNat instruction.toBytes

-- The way out of `main` through `failed`, by the message printed before it.
inductive Failure where
  | fileHeader
  | magicNumber
  | segmentHeader
  | segmentLengthNotMultipleOf4
  | segmentTooBig
  | segmentData
  | segmentBeyondBuffer
  | trailingData
deriving DecidableEq

-- A segment as the loop sees it: its header and the data read into `seg_buf`.
structure Segment where
  header : Exe450CodeSegmentHeader
  data : List UInt8
deriving DecidableEq

-- `fh` is the unread part of the input, and `segments` records the segments whose
-- instructions have been written, in order.
structure LoadState where
  fh : List UInt8
  dram : Buffer UInt8
  imem : Buffer UInt8
  segments : List Segment

-- Both images after the first `count` turns of the instruction loop.
def instructionLoop (fileHeader : Exe450FileHeader) (segHeader : Exe450CodeSegmentHeader)
    (segBuf : List UInt8) (dram imem : Buffer UInt8) : Nat → Buffer UInt8 × Buffer UInt8
  | 0 => (dram, imem)
  | count + 1 =>
      let images := instructionLoop fileHeader segHeader segBuf dram imem count
      let instruction := Exe450CodeSegmentInstruction.ofSegBuf segBuf count
      (writeInstructionToDram images.1 segHeader (UInt32.ofNat count <<< 2) instruction,
        writeInstructionToImem images.2 fileHeader segHeader (UInt32.ofNat count <<< 2) instruction)

-- The loop runs while `instruction_index << 2` is below `seg_length`.
def instructionCount (segHeader : Exe450CodeSegmentHeader) : Nat :=
  (segHeader.segLength.toNat + 3) / 4

def writeSegment (fileHeader : Exe450FileHeader) (segment : Segment)
    (images : Buffer UInt8 × Buffer UInt8) : Buffer UInt8 × Buffer UInt8 :=
  instructionLoop fileHeader segment.header segment.data images.1 images.2
    (instructionCount segment.header)

-- One turn of the segment loop.
def segmentStep (fileHeader : Exe450FileHeader) (s : LoadState) : Except Failure LoadState :=
  match fread SEG_HEADER_SIZE s.fh with
  | (none, _) => .error .segmentHeader
  | (some raw, fh) =>
      let segHeader := Exe450CodeSegmentHeader.ofBytes raw
      if segHeader.segLength &&& 0x3 ≠ 0 then .error .segmentLengthNotMultipleOf4
      else if segHeader.segLength.toNat > SEG_BUF_SIZE then .error .segmentTooBig
      else match fread segHeader.segLength.toNat fh with
      | (none, _) => .error .segmentData
      | (some segBuf, fh) =>
          -- the sum wraps around at 32 bits before it is compared
          if (segHeader.segAddress + segHeader.segLength).toNat > DRAM_BYTE_SIZE then
            .error .segmentBeyondBuffer
          else
            let images := writeSegment fileHeader ⟨segHeader, segBuf⟩ (s.dram, s.imem)
            .ok ⟨fh, images.1, images.2, s.segments ++ [⟨segHeader, segBuf⟩]⟩

def segmentLoop (fileHeader : Exe450FileHeader) : Nat → LoadState → LoadState × Option Failure
  | 0, s => (s, none)
  | count + 1, s =>
      match segmentStep fileHeader s with
      | .error failure => (s, some failure)
      | .ok next => segmentLoop fileHeader count next

def LoadState.start (fh : List UInt8) : LoadState :=
  ⟨fh, .filled 0, .filled 0, []⟩

-- The check after the segment loop, passed over when the loop has failed.
def checkTrailingData : LoadState × Option Failure → LoadState × Option Failure
  | (s, some failure) => (s, some failure)
  | (s, none) =>
      match fread 1 s.fh with
      | (some _, _) => (s, some .trailingData)
      | (none, fh) => ({ s with fh }, none)

-- `main` from its first `fread` to the check for trailing data. With no failure it
-- goes on to dump the two buffers.
def load (input : List UInt8) : LoadState × Option Failure :=
  match fread FILE_HEADER_SIZE input with
  | (none, _) => (.start input, some .fileHeader)
  | (some raw, fh) =>
      let fileHeader := Exe450FileHeader.ofBytes raw
      if fileHeader.magicNumber ≠ 0xC3C3 then (.start fh, some .magicNumber)
      else checkTrailingData (segmentLoop fileHeader fileHeader.numSegments.toNat (.start fh))

end ReelMagic.Parse450
