import ReelMagic.Library.CString
import ReelMagic.Library.Lines
import ReelMagic.Library.Printf
import ReelMagic.Parse450.Output

namespace ReelMagic.Parse450

open Library Library.CString Library.Lines Library.Printf Library.Scanf Library.Stdio

-- EXE_LEN. The shift is one of an `int`, which wraps around on the host.
def exeLen (header : Exe450FileHeader) : UInt32 :=
  header.exeLengthHi.toUInt32 <<< 16 ||| header.exeLengthLo.toUInt32

-- What is printed on stdout, by lines, less the newline that each has at its end.
def printExe450FileHeader (header : Exe450FileHeader) : List (List UInt8) :=
  [ascii "PL-450 Firmware EXE Header:",
    ascii "  . Magic Number:              0x" ++ (hex 4 header.magicNumber.toNat ++
      (ascii " (" ++ (if header.magicNumber = 0xC3C3 then ascii "OK" else ascii "BAD Expecting 0xC3C3") ++
        ascii ")")),
    ascii "  . Revision:                  0x" ++ (hex 2 header.revHi.toNat ++ hex 2 header.revLo.toNat),
    ascii "  . Product ID:                0x" ++ hex 4 header.productID.toNat,
    ascii "  . Initial Program Counter:   0x" ++ hex 4 header.initPC.toNat,
    ascii "  . IMEM / DRAM:               0x" ++ hex 4 header.imemDram.toNat,
    ascii "  . EXE Length:                " ++ numeral 10 (exeLen header).toNat,
    ascii "  . Number of Segments:        " ++ numeral 10 header.numSegments.toNat,
    ascii "  . Comment String:            " ++ cString header.commentString.toList]

def segmentTitle (segmentIndex segmentCount : Nat) : List UInt8 :=
  ascii "PL-450 Firmware Segment " ++ numeral 10 segmentIndex ++ ascii " / " ++
    numeral 10 segmentCount ++ ascii ":"

def printExe450SegHeader (header : Exe450CodeSegmentHeader) (segmentIndex segmentCount : Nat) :
    List (List UInt8) :=
  [segmentTitle segmentIndex segmentCount,
    ascii "  . Segment Length:  " ++ numeral 10 header.segLength.toNat,
    ascii "  . Segment Address: " ++ numeral 10 header.segAddress.toNat]

-- One turn of the segment loop prints as soon as it has read the header.
def segmentStepReport (fileHeader : Exe450FileHeader) (segmentIndex : Nat) (s : LoadState) :
    List (List UInt8) :=
  match fread SEG_HEADER_SIZE s.fh with
  | (none, _) => []
  | (some raw, _) =>
      printExe450SegHeader (.ofBytes raw) segmentIndex fileHeader.numSegments.toNat

def segmentLoopReport (fileHeader : Exe450FileHeader) : Nat → Nat → LoadState → List (List UInt8)
  | 0, _, _ => []
  | count + 1, segmentIndex, s =>
      segmentStepReport fileHeader segmentIndex s ++
        match segmentStep fileHeader s with
        | .error _ => []
        | .ok next => segmentLoopReport fileHeader count (segmentIndex + 1) next

def loadReport (input : List UInt8) : List (List UInt8) :=
  match fread FILE_HEADER_SIZE input with
  | (none, _) => []
  | (some raw, fh) =>
      let fileHeader := Exe450FileHeader.ofBytes raw
      printExe450FileHeader fileHeader ++
        if fileHeader.magicNumber ≠ 0xC3C3 then []
        else segmentLoopReport fileHeader fileHeader.numSegments.toNat 0 (.start fh)

def dramLine : List UInt8 := ascii "Wrote flat DRAM contents to: dram.bin"

def imemLine : List UInt8 := ascii "Wrote flat IMEM contents to: imem.bin"

def dumpReport (dramDump imemDump : Dump) : List (List UInt8) :=
  match dramDump with
  | .openFailed => []
  | .stored _ =>
      dramLine ::
        match imemDump with
        | .openFailed => []
        | .stored _ => [imemLine]

def mainReport (argc : Nat) (input : Option (List UInt8)) (dramDump imemDump : Dump) :
    List (List UInt8) :=
  if argc ≠ 2 then []
  else match input with
  | none => []
  | some input =>
      loadReport input ++
        match load input with
        | (_, some _) => []
        | (_, none) => dumpReport dramDump imemDump

-- The text itself.
def stdout (report : List (List UInt8)) : List UInt8 := report.flatMap (· ++ [NEWLINE])

-- What the text tells of the header.
structure Summary where
  magicNumber : UInt16
  revHi : UInt8
  revLo : UInt8
  productID : UInt16
  initPC : UInt16
  imemDram : UInt16
  exeLength : UInt32
  numSegments : UInt16
  comment : List UInt8
deriving DecidableEq

def Exe450FileHeader.summary (header : Exe450FileHeader) : Summary where
  magicNumber := header.magicNumber
  revHi := header.revHi
  revLo := header.revLo
  productID := header.productID
  initPC := header.initPC
  imemDram := header.imemDram
  exeLength := exeLen header
  numSegments := header.numSegments
  comment := cString header.commentString.toList

structure Report where
  header : Summary
  segments : List Exe450CodeSegmentHeader
  dramWritten : Bool
  imemWritten : Bool
deriving DecidableEq

-- The other way round, from the columns that the values stand in.
def readSegments (segmentCount : Nat) :
    Nat → List (List UInt8) → List Exe450CodeSegmentHeader × List (List UInt8)
  | segmentIndex, title :: length :: address :: rest =>
      if title = segmentTitle segmentIndex segmentCount then
        (⟨UInt32.ofNat (numberAt 10 21 length), UInt32.ofNat (numberAt 10 21 address)⟩ ::
          (readSegments segmentCount (segmentIndex + 1) rest).1,
          (readSegments segmentCount (segmentIndex + 1) rest).2)
      else ([], title :: length :: address :: rest)
  | _, rest => ([], rest)

def readReport (text : List UInt8) : Option Report :=
  match (lines NEWLINE text).map List.dropLast with
  | _ :: magic :: revision :: product :: counter :: imem :: length :: count :: comment :: rest =>
      let segments := readSegments (numberAt 10 31 count) 0 rest
      some
        { header :=
            { magicNumber := UInt16.ofNat (numberAt 16 33 magic)
              revHi := UInt8.ofNat (numberAt 16 33 revision / 256)
              revLo := UInt8.ofNat (numberAt 16 33 revision)
              productID := UInt16.ofNat (numberAt 16 33 product)
              initPC := UInt16.ofNat (numberAt 16 33 counter)
              imemDram := UInt16.ofNat (numberAt 16 33 imem)
              exeLength := UInt32.ofNat (numberAt 10 31 length)
              numSegments := UInt16.ofNat (numberAt 10 31 count)
              comment := comment.drop 31 }
          segments := segments.1
          dramWritten := segments.2.contains dramLine
          imemWritten := segments.2.contains imemLine }
  | _ => none

section Header

theorem read_word {label rest : List UInt8} (hlabel : label.length = 33)
    (hrest : ∀ c ∈ rest.head?, isDigit 16 c = false) (value : UInt16) :
    UInt16.ofNat (numberAt 16 33 (label ++ (hex 4 value.toNat ++ rest))) = value := by
  rw [numberAt_hex hlabel hrest, UInt16.ofNat_toNat]

theorem read_word_last (label : List UInt8) (hlabel : label.length = 33) (value : UInt16) :
    UInt16.ofNat (numberAt 16 33 (label ++ hex 4 value.toNat)) = value := by
  have hread : UInt16.ofNat (numberAt 16 33 (label ++ (hex 4 value.toNat ++ []))) = value := by
    apply read_word hlabel
    nofun
  rw [List.append_nil] at hread
  exact hread

-- The two bytes of the revision have two digits each.
theorem read_revision (label : List UInt8) (hlabel : label.length = 33) (hi lo : UInt8) :
    numberAt 16 33 (label ++ (hex 2 hi.toNat ++ hex 2 lo.toNat)) = hi.toNat * 256 + lo.toNat := by
  have hlength : (hex 2 lo.toNat).length = 2 := hex_length (by omega) lo.toNat_lt
  have hdigits : ∀ c ∈ hex 2 hi.toNat ++ hex 2 lo.toNat, isDigit 16 c = true := by
    intro c hc
    rcases List.mem_append.mp hc with hhi | hlo
    · exact (isNumeral_hex 2 hi.toNat).2 c hhi
    · exact (isNumeral_hex 2 lo.toNat).2 c hlo
  have hread : numberAt 16 33 (label ++ (hex 2 hi.toNat ++ hex 2 lo.toNat ++ [])) =
      numeralValue 16 (hex 2 hi.toNat ++ hex 2 lo.toNat) := numberAt_append hlabel hdigits nofun
  rw [List.append_nil] at hread
  rw [hread, numeralValue_append, numeralValue_hex, numeralValue_hex, hlength,
    show 16 ^ 2 = 256 from rfl]

theorem ofNat_high (hi lo : UInt8) : UInt8.ofNat ((hi.toNat * 256 + lo.toNat) / 256) = hi := by
  have hhi : hi.toNat < 256 := hi.toNat_lt
  have hlo : lo.toNat < 256 := lo.toNat_lt
  rw [← UInt8.toNat_inj, UInt8.toNat_ofNat']
  omega

theorem ofNat_low (hi lo : UInt8) : UInt8.ofNat (hi.toNat * 256 + lo.toNat) = lo := by
  have hlo : lo.toNat < 256 := lo.toNat_lt
  rw [← UInt8.toNat_inj, UInt8.toNat_ofNat']
  omega

-- The header is read back from its lines, whatever lines come after them.
theorem readReport_header (header : Exe450FileHeader) (rest : List (List UInt8))
    (hlines : ∀ line ∈ printExe450FileHeader header ++ rest, NEWLINE ∉ line) :
    readReport (stdout (printExe450FileHeader header ++ rest)) = some
      { header := header.summary
        segments := (readSegments header.numSegments.toNat 0 rest).1
        dramWritten := (readSegments header.numSegments.toNat 0 rest).2.contains dramLine
        imemWritten := (readSegments header.numSegments.toNat 0 rest).2.contains imemLine } := by
  have hmagic : UInt16.ofNat (numberAt 16 33 (ascii "  . Magic Number:              0x" ++
      (hex 4 header.magicNumber.toNat ++ (ascii " (" ++
        (if header.magicNumber = 0xC3C3 then ascii "OK" else ascii "BAD Expecting 0xC3C3") ++
          ascii ")")))) = header.magicNumber := by
    apply read_word (by rfl)
    intro c hc
    obtain rfl := Option.some.inj hc
    decide
  have hrevision := read_revision (ascii "  . Revision:                  0x") (by rfl)
    header.revHi header.revLo
  have hproduct := read_word_last (ascii "  . Product ID:                0x") (by rfl)
    header.productID
  have hcounter := read_word_last (ascii "  . Initial Program Counter:   0x") (by rfl)
    header.initPC
  have himem := read_word_last (ascii "  . IMEM / DRAM:               0x") (by rfl)
    header.imemDram
  have hlength : numberAt 10 31 (ascii "  . EXE Length:                " ++
      numeral 10 (exeLen header).toNat) = (exeLen header).toNat := numberAt_numeral (by rfl) _
  have hcount : numberAt 10 31 (ascii "  . Number of Segments:        " ++
      numeral 10 header.numSegments.toNat) = header.numSegments.toNat := numberAt_numeral (by rfl) _
  have hcomment : (ascii "  . Comment String:            " ++
      cString header.commentString.toList).drop 31 = cString header.commentString.toList :=
    List.drop_left' (by rfl)
  rw [readReport, stdout, lines_flatMap_newline NEWLINE hlines]
  simp only [printExe450FileHeader, List.cons_append, List.nil_append, hmagic, hrevision, hproduct,
    hcounter, himem, hlength, hcount, hcomment, ofNat_high, ofNat_low, UInt32.ofNat_toNat,
    UInt16.ofNat_toNat, Exe450FileHeader.summary]

end Header

-- Some headers one after the other, counted from `segmentIndex` on.
def printSegHeaders (segmentCount : Nat) : Nat → List Exe450CodeSegmentHeader → List (List UInt8)
  | _, [] => []
  | segmentIndex, header :: headers =>
      printExe450SegHeader header segmentIndex segmentCount ++
        printSegHeaders segmentCount (segmentIndex + 1) headers

-- The failures of a segment whose header has been read, and so has been printed.
def Failure.afterSegHeader : Failure → Bool
  | segmentLengthNotMultipleOf4 => true
  | segmentTooBig => true
  | segmentData => true
  | segmentBeyondBuffer => true
  | _ => false

section Segments

variable {fileHeader : Exe450FileHeader} {s next : LoadState} {failure : Failure}

theorem read_dword (label : List UInt8) (hlabel : label.length = 21) (value : UInt32) :
    UInt32.ofNat (numberAt 10 21 (label ++ numeral 10 value.toNat)) = value := by
  rw [numberAt_numeral hlabel, UInt32.ofNat_toNat]

theorem readSegments_short (segmentCount segmentIndex : Nat) {rest : List (List UInt8)}
    (h : rest.length < 3) : readSegments segmentCount segmentIndex rest = ([], rest) := by
  match rest, h with
  | [], _ => rfl
  | [_], _ => rfl
  | [_, _], _ => rfl

theorem readSegments_print (segmentCount segmentIndex : Nat) (headers : List Exe450CodeSegmentHeader)
    {rest : List (List UInt8)} (h : rest.length < 3) :
    readSegments segmentCount segmentIndex
      (printSegHeaders segmentCount segmentIndex headers ++ rest) = (headers, rest) := by
  induction headers generalizing segmentIndex with
  | nil => exact readSegments_short segmentCount segmentIndex h
  | cons header headers ih =>
      have hlength := read_dword (ascii "  . Segment Length:  ") (by rfl) header.segLength
      have haddress := read_dword (ascii "  . Segment Address: ") (by rfl) header.segAddress
      rw [printSegHeaders, printExe450SegHeader, List.append_assoc, List.cons_append,
        List.cons_append, List.cons_append, List.nil_append, readSegments, if_pos rfl, ih, hlength,
        haddress]

theorem segmentStepReport_of_ok (h : segmentStep fileHeader s = .ok next) (segmentIndex : Nat) :
    ∃ segment : Segment, next.segments = s.segments ++ [segment] ∧ s.fh = segment.toBytes ++ next.fh ∧
      segmentStepReport fileHeader segmentIndex s =
        printExe450SegHeader segment.header segmentIndex fileHeader.numSegments.toNat := by
  obtain ⟨segment, rest, hnext, rfl⟩ := (segmentStep_eq_ok_iff _ _ _).mp h
  have hfh : s.fh = segment.val.toBytes ++ rest := (segmentFrames.next_eq_some_iff _ _ _).mp hnext
  have hraw : fread SEG_HEADER_SIZE s.fh =
      (some segment.val.header.toBytes, segment.val.data ++ rest) := by
    rw [fread_eq_some_iff, hfh]
    simp [SEG_HEADER_SIZE, Segment.toBytes]
  refine ⟨segment.val, rfl, hfh, ?_⟩
  simp only [segmentStepReport, hraw, Exe450CodeSegmentHeader.ofBytes_toBytes]

-- A header that has been read stands at the front of what was unread.
theorem segmentStepReport_of_error (h : segmentStep fileHeader s = .error failure)
    (segmentIndex : Nat) :
    ∃ headers : List Exe450CodeSegmentHeader,
      headers.length = (if failure.afterSegHeader then 1 else 0) ∧
      (∀ header ∈ headers, header.toBytes <+: s.fh) ∧
      segmentStepReport fileHeader segmentIndex s =
        printSegHeaders fileHeader.numSegments.toNat segmentIndex headers := by
  cases hraw : fread SEG_HEADER_SIZE s.fh with
  | mk read fh =>
      cases read with
      | none =>
          simp only [segmentStep, hraw] at h
          obtain rfl := Except.error.inj h
          refine ⟨[], rfl, fun _ hmem => absurd hmem List.not_mem_nil, ?_⟩
          simp only [segmentStepReport, hraw, printSegHeaders]
      | some raw =>
          have hafter : failure.afterSegHeader = true := by
            simp only [segmentStep, hraw] at h
            split at h
            · rw [← Except.error.inj h]
              rfl
            split at h
            · rw [← Except.error.inj h]
              rfl
            split at h
            · rw [← Except.error.inj h]
              rfl
            split at h
            · rw [← Except.error.inj h]
              rfl
            · cases h
          obtain ⟨_, hlength, hfh⟩ := (fread_eq_some_iff _ _ _ _).mp hraw
          refine ⟨[.ofBytes raw], ?_, ?_, ?_⟩
          · rw [hafter]
            rfl
          · rw [List.forall_mem_singleton, Exe450CodeSegmentHeader.toBytes_ofBytes raw hlength, hfh]
            exact List.prefix_append raw fh
          · simp only [segmentStepReport, hraw, printSegHeaders, List.append_nil]

-- The loop prints the segments that it gets through, and the one that it fails at where that
-- one's header could be read.
theorem segmentLoopReport_eq (fileHeader : Exe450FileHeader) (count segmentIndex : Nat)
    (s : LoadState) :
    ∃ (loaded : List Segment) (failed : List Exe450CodeSegmentHeader),
      segmentLoopReport fileHeader count segmentIndex s =
        printSegHeaders fileHeader.numSegments.toNat segmentIndex
          (loaded.map Segment.header ++ failed) ∧
      (segmentLoop fileHeader count s).1.segments = s.segments ++ loaded ∧
      failed.length =
        (if (segmentLoop fileHeader count s).2.any Failure.afterSegHeader then 1 else 0) ∧
      ∀ refused ∈ failed, loaded.flatMap Segment.toBytes ++ refused.toBytes <+: s.fh := by
  induction count generalizing segmentIndex s with
  | zero =>
      exact ⟨[], [], rfl, (List.append_nil _).symm, rfl, fun _ hmem => absurd hmem List.not_mem_nil⟩
  | succ count ih =>
      cases hstep : segmentStep fileHeader s with
      | error failure =>
          obtain ⟨headers, hlength, hfront, hreport⟩ := segmentStepReport_of_error hstep segmentIndex
          refine ⟨[], headers, ?_, ?_, ?_, hfront⟩
          · simp only [segmentLoopReport, hstep, hreport, List.append_nil, List.map_nil, List.nil_append]
          · simp only [segmentLoop, hstep, List.append_nil]
          · simp only [segmentLoop, hstep, Option.any_some, hlength]
      | ok next =>
          obtain ⟨segment, hsegments, hfh, hreport⟩ := segmentStepReport_of_ok hstep segmentIndex
          obtain ⟨loaded, failed, hrest, hloaded, hfailed, hfront⟩ := ih (segmentIndex + 1) next
          refine ⟨segment :: loaded, failed, ?_, ?_, ?_, ?_⟩
          · simp only [segmentLoopReport, hstep, hreport, hrest, List.map_cons, List.cons_append,
              printSegHeaders]
          · simp only [segmentLoop, hstep, hloaded, hsegments, List.append_assoc, List.cons_append,
              List.nil_append]
          · simp only [segmentLoop, hstep, hfailed]
          · intro refused hmem
            rw [hfh, List.flatMap_cons, List.append_assoc]
            exact (List.prefix_append_right_inj segment.toBytes).mpr (hfront refused hmem)

theorem checkTrailingData_report (result : LoadState × Option Failure) :
    (checkTrailingData result).1.segments = result.1.segments ∧
      (checkTrailingData result).2.any Failure.afterSegHeader =
        result.2.any Failure.afterSegHeader := by
  obtain ⟨fh, hstate⟩ := checkTrailingData_state result
  refine ⟨by rw [hstate], ?_⟩
  obtain ⟨s, failure⟩ := result
  cases failure with
  | some failure => rfl
  | none =>
      simp only [checkTrailingData]
      split
      · rfl
      · rfl

theorem loadReport_eq (header : Exe450FileHeader) (fh : List UInt8) :
    ∃ failed : List Exe450CodeSegmentHeader,
      loadReport (header.toBytes ++ fh) = printExe450FileHeader header ++
        printSegHeaders header.numSegments.toNat 0
          ((load (header.toBytes ++ fh)).1.segments.map Segment.header ++ failed) ∧
      failed.length = (if (load (header.toBytes ++ fh)).2.any Failure.afterSegHeader then 1 else 0) ∧
      ∀ refused ∈ failed,
        (load (header.toBytes ++ fh)).1.segments.flatMap Segment.toBytes ++ refused.toBytes <+: fh := by
  have hraw : fread FILE_HEADER_SIZE (header.toBytes ++ fh) = (some header.toBytes, fh) := by
    rw [fread_eq_some_iff]
    simp [FILE_HEADER_SIZE]
  by_cases hmagic : header.magicNumber = 0xC3C3
  · obtain ⟨loaded, failed, hreport, hloaded, hfailed, hfront⟩ :=
      segmentLoopReport_eq header header.numSegments.toNat 0 (.start fh)
    obtain ⟨hsegments, hafter⟩ := checkTrailingData_report
      (segmentLoop header header.numSegments.toNat (.start fh))
    have hstart : (LoadState.start fh).segments = [] := rfl
    rw [hstart, List.nil_append] at hloaded
    rw [load_of_header header hmagic, hsegments, hloaded, hafter]
    refine ⟨failed, ?_, hfailed, hfront⟩
    · simp only [loadReport, hraw, Exe450FileHeader.ofBytes_toBytes, hmagic, ne_eq,
        not_true_eq_false, if_false, hreport]
  · refine ⟨[], ?_, ?_, fun _ hmem => absurd hmem List.not_mem_nil⟩
    · simp only [loadReport, load, hraw, Exe450FileHeader.ofBytes_toBytes, hmagic, ne_eq,
        not_false_eq_true, if_true]
      rfl
    · simp only [load, hraw, Exe450FileHeader.ofBytes_toBytes, hmagic, ne_eq,
        not_false_eq_true, if_true]
      rfl

end Segments

section Newlines

theorem newline_not_mem_hex (width n : Nat) : NEWLINE ∉ hex width n :=
  newline_not_mem_digits (Nat.le_refl 16) (isNumeral_hex width n).2

theorem newline_not_mem_numeral (n : Nat) : NEWLINE ∉ numeral 10 n := by
  have hdigits : ∀ c ∈ numeral 10 n, isDigit 10 c = true :=
    fun _ hc => isDigit_of_mem_numeral (by omega) (by omega) hc
  exact newline_not_mem_digits (by omega) hdigits

theorem newline_not_mem_printHeader {header : Exe450FileHeader}
    (hcomment : NEWLINE ∉ cString header.commentString.toList) :
    ∀ line ∈ printExe450FileHeader header, NEWLINE ∉ line := by
  have hword : ∀ (value : UInt16), NEWLINE ∉ hex 4 value.toNat := fun value => newline_not_mem_hex 4 _
  have hverdict : NEWLINE ∉ ascii " (" ++
      (if header.magicNumber = 0xC3C3 then ascii "OK" else ascii "BAD Expecting 0xC3C3") ++
        ascii ")" := by
    split
    · decide
    · decide
  simp only [printExe450FileHeader, List.forall_mem_cons]
  refine ⟨by decide, ?_, ?_, ?_, ?_, ?_, ?_, ?_, ?_, nofun⟩
  · exact List.not_mem_append (by decide) (List.not_mem_append (hword _) hverdict)
  · exact List.not_mem_append (by decide)
      (List.not_mem_append (newline_not_mem_hex 2 _) (newline_not_mem_hex 2 _))
  · exact List.not_mem_append (by decide) (hword _)
  · exact List.not_mem_append (by decide) (hword _)
  · exact List.not_mem_append (by decide) (hword _)
  · exact List.not_mem_append (by decide) (newline_not_mem_numeral _)
  · exact List.not_mem_append (by decide) (newline_not_mem_numeral _)
  · exact List.not_mem_append (by decide) hcomment

theorem newline_not_mem_printSegHeaders (segmentCount segmentIndex : Nat)
    (headers : List Exe450CodeSegmentHeader) :
    ∀ line ∈ printSegHeaders segmentCount segmentIndex headers, NEWLINE ∉ line := by
  induction headers generalizing segmentIndex with
  | nil => nofun
  | cons header headers ih =>
      have htitle : NEWLINE ∉ segmentTitle segmentIndex segmentCount :=
        List.not_mem_append (List.not_mem_append (List.not_mem_append (List.not_mem_append (by decide)
          (newline_not_mem_numeral _)) (by decide)) (newline_not_mem_numeral _)) (by decide)
      rw [printSegHeaders, printExe450SegHeader]
      simp only [List.cons_append, List.nil_append, List.forall_mem_cons]
      refine ⟨htitle, ?_, ?_, ih (segmentIndex + 1)⟩
      · exact List.not_mem_append (by decide) (newline_not_mem_numeral _)
      · exact List.not_mem_append (by decide) (newline_not_mem_numeral _)

end Newlines

-- The lines about the two files say what has become of them.
theorem exists_tail (input : List UInt8) (dramDump imemDump : Dump) (files : Directory) :
    ∃ tail : List (List UInt8),
      mainReport 2 (some input) dramDump imemDump = loadReport input ++ tail ∧ tail.length < 3 ∧
      (∀ line ∈ tail, NEWLINE ∉ line) ∧
      tail.contains dramLine = decide ((load input).2 = none ∧ dramDump ≠ .openFailed) ∧
      tail.contains imemLine =
        decide ((main 2 (some input) dramDump imemDump files).2 = none) := by
  have hother : [dramLine].contains imemLine = false := by decide
  have hnone : ∀ line ∈ ([] : List (List UInt8)), NEWLINE ∉ line :=
    fun _ hmem => absurd hmem List.not_mem_nil
  simp only [mainReport, main, ne_eq, not_true_eq_false, if_false]
  cases hload : load input with
  | mk s failure =>
      cases failure with
      | some failure => exact ⟨[], rfl, by decide, hnone, by simp, by simp⟩
      | none =>
          cases dramDump with
          | openFailed =>
              refine ⟨[], rfl, by decide, hnone, by simp, ?_⟩
              simp [dumpFlatBuffers, dumpBuffer]
          | stored count =>
              cases imemDump with
              | openFailed =>
                  refine ⟨[dramLine], rfl, by decide, by decide, by simp, ?_⟩
                  rw [hother]
                  simp [dumpFlatBuffers, dumpBuffer]
              | stored count' =>
                  refine ⟨[dramLine, imemLine], rfl, by decide, by decide, by simp, ?_⟩
                  simp [dumpFlatBuffers, dumpBuffer]

-- The second segment is too long for the buffer.
def longSegmentHeader : Exe450FileHeader where
  magicNumber := 0xC3C3
  revHi := 1
  revLo := 2
  productID := 450
  initPC := 0
  imemDram := 0
  exeLengthLo := 24
  exeLengthHi := 0
  numSegments := 2
  reservedLo := 0
  reservedHi := 0
  commentString := (Vector.replicate 80 0).set 0 65

def longSegmentBytes : List UInt8 :=
  (Exe450CodeSegmentHeader.mk 4 0).toBytes ++ [1, 2, 3, 4] ++
    (Exe450CodeSegmentHeader.mk 0x10004 4).toBytes

end ReelMagic.Parse450
