import ReelMagic.Analyze
import ReelMagic.Library.Frames
import ReelMagic.Recorder.Log

namespace ReelMagic.Analyze

open Library Library.Bytes Library.CString Library.Stdio ReelMagic.Recorder

variable {w : Nat}

-- The line that belongs to a record.
def entryOf : Record → Entry
  | .fmpdrvCallEnter regs =>
      .driverCall (regs.bx >>> 8) (regs.bx &&& 0xFF) regs.cx regs.ax regs.dx
  | .filename bytes => .filename (bytes.toList.takeWhile (· ≠ 0))
  | .fmpdrvCallExit regs => .driverReturn regs.dx regs.ax regs.bx regs.cx
  | .rmdevsysCallEnter regs => .rmdevsysCall regs.ax regs.bx regs.cx regs.dx
  | .rmdevsysCallExit regs => .rmdevsysReturn regs.ax regs.bx regs.cx regs.dx
  | .callbackRegs regs => .callbackReg regs.ax regs.bx regs.cx regs.dx
  | .callbackStack callargs =>
      .callbackStk callargs.arg0 callargs.arg1 callargs.arg2 callargs.arg3

-- What one round of the loop does on a record.
def printRecord (record : Record) (s : State w) : State w :=
  match record with
  | .fmpdrvCallEnter _ => incIndent (printfi (entryOf record) s)
  | .rmdevsysCallEnter _ => incIndent (printfi (entryOf record) s)
  | .fmpdrvCallExit _ => printfi (entryOf record) (decIndent s)
  | .rmdevsysCallExit _ => printfi (entryOf record) (decIndent s)
  | _ => printfi (entryOf record) s

theorem decodeLoop_of_some {s next : State w} (h : decodeStep s = some next) :
    decodeLoop s = decodeLoop next := by
  rw [decodeLoop]
  split
  · rename_i hn
    rw [h] at hn
    cases hn
  · rename_i other ho
    rw [h] at ho
    rw [Option.some.inj ho]

theorem decodeLoop_of_none {s : State w} (h : decodeStep s = none) : decodeLoop s = s := by
  rw [decodeLoop]
  split
  · rfl
  · rename_i next hn
    rw [h] at hn
    cases hn

theorem decodeStep_of_short {s : State w} (h : s.fp.length < 10) : decodeStep s = none := by
  rw [decodeStep, fread_short _ _ h]

theorem fread_ten (raw rest : List UInt8) (h : raw.length = 10) :
    fread (5 * 2) (raw ++ rest) = (some raw, rest) :=
  (fread_eq_some_iff _ _ _ _).mpr ⟨by decide, h, rfl⟩

theorem decodeStep_append (raw rest : List UInt8) (h : raw.length = 10) (s : State w) :
    decodeStep { s with fp := raw ++ rest } = some (switchRecord raw { s with fp := rest }) := by
  simp only [decodeStep, fread_ten raw rest h]

section

variable (tag : UInt16) (regs : Regs)

@[simp] theorem bufWord_tag : bufWord (callBytes tag regs) 0 = tag := word16_bytes16 tag

@[simp] theorem bufWord_ax : bufWord (callBytes tag regs) 1 = regs.ax := word16_bytes16 regs.ax

@[simp] theorem bufWord_bx : bufWord (callBytes tag regs) 2 = regs.bx := word16_bytes16 regs.bx

@[simp] theorem bufWord_cx : bufWord (callBytes tag regs) 3 = regs.cx := word16_bytes16 regs.cx

@[simp] theorem bufWord_dx : bufWord (callBytes tag regs) 4 = regs.dx := word16_bytes16 regs.dx

end

-- The first read takes the tag and eight bytes of the name, the second one the others.
theorem filename_split (bytes : Vector UInt8 128) (rest : List UInt8) :
    (bytes16 0x0001 ++ bytes.toList) ++ rest =
      (bytes16 0x0001 ++ bytes.toList.take 8) ++ (bytes.toList.drop 8 ++ rest) := by
  rw [List.append_assoc, List.append_assoc, ← List.append_assoc (bytes.toList.take 8),
    List.take_append_drop]

theorem filename_front_length (bytes : Vector UInt8 128) :
    (bytes16 0x0001 ++ bytes.toList.take 8).length = 10 := by
  simp [List.length_take]

theorem decodeStep_filename (bytes : Vector UInt8 128) (rest : List UInt8) (s : State w) :
    decodeStep { s with fp := (bytes16 0x0001 ++ bytes.toList) ++ rest } =
      some (printFilename (bytes16 0x0001 ++ bytes.toList.take 8)
        { s with fp := bytes.toList.drop 8 ++ rest }) := by
  rw [filename_split, decodeStep_append _ _ (filename_front_length bytes)]
  rfl

theorem printFilename_whole (bytes : Vector UInt8 128) (rest : List UInt8) (s : State w) :
    printFilename (bytes16 0x0001 ++ bytes.toList.take 8)
      { s with fp := bytes.toList.drop 8 ++ rest } =
      printfi (.filename (bytes.toList.takeWhile (· ≠ 0))) { s with fp := rest } := by
  have hlen : (bytes.toList.drop 8).length = (65 - 5) * 2 := by
    rw [List.length_drop, Vector.length_toList]
  have hread : fread ((65 - 5) * 2) (bytes.toList.drop 8 ++ rest) =
      (some (bytes.toList.drop 8), rest) :=
    (fread_eq_some_iff _ _ _ _).mpr ⟨by decide, hlen, rfl⟩
  have hname : (bytes16 0x0001 ++ bytes.toList.take 8).drop 2 ++ bytes.toList.drop 8 =
      bytes.toList := List.take_append_drop 8 bytes.toList
  have hstring : cString (bytes.toList.take 128) = bytes.toList.takeWhile (· ≠ 0) := by
    rw [cString, List.take_of_length_le (by rw [Vector.length_toList])]
  simp only [printFilename, hread, hname, hstring]

-- A record at the front of the log is read whole, and printed.
theorem decodeStep_record (record : Record) (rest : List UInt8) (s : State w) :
    decodeStep { s with fp := record.toBytes ++ rest } =
      some (printRecord record { s with fp := rest }) := by
  cases record
  case filename bytes =>
    rw [Record.toBytes, decodeStep_filename, printFilename_whole]
    rfl
  all_goals
    rw [Record.toBytes, decodeStep_append _ _ (callBytes_length _ _), switchRecord]
    simp only [bufWord_tag, bufWord_ax, bufWord_bx, bufWord_cx, bufWord_dx]
    rfl

-- Nothing of a record that was cut short is printed, not even of one that the loop enters.
theorem decodeLoop_cut (tail : List UInt8) (s : State w) (h : IsCut Record.toBytes tail) :
    (decodeLoop { s with fp := tail }).printed = s.printed := by
  by_cases hshort : tail.length < 10
  · rw [decodeLoop_of_none (decodeStep_of_short hshort)]
  · rcases h with hnil | ⟨record, n, hn, htail⟩
    · rw [hnil] at hshort
      exact absurd (Nat.zero_lt_succ 9) hshort
    · rw [htail, List.length_take] at hshort
      cases record
      case filename bytes =>
        have hlen : (Record.filename bytes).toBytes.length = 130 := by
          simp [Record.toBytes]
        obtain ⟨m, rfl⟩ : ∃ m, n = 10 + m := ⟨n - 10, by omega⟩
        have hsplit : tail = (bytes16 0x0001 ++ bytes.toList.take 8) ++ (bytes.toList.drop 8).take m := by
          rw [htail, List.take_add]
          rfl
        have hraw := filename_front_length bytes
        have hrest : ((bytes.toList.drop 8).take m).length < (65 - 5) * 2 := by
          rw [List.length_take]
          omega
        have hprint : switchRecord (bytes16 0x0001 ++ bytes.toList.take 8)
            { s with fp := (bytes.toList.drop 8).take m } = { s with fp := [] } := by
          show printFilename _ _ = _
          rw [printFilename, fread_short _ _ hrest]
        rw [hsplit, decodeLoop_of_some (decodeStep_append _ _ hraw s), hprint,
          decodeLoop_of_none (decodeStep_of_short (by simp))]
      all_goals
        rw [Record.toBytes, callBytes_length] at hn
        omega

theorem decIndent_with_fp (fp : List UInt8) (s : State w) :
    decIndent { s with fp := fp } = { decIndent s with fp := fp } := by
  unfold decIndent
  split
  · rfl
  · rfl

theorem decIndent_printed (s : State w) : (decIndent s).printed = s.printed := by
  unfold decIndent
  split
  · rfl
  · rfl

theorem printRecord_with_fp (record : Record) (fp : List UInt8) (s : State w) :
    printRecord record { s with fp := fp } = { printRecord record s with fp := fp } := by
  cases record <;> simp [printRecord, printfi, incIndent, decIndent_with_fp]

theorem printRecord_printed (record : Record) (s : State w) :
    (printRecord record s).printed.map Line.entry = s.printed.map Line.entry ++ [entryOf record] := by
  cases record <;> simp [printRecord, printfi, incIndent, decIndent_printed]

def printAll (records : List Record) (s : State w) : State w :=
  records.foldl (fun s record => printRecord record s) s

@[simp] theorem printAll_cons (record : Record) (records : List Record) (s : State w) :
    printAll (record :: records) s = printAll records (printRecord record s) := rfl

theorem printAll_append (records more : List Record) (s : State w) :
    printAll (records ++ more) s = printAll more (printAll records s) := List.foldl_append

theorem printAll_printed (records : List Record) (s : State w) :
    (printAll records s).printed.map Line.entry = s.printed.map Line.entry ++ records.map entryOf := by
  induction records generalizing s with
  | nil => exact (List.append_nil _).symm
  | cons record records ih =>
      rw [printAll_cons, ih, printRecord_printed, List.append_assoc, List.map_cons,
        List.singleton_append]

-- The loop goes through the records one by one and on to what follows them.
theorem decodeLoop_append (records : List Record) (rest : List UInt8) (s : State w) :
    decodeLoop { s with fp := records.flatMap Record.toBytes ++ rest } =
      decodeLoop { printAll records s with fp := rest } := by
  induction records generalizing s with
  | nil => rfl
  | cons record records ih =>
      rw [List.flatMap_cons, List.append_assoc, decodeLoop_of_some (decodeStep_record _ _ s),
        printRecord_with_fp, ih, printAll_cons]

theorem decodeLoop_records (records : List Record) (tail : List UInt8)
    (h : IsCut Record.toBytes tail) (s : State w) :
    (decodeLoop { s with fp := records.flatMap Record.toBytes ++ tail }).printed.map Line.entry =
      s.printed.map Line.entry ++ records.map entryOf := by
  rw [decodeLoop_append, decodeLoop_cut tail _ h, printAll_printed]

theorem entryOf_ne_unknown (record : Record) (tag ax bx cx dx : UInt16) :
    entryOf record ≠ .unknown tag ax bx cx dx := by
  intro h
  cases record <;> cases h

-- Of a log cut anywhere, `analyze` prints the records that are whole, each as what it is.
theorem analyze_take_log (w : Nat) (events : List Event) (n : Nat) :
    (analyze w ((recordAll events).log.take n)).map Line.entry =
      (whole Record.toBytes n (events.flatMap Event.records)).map entryOf ∧
    ∀ line ∈ analyze w ((recordAll events).log.take n), ∀ tag ax bx cx dx,
      line.entry ≠ .unknown tag ax bx cx dx := by
  have hlines : (analyze w ((recordAll events).log.take n)).map Line.entry =
      (whole Record.toBytes n (events.flatMap Event.records)).map entryOf := by
    obtain ⟨tail, htake, hcut⟩ := take_flatMap Record.toBytes n (events.flatMap Event.records)
    rw [recordAll_log, htake]
    exact decodeLoop_records _ tail hcut ⟨[], 0, []⟩
  refine ⟨hlines, ?_⟩
  intro line hline tag ax bx cx dx hunknown
  have hmem : line.entry ∈ (analyze w ((recordAll events).log.take n)).map Line.entry :=
    List.mem_map.mpr ⟨line, hline, rfl⟩
  rw [hlines, hunknown] at hmem
  obtain ⟨record, _, hrecord⟩ := List.mem_map.mp hmem
  exact entryOf_ne_unknown record tag ax bx cx dx hrecord

end ReelMagic.Analyze
