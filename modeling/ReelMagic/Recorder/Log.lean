import ReelMagic.Library.Frames
import ReelMagic.Recorder

namespace ReelMagic.Recorder

open Library Library.Bytes

-- The records of a log, described on their own.
inductive Record where
  | fmpdrvCallEnter (regs : Regs)
  | filename (bytes : Vector UInt8 128)
  | fmpdrvCallExit (regs : Regs)
  | rmdevsysCallEnter (regs : Regs)
  | rmdevsysCallExit (regs : Regs)
  | callbackRegs (regs : Regs)
  | callbackStack (callargs : CallArgs)

def callBytes (tag : UInt16) (regs : Regs) : List UInt8 :=
  [tag, regs.ax, regs.bx, regs.cx, regs.dx].flatMap bytes16

def stackWords (callargs : CallArgs) : Regs :=
  ⟨callargs.arg0, callargs.arg1, callargs.arg2, callargs.arg3⟩

def Record.toBytes : Record → List UInt8
  | .fmpdrvCallEnter regs => callBytes 0x0000 regs
  | .filename bytes => bytes16 0x0001 ++ bytes.toList
  | .fmpdrvCallExit regs => callBytes 0xFFFF regs
  | .rmdevsysCallEnter regs => callBytes 0x2F00 regs
  | .rmdevsysCallExit regs => callBytes 0x2FFF regs
  | .callbackRegs regs => callBytes 0x0B00 regs
  | .callbackStack callargs => callBytes 0x0B01 (stackWords callargs)

def Event.records : Event → List Record
  | .fmpdrvCallEnter regs filename =>
      .fmpdrvCallEnter regs :: if regs.bx >>> 8 = 1 then [.filename filename] else []
  | .fmpdrvCallExit regs => [.fmpdrvCallExit regs]
  | .rmdevsysCallEnter regs => [.rmdevsysCallEnter regs]
  | .rmdevsysCallExit regs => [.rmdevsysCallExit regs]
  | .callbackEnter regs callargs => [.callbackRegs regs, .callbackStack callargs]

-- How many bytes an append stores of its record at most. None are stored in a file that is not
-- opened.
def Append.count : Append → Nat
  | .openFailed => 0
  | .stored count => count

-- The appends that the recorder makes of an event.
def Event.appends (event : Event) (append append' : Append) : List (Record × Nat) :=
  event.records.zip [append.count, append'.count]

@[simp] theorem callBytes_length (tag : UInt16) (regs : Regs) : (callBytes tag regs).length = 10 :=
  rfl

theorem setEntryBuf_take (tag : UInt16) (regs : Regs) (s : Statics) :
    (setEntryBuf tag regs s).entryBuf.toList.take 5 = [tag, regs.ax, regs.bx, regs.cx, regs.dx] := by
  have hlen : s.entryBuf.toList.length = 65 := s.entryBuf.length_toList
  obtain ⟨w0, w1, w2, w3, w4, rest, h⟩ :
      ∃ w0 w1 w2 w3 w4 rest, s.entryBuf.toList = w0 :: w1 :: w2 :: w3 :: w4 :: rest := by
    match s.entryBuf.toList, hlen with
    | w0 :: w1 :: w2 :: w3 :: w4 :: rest, _ => exact ⟨w0, w1, w2, w3, w4, rest, rfl⟩
  simp [setEntryBuf, setTag, setEntryBufRegs, Vector.toList_set, h]

theorem writeEntryBufToLog_log (words : Nat) (append : Append) (s : Statics) :
    (writeEntryBufToLog words append s).log =
      s.log ++ ((s.entryBuf.toList.take words).flatMap bytes16).take append.count := by
  cases append with
  | openFailed => exact (List.append_nil s.log).symm
  | stored count => rfl

theorem writeEntryBufToLog_call (tag : UInt16) (regs : Regs) (append : Append) (s : Statics) :
    (writeEntryBufToLog 5 append (setEntryBuf tag regs s)).log =
      s.log ++ (callBytes tag regs).take append.count := by
  rw [writeEntryBufToLog_log, setEntryBuf_take]
  rfl

theorem writeEntryBufToLog_filename (bytes : Vector UInt8 128) (append : Append) (s : Statics) :
    (writeEntryBufToLog 65 append (copyToEntryBuf bytes (setTag 0x0001 s))).log =
      s.log ++ (bytes16 0x0001 ++ bytes.toList).take append.count := by
  have hwords := words16_length bytes.toList
  rw [Vector.length_toList] at hwords
  have hbytes : (words16 bytes.toList).flatMap bytes16 = bytes.toList :=
    flatMap_bytes16_words16 _ (by rw [Vector.length_toList])
  have htake : (copyToEntryBuf bytes (setTag 0x0001 s)).entryBuf.toList.take 65 =
      0x0001 :: words16 bytes.toList := by
    rw [List.take_of_length_le (by simp)]
    simp [copyToEntryBuf, setTag]
  rw [writeEntryBufToLog_log, htake, List.flatMap_cons, hbytes]
  rfl

theorem Event.stored_of_single {event : Event} {record : Record} (h : event.records = [record])
    (append append' : Append) : (event.appends append append').flatMap (stored Record.toBytes) =
      record.toBytes.take append.count := by
  rw [Event.appends, h]
  exact List.flatMap_singleton _ _

-- Whatever becomes of the appends of an event, each stores the front of its own record.
theorem record_appends_log (append append' : Append) (s : Statics) (event : Event) :
    (record append append' s event).log =
      s.log ++ (event.appends append append').flatMap (stored Record.toBytes) := by
  cases event with
  | fmpdrvCallEnter regs filename =>
      have hcall := writeEntryBufToLog_call 0x0000 regs append s
      simp only [record, recordFmpdrvCallEnter, Event.appends, Event.records]
      split
      · rename_i h
        have hbh : regs.bx >>> 8 = 1 := UInt16.toNat_inj.mp h
        rw [writeEntryBufToLog_filename, hcall, if_pos hbh, List.append_assoc]
        simp [stored, Record.toBytes]
      · rename_i h
        have hbh : regs.bx >>> 8 ≠ 1 := by
          intro hone
          rw [hone] at h
          exact absurd h (by decide)
        rw [hcall, if_neg hbh]
        simp [stored, Record.toBytes]
      · rename_i h _
        have hbh : regs.bx >>> 8 ≠ 1 := fun hone => h (congrArg UInt16.toNat hone)
        rw [hcall, if_neg hbh]
        simp [stored, Record.toBytes]
  | fmpdrvCallExit regs =>
      have hcall := writeEntryBufToLog_call 0xFFFF regs append s
      rw [Event.stored_of_single rfl, Record.toBytes]
      simp only [record, recordFmpdrvCallExit]
      split
      · exact hcall
      · exact hcall
  | rmdevsysCallEnter regs =>
      rw [Event.stored_of_single rfl, Record.toBytes]
      exact writeEntryBufToLog_call 0x2F00 regs append s
  | rmdevsysCallExit regs =>
      rw [Event.stored_of_single rfl, Record.toBytes]
      exact writeEntryBufToLog_call 0x2FFF regs append s
  | callbackEnter regs callargs =>
      simp only [record, recordCallbackEnter]
      rw [writeEntryBufToLog_call, writeEntryBufToLog_call, List.append_assoc]
      simp [Event.appends, Event.records, stored, Record.toBytes, stackWords]

theorem Record.toBytes_length_le (record : Record) : record.toBytes.length ≤ 130 := by
  cases record with
  | filename bytes => simp [Record.toBytes]
  | fmpdrvCallEnter | fmpdrvCallExit | rmdevsysCallEnter | rmdevsysCallExit | callbackRegs
  | callbackStack => exact Nat.le_of_ble_eq_true rfl

theorem Event.records_length_le (event : Event) : event.records.length ≤ 2 := by
  cases event with
  | fmpdrvCallEnter regs filename =>
      rw [Event.records]
      split
      · exact Nat.le_refl 2
      · exact Nat.le_succ 1
  | fmpdrvCallExit | rmdevsysCallEnter | rmdevsysCallExit => exact Nat.le_succ 1
  | callbackEnter => exact Nat.le_refl 2

-- Each record of an event is appended once.
theorem Event.appends_records (event : Event) (append append' : Append) :
    (event.appends append append').map Prod.fst = event.records :=
  List.map_fst_zip event.records_length_le

theorem record_log (s : Statics) (event : Event) :
    (record .full .full s event).log = s.log ++ event.records.flatMap Record.toBytes := by
  have hwhole : ∀ entry ∈ event.appends .full .full,
      stored Record.toBytes entry = entry.1.toBytes := by
    rintro ⟨record, count⟩ hmem
    obtain ⟨_, hcount⟩ := List.of_mem_zip hmem
    have hfull : count = 130 := by simpa [Append.count, Append.full] using hcount
    rw [stored, hfull, List.take_of_length_le record.toBytes_length_le]
  rw [record_appends_log, List.flatMap_congr hwhole, ← event.appends_records .full .full,
    List.flatMap_map]

theorem recordAll_log (events : List Event) :
    (recordAll events).log = (events.flatMap Event.records).flatMap Record.toBytes := by
  have hfold : ∀ s : Statics, (events.foldl (record .full .full) s).log =
      s.log ++ (events.flatMap Event.records).flatMap Record.toBytes := by
    induction events with
    | nil => exact fun s => (List.append_nil s.log).symm
    | cons event events ih =>
        intro s
        rw [List.foldl_cons, ih, record_log, List.append_assoc, List.flatMap_cons,
          List.flatMap_append]
  exact hfold .start

end ReelMagic.Recorder
