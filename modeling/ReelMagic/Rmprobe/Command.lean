import ReelMagic.Rmprobe.Script

namespace ReelMagic.Rmprobe

open Library.CString
open ReelMagic.Recorder (FarPtr Regs)

-- The pointers of the last form of CALLRM. A name starts at `offset` in the line buffer.
inductive Pointer where
  | quoted (offset : Nat) (name : List UInt8)
  | cbfunc
  | strbuf
  | null
deriving DecidableEq

-- What a line says, on its own.
inductive Command where
  | comment
  | callrm (command mediaHandle subfunc param1 param2 : UInt16)
  | callrmHand (command slot subfunc param1 param2 : UInt16)
  | callrmPtr (command mediaHandle subfunc : UInt16) (ptr : Pointer)
  | callrms (function subfunc param1 param2 : UInt16)
  | callvbios (function param1 param2 param3 param4 : UInt16)
  | storvgamode
  | loadvgamode
  | storhand (slot : UInt16)
  | sleep (seconds : UInt16)
  | waitplay (mediaHandle sleepInterval : UInt16)
  | waitplayHand (slot sleepInterval : UInt16)
  | strbufaddr
  | strbufprint
  | strbufsetx (index value : UInt16)
  | strbufsets (text : List UInt8)
  | mutestdout (value : UInt16)
  | exit
deriving DecidableEq

def skipBlanks (linebuf : List UInt8) : List UInt8 := linebuf.dropWhile (· = BLANK)

def parsePointer (linebuf text : List UInt8) : Option Pointer :=
  match strchr text QUOTE with
  | some quote =>
      (strchr (quote.drop 1) QUOTE).map fun strend =>
        .quoted (linebuf.length - (quote.drop 1).length)
          ((quote.drop 1).take ((quote.drop 1).length - strend.length))
  | none =>
      if (strstr text (ascii "CBFUNC")).isSome then some .cbfunc
      else if (strstr text (ascii "STRBUF")).isSome then some .strbuf
      else if (strstr text (ascii "NULL")).isSome then some .null
      else none

def parseCallrm (linebuf text : List UInt8) : Option Command :=
  match scan "%X %X %X %X %X" text with
  | [command, mediaHandle, subfunc, param1, param2] =>
      some (.callrm command mediaHandle subfunc param1 param2)
  | _ =>
      match scan "%X HAND%X %X %X %X" text with
      | [command, slot, subfunc, param1, param2] =>
          some (.callrmHand command slot subfunc param1 param2)
      | _ =>
          match scan "%X %X %X " text with
          | [command, mediaHandle, subfunc] =>
              (parsePointer linebuf text).map (.callrmPtr command mediaHandle subfunc)
          | _ => none

def parseCallrms (text : List UInt8) : Option Command :=
  match scan "%X %X %X %X" text with
  | [function, subfunc, param1, param2] => some (.callrms function subfunc param1 param2)
  | _ => none

def parseCallvbios (text : List UInt8) : Option Command :=
  match scan "%X %X %X %X %X" text with
  | [function, param1, param2, param3, param4] =>
      some (.callvbios function param1 param2 param3 param4)
  | _ => none

def parseWaitplay (text : List UInt8) : Option Command :=
  match scan "HAND%u %u" text with
  | slot :: interval => some (.waitplayHand slot (interval.headD 0))
  | [] =>
      match scan "%u %u" text with
      | mediaHandle :: interval => some (.waitplay mediaHandle (interval.headD 0))
      | [] => none

-- One number after the keyword.
def parseNumber (format : String) (command : UInt16 → Command) (text : List UInt8) :
    Option Command :=
  match scan format text with
  | [param1] => some (command param1)
  | _ => none

def parseStrbufsetx (text : List UInt8) : Option Command :=
  match scan "%X %X" text with
  | [index, value] => some (.strbufsetx index value)
  | _ => none

-- The keywords, in the order they are tried.
def parse (linebuf : List UInt8) : Option Command :=
  let line := skipBlanks linebuf
  if line.head? = some HASH then some .comment
  else if line.head? = some RETURN then some .comment
  else if line.head? = some NEWLINE then some .comment
  else if strncasecmpEq line (ascii "CALLRM ") 7 then parseCallrm linebuf (line.drop 7)
  else if strncasecmpEq line (ascii "CALLRMS ") 8 then parseCallrms (line.drop 8)
  else if strncasecmpEq line (ascii "CALLVBIOS ") 10 then parseCallvbios (line.drop 10)
  else if strncasecmpEq line (ascii "STORVGAMODE") 11 then some .storvgamode
  else if strncasecmpEq line (ascii "LOADVGAMODE") 11 then some .loadvgamode
  else if strncasecmpEq line (ascii "STORHAND ") 9 then parseNumber "%X" .storhand (line.drop 9)
  else if strncasecmpEq line (ascii "SLEEP ") 6 then parseNumber "%u" .sleep (line.drop 6)
  else if strncasecmpEq line (ascii "WAITPLAY ") 9 then parseWaitplay (line.drop 9)
  else if strncasecmpEq line (ascii "STRBUFADDR") 10 then some .strbufaddr
  else if strncasecmpEq line (ascii "STRBUFPRINT") 11 then some .strbufprint
  else if strncasecmpEq line (ascii "STRBUFSETX ") 11 then parseStrbufsetx (line.drop 11)
  else if strncasecmpEq line (ascii "STRBUFSETS ") 11 then
    some (.strbufsets ((cutAt NEWLINE (cutAt RETURN line)).drop 11))
  else if strncasecmpEq line (ascii "MUTESTDOUT ") 11 then
    parseNumber "%X" .mutestdout (line.drop 11)
  else if strncasecmpEq line (ascii "EXIT") 4 then some .exit
  else if strncasecmpEq line (ascii "QUIT") 4 then some .exit
  else none

def Pointer.farPtr (layout : Layout) : Pointer → FarPtr
  | .quoted offset _ => ⟨layout.ds, layout.linebuf + UInt16.ofNat offset⟩
  | .cbfunc => layout.driverCallbackShim
  | .strbuf => ⟨layout.ds, layout.strbuf⟩
  | .null => ⟨0, 0⟩

-- The line buffer during the call: a name is followed by a NUL.
def Pointer.linebuf (linebuf : List UInt8) : Pointer → List UInt8
  | .quoted offset name => linebuf.set (offset + name.length) 0
  | _ => linebuf

def Command.exec (layout : Layout) (linebuf : List UInt8) (w : World) :
    Command → Except Stop (Int × World)
  | .comment => .ok (1, w)
  | .callrm command mediaHandle subfunc param1 param2 => do
      let (rv, w) ← callFmpdriver command.toUInt8 mediaHandle.toUInt8 subfunc param1 param2 linebuf w
      return (1, w.setLastCallRv rv)
  | .callrmHand command slot subfunc param1 param2 => do
      let handle ← handAt slot w
      let (rv, w) ← callFmpdriver command.toUInt8 handle subfunc param1 param2 linebuf w
      return (1, w.setLastCallRv rv)
  | .callrmPtr command mediaHandle subfunc ptr =>
      Rmprobe.callrmPtr command mediaHandle subfunc (ptr.farPtr layout) (ptr.linebuf linebuf) w
  | .callrms function subfunc param1 param2 => do
      let (rv, w) ← callRmdevsys function.toUInt8 subfunc param1 param2 linebuf w
      return (1, w.setLastCallRv rv.toUInt32)
  | .callvbios function param1 param2 param3 param4 => do
      let (rv, w) ← callVbios function.toUInt8 param1.toUInt8 param2 param3 param4 linebuf w
      return (1, w.setLastCallRv rv.toUInt32)
  | .storvgamode => Rmprobe.storvgamode linebuf w
  | .loadvgamode => Rmprobe.loadvgamode linebuf w
  | .storhand slot => storeHand (skipBlanks linebuf) slot w
  | .sleep seconds => .ok (1, logf .newline ((logf (.sleeping seconds) w).emit [.sleep seconds]))
  | .waitplay mediaHandle sleepInterval => do
      let w ← Rmprobe.waitplay mediaHandle.toUInt8 sleepInterval linebuf w
      return (1, w)
  | .waitplayHand slot sleepInterval => do
      let handle ← handAt slot w
      let w ← Rmprobe.waitplay handle sleepInterval linebuf w
      return (1, w)
  | .strbufaddr => .ok (1, logf (.strbufAddress layout.ds layout.strbuf) w)
  | .strbufprint => Rmprobe.strbufprint w
  | .strbufsetx index value => do
      let w ← storeStrbuf index value.toUInt8 w
      return (1, w)
  | .strbufsets text => do
      let w ← strcpyStrbuf text w
      return (1, w)
  | .mutestdout value => .ok (1, logf (.stdoutIs (value = 0)) { w with stdouton := value = 0 })
  | .exit => .ok (0, w)

-- A line that says nothing is a bad command.
def execParsed (layout : Layout) (linebuf : List UInt8) (w : World) :
    Option Command → Except Stop (Int × World)
  | none => badCommand (skipBlanks linebuf) w
  | some command => command.exec layout linebuf w

theorem skipBlanks_line (blanks : Nat) {line : List UInt8} (h : line.head? ≠ some BLANK) :
    skipBlanks (List.replicate blanks BLANK ++ line) = line := by
  have hall : ∀ c ∈ List.replicate blanks BLANK, decide (c = BLANK) = true := by
    intro c hc
    rw [List.eq_of_mem_replicate hc]
    rfl
  rw [skipBlanks, List.dropWhile_append_of_pos hall]
  cases line with
  | nil => rfl
  | cons c line =>
      refine List.dropWhile_cons_of_neg ?_
      rw [decide_eq_true_eq]
      rintro rfl
      exact h rfl

theorem strchr_length_le {s found : List UInt8} {c : UInt8} (h : strchr s c = some found) :
    found.length ≤ s.length := by
  obtain ⟨before, after, rfl, rfl, _⟩ := strchr_eq_some h
  rw [List.length_append]
  omega

section

variable (layout : Layout) (linebuf : List UInt8) (w : World)

theorem callrmWithPtr_eq (command mediaHandle subfunc : UInt16) :
    callrmWithPtr layout command mediaHandle subfunc linebuf (skipBlanks linebuf) w =
      execParsed layout linebuf w ((parsePointer linebuf ((skipBlanks linebuf).drop 7)).map
        (.callrmPtr command mediaHandle subfunc)) := by
  have hline : (skipBlanks linebuf).length ≤ linebuf.length := (List.dropWhile_sublist _).length_le
  unfold callrmWithPtr parsePointer
  cases hquote : strchr ((skipBlanks linebuf).drop 7) QUOTE with
  | some quote =>
      dsimp only
      cases hend : strchr (quote.drop 1) QUOTE with
      | none => rfl
      | some strend =>
          have hle := strchr_length_le hquote
          have hle' := strchr_length_le hend
          simp only [List.length_drop] at hle hle'
          -- the name ends where the closing quote is
          have hpos : linebuf.length - strend.length =
              linebuf.length - (quote.drop 1).length +
                ((quote.drop 1).take ((quote.drop 1).length - strend.length)).length := by
            simp only [List.length_take, List.length_drop]
            omega
          simp only [Option.map_some, execParsed, Command.exec, Pointer.farPtr, Pointer.linebuf, hpos]
  | none =>
      dsimp only
      split_ifs <;> rfl

theorem callrm_eq :
    callrm layout linebuf (skipBlanks linebuf) w =
      execParsed layout linebuf w (parseCallrm linebuf ((skipBlanks linebuf).drop 7)) := by
  unfold callrm parseCallrm
  generalize scan "%X %X %X %X %X" ((skipBlanks linebuf).drop 7) = numbers
  generalize scan "%X HAND%X %X %X %X" ((skipBlanks linebuf).drop 7) = handNumbers
  generalize scan "%X %X %X " ((skipBlanks linebuf).drop 7) = ptrNumbers
  split
  · rfl
  · try simp only
    split
    · rfl
    · try simp only
      split
      · exact callrmWithPtr_eq layout linebuf w _ _ _
      · simp only [execParsed]

theorem callrms_eq :
    callrms linebuf (skipBlanks linebuf) w =
      execParsed layout linebuf w (parseCallrms ((skipBlanks linebuf).drop 8)) := by
  unfold callrms parseCallrms
  generalize scan "%X %X %X %X" ((skipBlanks linebuf).drop 8) = numbers
  split
  · rfl
  · simp only [execParsed]

theorem callvbios_eq :
    callvbios linebuf (skipBlanks linebuf) w =
      execParsed layout linebuf w (parseCallvbios ((skipBlanks linebuf).drop 10)) := by
  unfold callvbios parseCallvbios
  generalize scan "%X %X %X %X %X" ((skipBlanks linebuf).drop 10) = numbers
  split
  · rfl
  · simp only [execParsed]

theorem storhand_eq :
    storhand (skipBlanks linebuf) w =
      execParsed layout linebuf w (parseNumber "%X" .storhand ((skipBlanks linebuf).drop 9)) := by
  unfold storhand parseNumber
  generalize scan "%X" ((skipBlanks linebuf).drop 9) = numbers
  split
  · rfl
  · simp only [execParsed]

theorem sleepFor_eq :
    sleepFor (skipBlanks linebuf) w =
      execParsed layout linebuf w (parseNumber "%u" .sleep ((skipBlanks linebuf).drop 6)) := by
  unfold sleepFor parseNumber
  generalize scan "%u" ((skipBlanks linebuf).drop 6) = numbers
  split
  · rfl
  · simp only [execParsed]

theorem waitplayLine_eq :
    waitplayLine linebuf (skipBlanks linebuf) w =
      execParsed layout linebuf w (parseWaitplay ((skipBlanks linebuf).drop 9)) := by
  unfold waitplayLine parseWaitplay
  generalize scan "HAND%u %u" ((skipBlanks linebuf).drop 9) = handNumbers
  generalize scan "%u %u" ((skipBlanks linebuf).drop 9) = numbers
  cases handNumbers with
  | cons _ _ => rfl
  | nil => cases numbers <;> rfl

theorem strbufsetx_eq :
    strbufsetx (skipBlanks linebuf) w =
      execParsed layout linebuf w (parseStrbufsetx ((skipBlanks linebuf).drop 11)) := by
  unfold strbufsetx parseStrbufsetx
  generalize scan "%X %X" ((skipBlanks linebuf).drop 11) = numbers
  split
  · rfl
  · simp only [execParsed]

theorem mutestdout_eq :
    mutestdout (skipBlanks linebuf) w =
      execParsed layout linebuf w (parseNumber "%X" .mutestdout ((skipBlanks linebuf).drop 11)) := by
  unfold mutestdout parseNumber
  generalize scan "%X" ((skipBlanks linebuf).drop 11) = numbers
  split
  · rfl
  · simp only [execParsed]

-- A test for a keyword runs the same branch on both sides.
theorem ite_execParsed {c : Prop} [Decidable c] {yes no : Except Stop (Int × World)}
    {yesCommand noCommand : Option Command} (hyes : yes = execParsed layout linebuf w yesCommand)
    (hno : no = execParsed layout linebuf w noCommand) :
    (if c then yes else no) = execParsed layout linebuf w (if c then yesCommand else noCommand) := by
  split
  · exact hyes
  · exact hno

-- The interpreter runs what the line says.
theorem processScriptLine_eq :
    processScriptLine layout linebuf w = execParsed layout linebuf w (parse linebuf) := by
  refine ite_execParsed _ _ _ rfl ?_
  refine ite_execParsed _ _ _ rfl ?_
  refine ite_execParsed _ _ _ rfl ?_
  refine ite_execParsed _ _ _ (callrm_eq layout linebuf w) ?_
  refine ite_execParsed _ _ _ (callrms_eq layout linebuf w) ?_
  refine ite_execParsed _ _ _ (callvbios_eq layout linebuf w) ?_
  refine ite_execParsed _ _ _ rfl ?_
  refine ite_execParsed _ _ _ rfl ?_
  refine ite_execParsed _ _ _ (storhand_eq layout linebuf w) ?_
  refine ite_execParsed _ _ _ (sleepFor_eq layout linebuf w) ?_
  refine ite_execParsed _ _ _ (waitplayLine_eq layout linebuf w) ?_
  refine ite_execParsed _ _ _ rfl ?_
  refine ite_execParsed _ _ _ rfl ?_
  refine ite_execParsed _ _ _ (strbufsetx_eq layout linebuf w) ?_
  refine ite_execParsed _ _ _ rfl ?_
  refine ite_execParsed _ _ _ (mutestdout_eq layout linebuf w) ?_
  refine ite_execParsed _ _ _ rfl ?_
  exact ite_execParsed _ _ _ rfl rfl

end

end ReelMagic.Rmprobe
