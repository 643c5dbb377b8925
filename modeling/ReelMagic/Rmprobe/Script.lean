import ReelMagic.Library.Lines
import ReelMagic.Library.Scanf
import ReelMagic.Rmprobe

namespace ReelMagic.Rmprobe

open Library.CString Library.Lines Library.Scanf
open ReelMagic.Recorder (FarPtr Regs)

abbrev RETURN : UInt8 := 13
abbrev BLANK : UInt8 := 32
abbrev QUOTE : UInt8 := 34
abbrev HASH : UInt8 := 35

-- Where things are: the data segment, the offsets of `linebuf` and `_strbuf` in it, what
-- `build_driver_callback_shim` returns, and the buffer `log_rmdriver_location` has on the stack.
structure Layout where
  ds : UInt16
  linebuf : UInt16
  strbuf : UInt16
  driverCallbackShim : FarPtr
  loc : FarPtr

def sampleLayout : Layout := ⟨0x1000, 0x0100, 0x0200, ⟨0x0800, 0x0040⟩, ⟨0x1000, 0x0F00⟩⟩

-- `sscanf` into variables of type `unsigned`.
def scan (format : String) (text : List UInt8) : List UInt16 :=
  (sscanf (directives format.toList) text).map UInt16.ofInt

def badCommand (line : List UInt8) (w : World) : Except Stop (Int × World) :=
  .ok (-1, logf (.badCommand line) w)

def World.setLastCallRv (rv : UInt32) (w : World) : World :=
  { w with vars := { w.vars with lastCallRv := rv } }

def World.setLastVgaMode (mode : UInt8) (w : World) : World :=
  { w with vars := { w.vars with lastVgaMode := mode } }

-- `_hand[i]`.
def handAt (i : UInt16) (w : World) : Except Stop UInt8 :=
  if h : i.toNat < 5 then .ok (w.vars.hand ⟨i.toNat, h⟩) else .error (.handIndex i.toNat)

-- `_strbuf[i] = c`.
def storeStrbuf (i : UInt16) (c : UInt8) (w : World) : Except Stop World :=
  if h : i.toNat < 512 then
    .ok { w with vars := { w.vars with strbuf := Function.update w.vars.strbuf ⟨i.toNat, h⟩ c } }
  else .error (.strbufStore i.toNat)

-- `strcpy(_strbuf, text)`, the NUL included.
def strcpyStrbuf (text : List UInt8) (w : World) : Except Stop World :=
  if text.length < 512 then
    .ok { w with vars := { w.vars with
      strbuf := fun i => ((text ++ [0])[i.val]?).getD (w.vars.strbuf i) } }
  else .error (.strbufStore 512)

def callrmPtr (command mediaHandle subfunc : UInt16) (ptr : FarPtr) (linebuf : List UInt8)
    (w : World) : Except Stop (Int × World) := do
  let (rv, w) ← callFmpdriverPtr command.toUInt8 mediaHandle.toUInt8 subfunc ptr linebuf w
  return (1, w.setLastCallRv rv)

-- The pointer of the last form. A quoted string is cut off at its closing quote, in the line
-- buffer itself.
def callrmWithPtr (layout : Layout) (command mediaHandle subfunc : UInt16) (linebuf line : List UInt8)
    (w : World) : Except Stop (Int × World) :=
  match strchr (line.drop 7) QUOTE with
  | some quote =>
      let strstart := quote.drop 1
      match strchr strstart QUOTE with
      | none => badCommand line w
      | some strend =>
          callrmPtr command mediaHandle subfunc
            ⟨layout.ds, layout.linebuf + UInt16.ofNat (linebuf.length - strstart.length)⟩
            (linebuf.set (linebuf.length - strend.length) 0) w
  | none =>
      if (strstr (line.drop 7) (ascii "CBFUNC")).isSome then
        callrmPtr command mediaHandle subfunc layout.driverCallbackShim linebuf w
      else if (strstr (line.drop 7) (ascii "STRBUF")).isSome then
        callrmPtr command mediaHandle subfunc ⟨layout.ds, layout.strbuf⟩ linebuf w
      else if (strstr (line.drop 7) (ascii "NULL")).isSome then
        callrmPtr command mediaHandle subfunc ⟨0, 0⟩ linebuf w
      else badCommand line w

def callrm (layout : Layout) (linebuf line : List UInt8) (w : World) : Except Stop (Int × World) :=
  match scan "%X %X %X %X %X" (line.drop 7) with
  | [command, mediaHandle, subfunc, param1, param2] => do
      let (rv, w) ← callFmpdriver command.toUInt8 mediaHandle.toUInt8 subfunc param1 param2 linebuf w
      return (1, w.setLastCallRv rv)
  | _ =>
      match scan "%X HAND%X %X %X %X" (line.drop 7) with
      | [command, mediaHandle, subfunc, param1, param2] => do
          let handle ← handAt mediaHandle w
          let (rv, w) ← callFmpdriver command.toUInt8 handle subfunc param1 param2 linebuf w
          return (1, w.setLastCallRv rv)
      | _ =>
          match scan "%X %X %X " (line.drop 7) with
          | [command, mediaHandle, subfunc] =>
              callrmWithPtr layout command mediaHandle subfunc linebuf line w
          | _ => badCommand line w

def callrms (linebuf line : List UInt8) (w : World) : Except Stop (Int × World) :=
  match scan "%X %X %X %X" (line.drop 8) with
  | [command, subfunc, param1, param2] => do
      let (rv, w) ← callRmdevsys command.toUInt8 subfunc param1 param2 linebuf w
      return (1, w.setLastCallRv rv.toUInt32)
  | _ => badCommand line w

def callvbios (linebuf line : List UInt8) (w : World) : Except Stop (Int × World) :=
  match scan "%X %X %X %X %X" (line.drop 10) with
  | [command, mediaHandle, subfunc, param1, param2] => do
      let (rv, w) ← callVbios command.toUInt8 mediaHandle.toUInt8 subfunc param1 param2 linebuf w
      return (1, w.setLastCallRv rv.toUInt32)
  | _ => badCommand line w

def storvgamode (linebuf : List UInt8) (w : World) : Except Stop (Int × World) := do
  let (rv, w) ← callVbios 0xf 0 0 0 0 linebuf w
  return (1, logf (.vgaModeStored rv.toUInt8) (w.setLastVgaMode rv.toUInt8))

def loadvgamode (linebuf : List UInt8) (w : World) : Except Stop (Int × World) := do
  let (rv, w) ← callVbios 0x0 w.vars.lastVgaMode 0 0 0 linebuf w
  return (1, logf (.vgaModeRestored rv.toUInt8) (w.setLastVgaMode rv.toUInt8))

def storeHand (line : List UInt8) (param1 : UInt16) (w : World) : Except Stop (Int × World) :=
  if h : param1.toNat < 5 then
    if w.vars.lastCallRv &&& 0xFF = 0 then .ok (-1, logf .lastCallFailed w)
    else
      let handle := (w.vars.lastCallRv &&& 0xFF).toUInt8
      let w := { w with vars :=
        { w.vars with hand := Function.update w.vars.hand ⟨param1.toNat, h⟩ handle } }
      .ok (1, logf (.handleStored handle param1) w)
  else badCommand line w

def storhand (line : List UInt8) (w : World) : Except Stop (Int × World) :=
  match scan "%X" (line.drop 9) with
  | [param1] => storeHand line param1 w
  | _ => badCommand line w

def sleepFor (line : List UInt8) (w : World) : Except Stop (Int × World) :=
  match scan "%u" (line.drop 6) with
  | [param1] => .ok (1, logf .newline ((logf (.sleeping param1) w).emit [.sleep param1]))
  | _ => badCommand line w

def waitplayLine (linebuf line : List UInt8) (w : World) : Except Stop (Int × World) :=
  match scan "HAND%u %u" (line.drop 9) with
  | mediaHandle :: param1 => do
      let handle ← handAt mediaHandle w
      let w ← waitplay handle (param1.headD 0) linebuf w
      return (1, w)
  | [] =>
      match scan "%u %u" (line.drop 9) with
      | mediaHandle :: param1 => do
          let w ← waitplay mediaHandle.toUInt8 (param1.headD 0) linebuf w
          return (1, w)
      | [] => badCommand line w

def strbufprint (w : World) : Except Stop (Int × World) :=
  let contents := List.ofFn w.vars.strbuf
  if 0 ∈ contents then .ok (1, logf (.strbufContents (cString contents)) w)
  else .error .strbufUnterminated

def strbufsetx (line : List UInt8) (w : World) : Except Stop (Int × World) :=
  match scan "%X %X" (line.drop 11) with
  | [param1, param2] => do
      let w ← storeStrbuf param1 param2.toUInt8 w
      return (1, w)
  | _ => badCommand line w

-- The line up to the first `c`.
def cutAt (c : UInt8) (line : List UInt8) : List UInt8 :=
  match strchr line c with
  | some found => line.take (line.length - found.length)
  | none => line

def strbufsets (line : List UInt8) (w : World) : Except Stop (Int × World) := do
  let line := cutAt NEWLINE (cutAt RETURN line)
  let w ← strcpyStrbuf (line.drop 11) w
  return (1, w)

def mutestdout (line : List UInt8) (w : World) : Except Stop (Int × World) :=
  match scan "%X" (line.drop 11) with
  | [param1] => .ok (1, logf (.stdoutIs (param1 = 0)) { w with stdouton := param1 = 0 })
  | _ => badCommand line w

-- `linebuf` is the string in the line buffer, which `line` points into.
def processScriptLine (layout : Layout) (linebuf : List UInt8) (w : World) :
    Except Stop (Int × World) :=
  let line := linebuf.dropWhile (· = BLANK)
  if line.head? = some HASH then .ok (1, w)
  else if line.head? = some RETURN then .ok (1, w)
  else if line.head? = some NEWLINE then .ok (1, w)
  else if strncasecmpEq line (ascii "CALLRM ") 7 then callrm layout linebuf line w
  else if strncasecmpEq line (ascii "CALLRMS ") 8 then callrms linebuf line w
  else if strncasecmpEq line (ascii "CALLVBIOS ") 10 then callvbios linebuf line w
  else if strncasecmpEq line (ascii "STORVGAMODE") 11 then storvgamode linebuf w
  else if strncasecmpEq line (ascii "LOADVGAMODE") 11 then loadvgamode linebuf w
  else if strncasecmpEq line (ascii "STORHAND ") 9 then storhand line w
  else if strncasecmpEq line (ascii "SLEEP ") 6 then sleepFor line w
  else if strncasecmpEq line (ascii "WAITPLAY ") 9 then waitplayLine linebuf line w
  else if strncasecmpEq line (ascii "STRBUFADDR") 10 then
    .ok (1, logf (.strbufAddress layout.ds layout.strbuf) w)
  else if strncasecmpEq line (ascii "STRBUFPRINT") 11 then strbufprint w
  else if strncasecmpEq line (ascii "STRBUFSETX ") 11 then strbufsetx line w
  else if strncasecmpEq line (ascii "STRBUFSETS ") 11 then strbufsets line w
  else if strncasecmpEq line (ascii "MUTESTDOUT ") 11 then mutestdout line w
  else if strncasecmpEq line (ascii "EXIT") 4 then .ok (0, w)
  else if strncasecmpEq line (ascii "QUIT") 4 then .ok (0, w)
  else badCommand line w

-- `fh` is what is left of the script. A NUL in it ends the string that is interpreted.
def runScript (layout : Layout) (fh : List UInt8) (w : World) : Except Stop (Int × World) :=
  match h : fgets NEWLINE 256 fh with
  | none => .ok (-1, w)
  | some (linebuf, fh') =>
      match processScriptLine layout (cString linebuf) w with
      | .error stop => .error stop
      | .ok (rv, w') =>
          if rv = 0 then .ok (0, w')
          else if rv = -1 then .ok (-1, w')
          else
            have := fgets_rest_lt NEWLINE (by decide) h
            runScript layout fh' w'
termination_by fh.length

end ReelMagic.Rmprobe
