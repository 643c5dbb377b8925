import ReelMagic.Library.Bytes

namespace ReelMagic.Recorder

open Library.Bytes

structure FarPtr where
  seg : UInt16
  off : UInt16
deriving DecidableEq

structure Regs where
  ax : UInt16
  bx : UInt16
  cx : UInt16
  dx : UInt16
deriving DecidableEq

-- The four words that stand above the return address of a callback, `_callargs[0]` first.
structure CallArgs where
  arg0 : UInt16
  arg1 : UInt16
  arg2 : UInt16
  arg3 : UInt16
deriving DecidableEq

-- What DOS makes of one append to the log: the file is not opened, or at most `count`
-- bytes are stored.
inductive Append where
  | openFailed
  | stored (count : Nat)
deriving DecidableEq

-- The static variables. `forwardcb` is the operand of the far jump that ends the callback
-- shim, and `log` the file. The counter of failed opens is not read anywhere.
structure Statics where
  entryBuf : Vector UInt16 65
  installCbRecorderOnNextExit : Bool
  actualCb : FarPtr
  actualCbType : UInt16
  forwardcb : FarPtr
  log : List UInt8

def Statics.start : Statics :=
  ⟨Vector.replicate 65 0, false, ⟨0, 0⟩, 0, ⟨0, 0⟩, []⟩

def setEntryBufRegs (regs : Regs) (s : Statics) : Statics :=
  { s with entryBuf :=
      (((s.entryBuf.set 1 regs.ax).set 2 regs.bx).set 3 regs.cx).set 4 regs.dx }

def setTag (tag : UInt16) (s : Statics) : Statics :=
  { s with entryBuf := s.entryBuf.set 0 tag }

def setEntryBuf (tag : UInt16) (regs : Regs) (s : Statics) : Statics :=
  setTag tag (setEntryBufRegs regs s)

-- `_fmemcpy(&_entry_buf[1], ..., 128)`.
def copyToEntryBuf (bytes : Vector UInt8 128) (s : Statics) : Statics :=
  { s with entryBuf := ⟨(s.entryBuf[0] :: words16 bytes.toList).toArray, by
      simp [words16_length]⟩ }

def writeEntryBufToLog (words : Nat) (append : Append) (s : Statics) : Statics :=
  match append with
  | .openFailed => s
  | .stored count =>
      { s with log := s.log ++ ((s.entryBuf.toList.take words).flatMap bytes16).take count }

-- `filename` is what stands at `DX:AX`.
def recordFmpdrvCallEnter (regs : Regs) (filename : Vector UInt8 128) (append append' : Append)
    (s : Statics) : Statics :=
  let s := writeEntryBufToLog 5 append (setEntryBuf 0x0000 regs s)
  match (regs.bx >>> 8).toNat with
  | 0x01 => writeEntryBufToLog 65 append' (copyToEntryBuf filename (setTag 0x0001 s))
  | 0x0B =>
      { s with
        installCbRecorderOnNextExit := true
        actualCb := ⟨regs.dx, regs.ax⟩
        actualCbType := regs.cx }
  | _ => s

-- With the flag set the exit aims the far jump at the pointer saved last, and then makes
-- the driver store `cbshim` with the type saved last, which is what is returned here.
def recordFmpdrvCallExit (regs : Regs) (append : Append) (s : Statics) :
    Statics × Option UInt16 :=
  let s := writeEntryBufToLog 5 append (setEntryBuf 0xFFFF regs s)
  if s.installCbRecorderOnNextExit then
    ({ s with installCbRecorderOnNextExit := false, forwardcb := s.actualCb }, some s.actualCbType)
  else (s, none)

def recordRmdevsysCallEnter (regs : Regs) (append : Append) (s : Statics) : Statics :=
  writeEntryBufToLog 5 append (setEntryBuf 0x2F00 regs s)

def recordRmdevsysCallExit (regs : Regs) (append : Append) (s : Statics) : Statics :=
  writeEntryBufToLog 5 append (setEntryBuf 0x2FFF regs s)

-- The registers come from where the shim pushed them.
def recordCallbackEnter (regs : Regs) (callargs : CallArgs) (append append' : Append)
    (s : Statics) : Statics :=
  let s := writeEntryBufToLog 5 append (setEntryBuf 0x0B00 regs s)
  writeEntryBufToLog 5 append'
    (setEntryBuf 0x0B01 ⟨callargs.arg0, callargs.arg1, callargs.arg2, callargs.arg3⟩ s)

-- What is recorded, with what is found at `DX:AX` or on the stack at that moment.
inductive Event where
  | fmpdrvCallEnter (regs : Regs) (filename : Vector UInt8 128)
  | fmpdrvCallExit (regs : Regs)
  | rmdevsysCallEnter (regs : Regs)
  | rmdevsysCallExit (regs : Regs)
  | callbackEnter (regs : Regs) (callargs : CallArgs)

-- `append'` is the outcome of the second append of an event that makes two.
def record (append append' : Append) (s : Statics) : Event → Statics
  | .fmpdrvCallEnter regs filename => recordFmpdrvCallEnter regs filename append append' s
  | .fmpdrvCallExit regs => (recordFmpdrvCallExit regs append s).1
  | .rmdevsysCallEnter regs => recordRmdevsysCallEnter regs append s
  | .rmdevsysCallExit regs => recordRmdevsysCallExit regs append s
  | .callbackEnter regs callargs => recordCallbackEnter regs callargs append append' s

-- The whole of the entry buffer fits.
def Append.full : Append := .stored 130

def recordAll (events : List Event) : Statics :=
  events.foldl (record .full .full) .start

end ReelMagic.Recorder
