import ReelMagic.Library.Bytes
import ReelMagic.Library.CString
import ReelMagic.Rmsdk

namespace ReelMagic.Rmsdk

open Library Library.Bytes Library.CString
open ReelMagic.Recorder (FarPtr Regs)

-- The bytes a far pointer can address.
abbrev Memory := FarPtr → UInt8

def offset (ptr : FarPtr) (n : UInt16) : FarPtr := ⟨ptr.seg, ptr.off + n⟩

def Memory.readPtr (memory : Memory) (ptr : FarPtr) : FarPtr where
  seg := word16 (memory (offset ptr 2)) (memory (offset ptr 3))
  off := word16 (memory ptr) (memory (offset ptr 1))

-- An entry of the interrupt vector table, which is at 0000:0000.
def Memory.ivtEntry (memory : Memory) (intnum : UInt8) : FarPtr :=
  memory.readPtr ⟨0, intnum.toUInt16 * 4⟩

-- `_fstrncmp` of the string at `s` and the string `t`.
def Memory.fstrncmp (memory : Memory) (s : FarPtr) (t : List UInt8) : Nat → Int
  | 0 => 0
  | n + 1 =>
      if memory s ≠ t.headD 0 then (memory s).toNat - (t.headD 0).toNat
      else if memory s = 0 then 0
      else memory.fstrncmp (offset s 1) t.tail n

def Memory.isFmpdriver (memory : Memory) (intnum : UInt8) : Bool :=
  memory.ivtEntry intnum ≠ ⟨0, 0⟩ &&
    memory.fstrncmp (offset (memory.ivtEntry intnum) 3) (ascii "FMPDriver") 9 = 0

-- From 80h on up to FFh, or 0 for a driver not found.
def rmProbeFmpdrvInt (memory : Memory) : UInt8 :=
  (((List.range 128).map fun i => UInt8.ofNat (128 + i)).find? memory.isFmpdriver).getD 0

def setFmpdrvInt (intnum : UInt8) (s : Sdk) : Sdk := { s with fmpdrvInt := intnum }

-- INT 2Fh.
def int2F (regs : Regs) (s : Sdk) : Except Stop (Regs × Sdk) :=
  match s.replies with
  | [] => .error .noReply
  | reply :: replies => .ok (reply, { s with replies }.emit [.multiplex regs reply])

def rmCallRmdevsys (function : UInt8) (subfunction param1 param2 : UInt16) (s : Sdk) :
    Except Stop (UInt16 × Sdk) := do
  let s := logfAddindent (logfi (.enterCallRmdevsys function subfunction param1 param2) s)
  let (r, s) ← int2F ⟨0x9800 ||| function.toUInt16, subfunction, param1, param2⟩ s
  let s := logfi (.exitCallRmdevsys function subfunction param1 param2 r.ax r.bx r.cx r.dx)
    (logfDelindent s)
  return (r.ax, s)

def rmGetVersion (s : Sdk) : Except Stop (UInt16 × Sdk) := rmCallRmdevsys 0 1 0 0 s

def rmGetFmpdrvExePath (output : FarPtr) (s : Sdk) : Except Stop Sdk := do
  let (_, s) ← rmCallRmdevsys 3 output.off 0 output.seg s
  return s

-- `loc` is the address of the array on the stack, and `location` the string that stands there
-- once RMDEV.SYS has been asked for it. `memory` is what the probe finds.
def rmInit (memory : Memory) (loc : FarPtr) (location : List UInt8) (s : Sdk) :
    Except Stop (Int × Sdk) := do
  let (signature, s) ← rmCallRmdevsys 0 0 0 0 s
  if signature ≠ 0x524D then return (0, logfi .rmdevNotFound s)
  else
    let (ver, s) ← rmGetVersion s
    let s := logfi (.driverVersion (ver >>> 8) (ver &&& 0xFF)) s
    let s ← rmGetFmpdrvExePath loc s
    let s := logfi (.driverLocation location) s
    let s := setFmpdrvInt (rmProbeFmpdrvInt memory) s
    if s.fmpdrvInt = 0 then return (0, logfi .driverNotResident s)
    else return (1, logfi (.driverResident s.fmpdrvInt) s)

def rmSet (handle : UInt8) (type param1 param2 : UInt16) (s : Sdk) : Except Stop Sdk := do
  let (_, s) ← rmCallFmpdrv 0x9 handle type param1 param2 s
  return s

def rmSetPtr (handle : UInt8) (type : UInt16) (ptr : FarPtr) (s : Sdk) : Except Stop Sdk := do
  let (_, s) ← rmCallFmpdrvPtr 0x9 handle type ptr s
  return s

def rmGetPtr (handle : UInt8) (type : UInt16) (s : Sdk) : Except Stop (FarPtr × Sdk) := do
  let (rv, s) ← rmGet handle type s
  return (⟨(rv >>> 16).toUInt16, (rv &&& 0xFFFF).toUInt16⟩, s)

def rmReset (s : Sdk) : Except Stop Sdk := do
  let (_, s) ← rmCallFmpdrv 0xE 0 0 0 0 s
  return s

def rmOpen (filename : FarPtr) (flags : UInt16) (s : Sdk) : Except Stop (UInt8 × Sdk) := do
  let (rv, s) ← rmCallFmpdrvPtr 1 0 flags filename s
  return (rv.toUInt8, s)

def rmClose (handle : UInt8) (s : Sdk) : Except Stop Sdk := do
  let (_, s) ← rmCallFmpdrv 2 handle 0 0 0 s
  return s

def rmPlay (handle : UInt8) (flags : UInt16) (s : Sdk) : Except Stop Sdk := do
  let (_, s) ← rmCallFmpdrv 0x3 handle flags 0 0 s
  return s

def rmPause (handle : UInt8) (s : Sdk) : Except Stop Sdk := do
  let (_, s) ← rmCallFmpdrv 0x4 handle 0 0 0 s
  return s

def rmGetStreamTypes (handle : UInt8) (s : Sdk) : Except Stop (UInt16 × Sdk) := do
  let (value, s) ← rmGet handle 0x202 s
  return (value.toUInt16, s)

def rmGetBytesDecoded (handle : UInt8) (s : Sdk) : Except Stop (UInt32 × Sdk) :=
  rmGet handle 0x206 s

def rmSetZorder (handle : UInt8) (value : UInt16) (s : Sdk) : Except Stop Sdk :=
  rmSet handle 0x40E value 0 s

def rmSetMagicKey (handle : UInt8) (k1 k2 : UInt16) (s : Sdk) : Except Stop Sdk :=
  rmSet handle 0x210 k1 k2 s

def rmSubmitBuffer (handle : UInt8) (buf : FarPtr) (size : UInt16) (s : Sdk) : Except Stop Sdk := do
  let s ← rmSet handle 0x307 buf.seg 0 s
  let s ← rmSet handle 0x303 buf.off 0 s
  rmSet handle 0x304 size 0 s

-- A call of one of the functions that `reelmagc.h` offers for the driver.
inductive Wrapper where
  | rmCallFmpdrv (command handle : UInt8) (subfunc param1 param2 : UInt16)
  | rmCallFmpdrvPtr (command handle : UInt8) (subfunc : UInt16) (ptr : FarPtr)
  | rmSet (handle : UInt8) (type param1 param2 : UInt16)
  | rmSetPtr (handle : UInt8) (type : UInt16) (ptr : FarPtr)
  | rmGet (handle : UInt8) (type : UInt16)
  | rmGetPtr (handle : UInt8) (type : UInt16)
  | rmGetVersion
  | rmGetFmpdrvExePath (output : FarPtr)
  | rmReset
  | rmRegisterDriverCallback (cbfunc cbmode : UInt16)
  | rmOpen (filename : FarPtr) (flags : UInt16)
  | rmClose (handle : UInt8)
  | rmPlay (handle : UInt8) (flags : UInt16)
  | rmPause (handle : UInt8)
  | rmGetStreamTypes (handle : UInt8)
  | rmGetPlayStatus (handle : UInt8)
  | rmGetBytesDecoded (handle : UInt8)
  | rmSetZorder (handle : UInt8) (value : UInt16)
  | rmSetMagicKey (handle : UInt8) (k1 k2 : UInt16)
  | rmWaitplay (handle : UInt8) (sleepInterval : UInt16)
  | rmSubmitBuffer (handle : UInt8) (buf : FarPtr) (size : UInt16)

-- The state a call leaves, its value aside.
def Wrapper.run (code : Code) (s : Sdk) : Wrapper → Except Stop Sdk
  | rmCallFmpdrv command handle subfunc param1 param2 =>
      (Rmsdk.rmCallFmpdrv command handle subfunc param1 param2 s).map Prod.snd
  | rmCallFmpdrvPtr command handle subfunc ptr =>
      (Rmsdk.rmCallFmpdrvPtr command handle subfunc ptr s).map Prod.snd
  | rmSet handle type param1 param2 => Rmsdk.rmSet handle type param1 param2 s
  | rmSetPtr handle type ptr => Rmsdk.rmSetPtr handle type ptr s
  | rmGet handle type => (Rmsdk.rmGet handle type s).map Prod.snd
  | rmGetPtr handle type => (Rmsdk.rmGetPtr handle type s).map Prod.snd
  | rmGetVersion => (Rmsdk.rmGetVersion s).map Prod.snd
  | rmGetFmpdrvExePath output => Rmsdk.rmGetFmpdrvExePath output s
  | rmReset => Rmsdk.rmReset s
  | rmRegisterDriverCallback cbfunc cbmode => Rmsdk.rmRegisterDriverCallback code cbfunc cbmode s
  | rmOpen filename flags => (Rmsdk.rmOpen filename flags s).map Prod.snd
  | rmClose handle => Rmsdk.rmClose handle s
  | rmPlay handle flags => Rmsdk.rmPlay handle flags s
  | rmPause handle => Rmsdk.rmPause handle s
  | rmGetStreamTypes handle => (Rmsdk.rmGetStreamTypes handle s).map Prod.snd
  | rmGetPlayStatus handle => (Rmsdk.rmGetPlayStatus handle s).map Prod.snd
  | rmGetBytesDecoded handle => (Rmsdk.rmGetBytesDecoded handle s).map Prod.snd
  | rmSetZorder handle value => Rmsdk.rmSetZorder handle value s
  | rmSetMagicKey handle k1 k2 => Rmsdk.rmSetMagicKey handle k1 k2 s
  | rmWaitplay handle sleepInterval => Rmsdk.rmWaitplay handle sleepInterval s
  | rmSubmitBuffer handle buf size => Rmsdk.rmSubmitBuffer handle buf size s

end ReelMagic.Rmsdk
