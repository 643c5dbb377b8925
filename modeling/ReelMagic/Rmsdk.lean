import ReelMagic.Library.Fallible
import ReelMagic.Recorder

namespace ReelMagic.Rmsdk

open Library
open ReelMagic.Recorder (CallArgs FarPtr Regs)

-- The lines that are logged, one constructor for each format string, with the values in the
-- order they are printed.
inductive LogLine where
  | enterCallFmpdrv (command handle : UInt8) (subfunc param1 param2 : UInt16)
  | exitCallFmpdrv (command handle : UInt8) (subfunc param1 param2 high low : UInt16)
  | unknownCallbackMode (cbmode : UInt16)
  | waiting (sleeping : Bool) (handle : UInt8)
  | sleepInterval (seconds : UInt16)
  | doneWaiting (handle : UInt8) (status : UInt16)
  | enterCallRmdevsys (function : UInt8) (subfunction param1 param2 : UInt16)
  | exitCallRmdevsys (function : UInt8) (subfunction param1 param2 ax bx cx dx : UInt16)
  | rmdevNotFound
  | driverVersion (major minor : UInt16)
  | driverLocation (loc : List UInt8)
  | driverNotResident
  | driverResident (int : UInt8)
deriving DecidableEq

-- An INT 80h or an INT 2Fh with the registers before and after it. A line is logged behind its
-- indentation.
inductive Effect where
  | call (regs reply : Regs)
  | multiplex (regs reply : Regs)
  | sleep (seconds : UInt16)
  | stdout (indent : Nat) (line : LogLine)
  | logfile (indent : Nat) (line : LogLine)
deriving DecidableEq

-- What ends a run before its time: an interrupt that does not return, or the abort when the
-- driver is not at INT 80h.
inductive Stop where
  | noReply
  | aborted
deriving DecidableEq

-- The static variables of `reelmagc.c` and `logf.c`, in a small memory model: `driverCbFunc` is a
-- near pointer. `replies` is what the interrupts to come leave in the registers.
structure Sdk where
  fmpdrvInt : UInt8
  driverCbFunc : UInt16
  muted : Bool
  stdouton : Bool
  logout : Bool
  indentCount : Nat
  replies : List Regs
  effects : List Effect

def Sdk.emit (effects : List Effect) (s : Sdk) : Sdk := { s with effects := s.effects ++ effects }

def logfi (line : LogLine) (s : Sdk) : Sdk :=
  if s.muted then s
  else
    s.emit ((if s.stdouton then [.stdout s.indentCount line] else []) ++
      if s.logout then [.logfile s.indentCount line] else [])

def logfAddindent (s : Sdk) : Sdk := { s with indentCount := s.indentCount + 1 }

def logfDelindent (s : Sdk) : Sdk := { s with indentCount := s.indentCount - 1 }

def logfSetmute (val : Bool) (s : Sdk) : Sdk := { s with muted := val }

-- INT 80h.
def int80 (regs : Regs) (s : Sdk) : Except Stop (Regs × Sdk) :=
  match s.replies with
  | [] => .error .noReply
  | reply :: replies => .ok (reply, { s with replies }.emit [.call regs reply])

def rmCallFmpdrv (command handle : UInt8) (subfunc param1 param2 : UInt16) (s : Sdk) :
    Except Stop (UInt32 × Sdk) :=
  if s.fmpdrvInt ≠ 0x80 then .error .aborted
  else do
    let s := logfAddindent (logfi (.enterCallFmpdrv command handle subfunc param1 param2) s)
    let (r, s) ← int80 ⟨param1, command.toUInt16 <<< 8 ||| handle.toUInt16, subfunc, param2⟩ s
    let s := logfi (.exitCallFmpdrv command handle subfunc param1 param2 r.dx r.ax) (logfDelindent s)
    return (r.dx.toUInt32 <<< 16 ||| r.ax.toUInt32, s)

def rmCallFmpdrvPtr (command handle : UInt8) (subfunc : UInt16) (ptr : FarPtr) (s : Sdk) :
    Except Stop (UInt32 × Sdk) :=
  rmCallFmpdrv command handle subfunc ptr.off ptr.seg s

def rmGet (handle : UInt8) (type : UInt16) (s : Sdk) : Except Stop (UInt32 × Sdk) :=
  rmCallFmpdrv 0xA handle type 0 0 s

def rmGetPlayStatus (handle : UInt8) (s : Sdk) : Except Stop (UInt16 × Sdk) := do
  let (value, s) ← rmGet handle 0x204 s
  return (value.toUInt16, s)

@[simp] theorem logfi_replies (line : LogLine) (s : Sdk) : (logfi line s).replies = s.replies := by
  unfold logfi
  split <;> rfl

theorem rmCallFmpdrv_replies_lt {command handle : UInt8} {subfunc param1 param2 : UInt16} {rv : UInt32}
    {s s' : Sdk} (h : rmCallFmpdrv command handle subfunc param1 param2 s = .ok (rv, s')) :
    s'.replies.length < s.replies.length := by
  unfold rmCallFmpdrv at h
  split at h
  · cases h
  · obtain ⟨⟨r, issued⟩, hissue, hret⟩ := bind_eq_ok h
    obtain ⟨_, rfl⟩ := Prod.mk.inj (Except.ok.inj hret)
    unfold int80 at hissue
    split at hissue
    · cases hissue
    · rename_i reply replies hreplies
      obtain ⟨rfl, rfl⟩ := Prod.mk.inj (Except.ok.inj hissue)
      have hbefore : s.replies = reply :: replies := by
        rw [← hreplies]
        exact (logfi_replies _ s).symm
      rw [logfi_replies, hbefore]
      exact Nat.lt_succ_self _

theorem rmGetPlayStatus_replies_lt {handle : UInt8} {status : UInt16} {s s' : Sdk}
    (h : rmGetPlayStatus handle s = .ok (status, s')) : s'.replies.length < s.replies.length := by
  obtain ⟨⟨value, polled⟩, hget, hret⟩ := bind_eq_ok h
  obtain ⟨_, rfl⟩ := Prod.mk.inj (Except.ok.inj hret)
  exact rmCallFmpdrv_replies_lt hget

-- The loops of `rm_waitplay`, which differ in the sleep alone. In the condition,
-- `(status = rm_get_play_status(handle) & 3) == 0`, the mask comes before the assignment.
def pollWhilePlaying (handle : UInt8) (sleepInterval : UInt16) (s : Sdk) : Except Stop (UInt16 × Sdk) :=
  match h : rmGetPlayStatus handle s with
  | .error stop => .error stop
  | .ok (value, s') =>
      let status := value &&& 3
      if status = 0 then
        have := rmGetPlayStatus_replies_lt h
        pollWhilePlaying handle sleepInterval
          (if sleepInterval ≠ 0 then s'.emit [.sleep sleepInterval] else s')
      else .ok (status, s')
termination_by s.replies.length
decreasing_by
  split
  · exact this
  · exact this

def rmWaitplay (handle : UInt8) (sleepInterval : UInt16) (s : Sdk) : Except Stop Sdk := do
  let s := logfi (.waiting (sleepInterval ≠ 0) handle) s
  let s := if sleepInterval ≠ 0 then logfi (.sleepInterval sleepInterval) s else logfSetmute true s
  let (status, s) ← pollWhilePlaying handle sleepInterval s
  return logfi (.doneWaiting handle status) (logfSetmute false s)

abbrev RMCBMODE_REGISTER : UInt16 := 0

abbrev RMCBMODE_STACK : UInt16 := 0x2000

-- Where the two marshallers are.
structure Code where
  marshallStackCallback : FarPtr
  marshallRegisterCallback : FarPtr
  distinct : marshallStackCallback ≠ marshallRegisterCallback
  stack_ne_null : marshallStackCallback ≠ ⟨0, 0⟩
  register_ne_null : marshallRegisterCallback ≠ ⟨0, 0⟩

def rmRegisterDriverCallback (code : Code) (cbfunc cbmode : UInt16) (s : Sdk) : Except Stop Sdk := do
  let cbmode := if cbfunc = 0 then 0 else cbmode
  let s := { s with driverCbFunc := cbfunc }
  if cbmode = RMCBMODE_STACK then
    let (_, s) ← rmCallFmpdrvPtr 0xB 0 cbmode code.marshallStackCallback s
    return s
  else
    let s := if cbmode = RMCBMODE_REGISTER then s else logfi (.unknownCallbackMode cbmode) s
    let (_, s) ← rmCallFmpdrvPtr 0xB 0 cbmode code.marshallRegisterCallback s
    return s

-- A call through `_driver_cb_func`, with its arguments.
structure CbCall where
  func : UInt16
  args : CallArgs
deriving DecidableEq

def marshallStackCallback (v : CallArgs) (s : Sdk) : CbCall := ⟨s.driverCbFunc, v⟩

-- In `__watcall` the arguments are in AX, DX, BX and CX.
def marshallRegisterCallback (r : Regs) (s : Sdk) : CbCall :=
  ⟨s.driverCbFunc, ⟨r.bx >>> 8, r.bx &&& 0xFF, r.ax, r.dx⟩⟩

end ReelMagic.Rmsdk
