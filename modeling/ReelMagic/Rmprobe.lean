import Mathlib.Logic.Function.Basic
import ReelMagic.Library.CString
import ReelMagic.Library.Fallible
import ReelMagic.Recorder

namespace ReelMagic.Rmprobe

open Library Library.CString
open ReelMagic.Recorder (FarPtr Regs)

-- The lines that are logged, one constructor for each format string, with the values in the
-- order they are printed.
inductive LogLine where
  | enterCallVbios (function param1 : UInt8) (param2 param3 param4 : UInt16)
  | exitCallVbios (function param1 : UInt8) (param2 param3 param4 ax bx cx dx : UInt16)
  | enterCallRmdevsys (function : UInt8) (subfunction param1 param2 : UInt16)
  | exitCallRmdevsys (function : UInt8) (subfunction param1 param2 ax bx cx dx : UInt16)
  | enterDriverCall (command mediaHandle : UInt8) (subfunc param1 param2 : UInt16)
  | exitDriverCall (command mediaHandle : UInt8) (subfunc param1 param2 dx ax : UInt16)
  | waiting (sleeping : Bool) (mediaHandle : UInt8)
  | sleepInterval (seconds : UInt16)
  | doneWaiting (mediaHandle : UInt8) (high low : UInt16)
  | badCommand (line : List UInt8)
  | vgaModeStored (mode : UInt8)
  | vgaModeRestored (mode : UInt8)
  | lastCallFailed
  | handleStored (handle : UInt8) (slot : UInt16)
  | sleeping (seconds : UInt16)
  | newline
  | strbufAddress (seg off : UInt16)
  | strbufContents (contents : List UInt8)
  | stdoutIs (on : Bool)
  | openingCommandFile (filename : List UInt8)
  | commandFileFailed
  | writingLogfile (filename : List UInt8)
  | rmdevNotFound
  | driverVersion (major minor : UInt16)
  | driverLocation (path : List UInt8)
  | driverNotResident
  | driverResident (int : UInt8)
  | mpegReady
deriving DecidableEq

-- `linebuf` is what the line buffer holds during the interrupt, for a handler that is given
-- a pointer into it. `reply` is what the handler leaves in the registers.
structure Interrupt where
  num : UInt8
  regs : Regs
  linebuf : List UInt8
  reply : Regs
deriving DecidableEq

inductive Effect where
  | interrupt (interrupt : Interrupt)
  | sleep (seconds : UInt16)
  | stdout (line : LogLine)
  | logfile (line : LogLine)
deriving DecidableEq

-- What ends a run before its time: an interrupt that does not return, or an access outside
-- of `_hand` or `_strbuf`, after which nothing is defined.
inductive Stop where
  | noReply
  | handIndex (i : Nat)
  | strbufStore (i : Nat)
  | strbufUnterminated
deriving DecidableEq

-- The static variables of the script interpreter.
structure Vars where
  lastCallRv : UInt32
  lastVgaMode : UInt8
  hand : Fin 5 → UInt8
  strbuf : Fin 512 → UInt8

def Vars.start : Vars := ⟨0, 0, fun _ => 0, fun _ => 0⟩

-- `logout` says that `_logout` is not NULL. `replies` is what the interrupts to come leave in
-- the registers.
structure World where
  logout : Bool
  stdouton : Bool
  fmpDriverInt : UInt8
  vars : Vars
  replies : List Regs
  effects : List Effect

def World.start (replies : List Regs) : World := ⟨false, true, 0, .start, replies, []⟩

def World.emit (effects : List Effect) (w : World) : World :=
  { w with effects := w.effects ++ effects }

def logf (line : LogLine) (w : World) : World :=
  w.emit ((if w.stdouton then [.stdout line] else []) ++ if w.logout then [.logfile line] else [])

def int86 (num : UInt8) (regs : Regs) (linebuf : List UInt8) (w : World) :
    Except Stop (Regs × World) :=
  match w.replies with
  | [] => .error .noReply
  | reply :: replies =>
      .ok (reply, { w with replies }.emit [.interrupt ⟨num, regs, linebuf, reply⟩])

def callVbios (function param1 : UInt8) (param2 param3 param4 : UInt16) (linebuf : List UInt8)
    (w : World) : Except Stop (UInt16 × World) := do
  let w := logf (.enterCallVbios function param1 param2 param3 param4) w
  let (r, w) ← int86 0x10 ⟨function.toUInt16 <<< 8 ||| param1.toUInt16, param2, param3, param4⟩
    linebuf w
  let w := logf (.exitCallVbios function param1 param2 param3 param4 r.ax r.bx r.cx r.dx) w
  return (r.ax, w)

def callRmdevsys (function : UInt8) (subfunction param1 param2 : UInt16) (linebuf : List UInt8)
    (w : World) : Except Stop (UInt16 × World) := do
  let w := logf (.enterCallRmdevsys function subfunction param1 param2) w
  let (r, w) ← int86 0x2F ⟨0x9800 ||| function.toUInt16, subfunction, param1, param2⟩ linebuf w
  let w := logf (.exitCallRmdevsys function subfunction param1 param2 r.ax r.bx r.cx r.dx) w
  return (r.ax, w)

-- `DX:AX`.
def returned (r : Regs) : UInt32 := r.dx.toUInt32 <<< 16 ||| r.ax.toUInt32

def callFmpdriver (command mediaHandle : UInt8) (subfunc param1 param2 : UInt16)
    (linebuf : List UInt8) (w : World) : Except Stop (UInt32 × World) := do
  let w := logf (.enterDriverCall command mediaHandle subfunc param1 param2) w
  let (r, w) ← int86 w.fmpDriverInt
    ⟨param1, command.toUInt16 <<< 8 ||| mediaHandle.toUInt16, subfunc, param2⟩ linebuf w
  let w := logf (.exitDriverCall command mediaHandle subfunc param1 param2 r.dx r.ax) w
  return (returned r, w)

def callFmpdriverPtr (command mediaHandle : UInt8) (subfunc : UInt16) (ptr : FarPtr)
    (linebuf : List UInt8) (w : World) : Except Stop (UInt32 × World) :=
  callFmpdriver command mediaHandle subfunc ptr.off ptr.seg linebuf w

section

variable (effects : List Effect) (line : LogLine) (w : World)

@[simp] theorem emit_replies : (w.emit effects).replies = w.replies := rfl

@[simp] theorem logf_vars : (logf line w).vars = w.vars := rfl

@[simp] theorem logf_replies : (logf line w).replies = w.replies := rfl

end

theorem int86_ok {num : UInt8} {regs r : Regs} {linebuf : List UInt8} {w w' : World}
    (h : int86 num regs linebuf w = .ok (r, w')) :
    ∃ replies, w.replies = r :: replies ∧
      w' = { w with replies }.emit [.interrupt ⟨num, regs, linebuf, r⟩] := by
  unfold int86 at h
  split at h
  · cases h
  · rename_i reply replies hreplies
    obtain ⟨rfl, rfl⟩ := Prod.mk.inj (Except.ok.inj h)
    exact ⟨replies, hreplies, rfl⟩

theorem callFmpdriver_replies_lt {command mediaHandle : UInt8} {subfunc param1 param2 : UInt16}
    {linebuf : List UInt8} {result : UInt32} {w w' : World}
    (h : callFmpdriver command mediaHandle subfunc param1 param2 linebuf w = .ok (result, w')) :
    w'.replies.length < w.replies.length := by
  obtain ⟨⟨r, issued⟩, hissue, hret⟩ := bind_eq_ok h
  obtain ⟨replies, hreplies, rfl⟩ := int86_ok hissue
  obtain ⟨_, rfl⟩ := Prod.mk.inj (Except.ok.inj hret)
  rw [logf_replies] at hreplies
  rw [hreplies]
  exact Nat.lt_succ_self _

-- The loops of `waitplay`, which differ in the sleep alone.
def pollUntilDone (mediaHandle : UInt8) (sleepInterval : UInt16) (linebuf : List UInt8) (w : World) :
    Except Stop (UInt32 × World) :=
  match h : callFmpdriver 0xa mediaHandle 0x204 0 0 linebuf w with
  | .error stop => .error stop
  | .ok (result, w') =>
      if result &&& 3 = 0 then
        have := callFmpdriver_replies_lt h
        pollUntilDone mediaHandle sleepInterval linebuf
          (if sleepInterval ≠ 0 then w'.emit [.sleep sleepInterval] else w')
      else .ok (result, w')
termination_by w.replies.length
decreasing_by
  split
  · exact this
  · exact this

def waitplay (mediaHandle : UInt8) (sleepInterval : UInt16) (linebuf : List UInt8) (w : World) :
    Except Stop World := do
  let origLogout := w.logout
  let origStdouton := w.stdouton
  let w := logf (.waiting (sleepInterval ≠ 0) mediaHandle) w
  let w :=
    if sleepInterval ≠ 0 then logf (.sleepInterval sleepInterval) w
    else { w with logout := false, stdouton := false }
  let (result, w) ← pollUntilDone mediaHandle sleepInterval linebuf w
  let w := { w with logout := origLogout, stdouton := origStdouton }
  return logf (.doneWaiting mediaHandle (result >>> 16).toUInt16 result.toUInt16) w

end ReelMagic.Rmprobe
