import ReelMagic.Rmsdk.Wrappers

namespace ReelMagic.Player

open ReelMagic.Recorder (FarPtr Regs)
open ReelMagic.Rmsdk (LogLine Memory Sdk Stop rmClose rmGetStreamTypes rmInit rmOpen rmPlay rmReset
  rmSetZorder rmWaitplay)

-- The lines of the log, one constructor for each format string.
inductive Line where
  | sdk (line : LogLine)
  | logfileOpened
  | logfileFailed
  | aborting
  | usage
  | initFailed
  | openFailed (filename : List UInt8)
  | errorReading (filename : List UInt8)
  | streamsDetected (video audio : Bool)
deriving DecidableEq

inductive Effect where
  | call (regs reply : Regs)
  | multiplex (regs reply : Regs)
  | sleep (seconds : UInt16)
  | stdout (indent : Nat) (line : Line)
  | logfile (indent : Nat) (line : Line)
  | closeLogfile
deriving DecidableEq

def Effect.ofSdk : Rmsdk.Effect → Effect
  | .call regs reply => .call regs reply
  | .multiplex regs reply => .multiplex regs reply
  | .sleep seconds => .sleep seconds
  | .stdout indent line => .stdout indent (.sdk line)
  | .logfile indent line => .logfile indent (.sdk line)

inductive Exit where
  | returned (status : Int)
  | aborted
deriving DecidableEq

-- The effects of the functions of the library come into the program's own when they return.
structure Program where
  sdk : Sdk
  effects : List Effect

def Program.start (replies : List Regs) : Program :=
  ⟨⟨0, 0, false, true, false, 0, replies, []⟩, []⟩

def Program.emit (effects : List Effect) (p : Program) : Program :=
  { p with effects := p.effects ++ effects }

def Program.ask {α : Type} (function : Sdk → Except Stop (α × Sdk)) (p : Program) :
    Except Stop (α × Program) := do
  let (value, sdk) ← function { p.sdk with effects := [] }
  return (value, ⟨sdk, p.effects ++ sdk.effects.map .ofSdk⟩)

def Program.perform (function : Sdk → Except Stop Sdk) (p : Program) : Except Stop Program := do
  let sdk ← function { p.sdk with effects := [] }
  return ⟨sdk, p.effects ++ sdk.effects.map .ofSdk⟩

def Program.logAt (indent : Nat) (line : Line) (p : Program) : Program :=
  if p.sdk.muted then p
  else
    p.emit ((if p.sdk.stdouton then [.stdout indent line] else []) ++
      if p.sdk.logout then [.logfile indent line] else [])

def Program.logf (line : Line) (p : Program) : Program := p.logAt 0 line

def Program.logfi (line : Line) (p : Program) : Program := p.logAt p.sdk.indentCount line

def Program.logfCloselogfile (p : Program) : Program :=
  if p.sdk.logout then { p with sdk := { p.sdk with logout := false } }.emit [.closeLogfile]
  else p

def Program.logfAbort (line : Line) (p : Program) : Exit × Program :=
  (.aborted, ((p.logfi line).logfi .aborting).logfCloselogfile)

-- `opened` says that `fopen` does not fail.
def Program.logfOpenlogfile (opened : Bool) (p : Program) : Program ⊕ (Exit × Program) :=
  let p := p.logfCloselogfile
  if opened then .inl ({ p with sdk := { p.sdk with logout := true } }.logfi .logfileOpened)
  else .inr (p.logfAbort .logfileFailed)

-- `filename` is the string, and `ptr` is where it stands.
def playFile (filename : List UInt8) (ptr : FarPtr) (p : Program) : Except Stop (Exit × Program) := do
  let p ← p.perform rmReset
  let p ← p.perform (rmSetZorder 0 4)
  let (handle, p) ← p.ask (rmOpen ptr 0x0001)
  if handle = 0 then return p.logfAbort (.openFailed filename)
  else
    let (streamTypes, p) ← p.ask (rmGetStreamTypes handle)
    if streamTypes = 0 then return p.logfAbort (.errorReading filename)
    else
      let p := p.logf (.streamsDetected (streamTypes &&& 2 ≠ 0) (streamTypes &&& 1 ≠ 0))
      let p ← p.perform (rmPlay handle 1)
      let p ← p.perform (rmWaitplay handle 0)
      let p ← p.perform (rmClose handle)
      return (.returned 0, p)

-- What the run finds: the arguments, whether `player.log` can be opened, the interrupt vectors,
-- the array of `rm_init` with what RMDEV.SYS puts there.
structure Surroundings where
  argc : Nat
  filename : List UInt8
  ptr : FarPtr
  opened : Bool
  memory : Memory
  loc : FarPtr
  location : List UInt8

def main (found : Surroundings) (p : Program) : Except Stop (Exit × Program) :=
  match p.logfOpenlogfile found.opened with
  | .inr aborted => .ok aborted
  | .inl p =>
      if found.argc ≠ 2 then .ok (.returned 1, p.logf .usage)
      else do
        let (ok, p) ← p.ask (rmInit found.memory found.loc found.location)
        if ok = 0 then return p.logfAbort .initFailed
        else
          let (exit, p) ← playFile found.filename found.ptr p
          if exit = .aborted then return (exit, p) else return (.returned 0, p.logfCloselogfile)

end ReelMagic.Player
