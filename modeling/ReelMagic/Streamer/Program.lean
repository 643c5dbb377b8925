import ReelMagic.Library.Registers
import ReelMagic.Rmsdk
import ReelMagic.Streamer

namespace ReelMagic.Streamer

open Library
open ReelMagic.Recorder (CallArgs FarPtr Regs)
open ReelMagic.Rmsdk (LogLine RMCBMODE_REGISTER RMCBMODE_STACK)

-- The lines that are logged, one constructor for each format string, with the values in the
-- order they are printed. `postRead` has the ten bytes that are dumped, if the buffer is there.
inductive Line where
  | sdk (line : LogLine)
  | callbackCount (count : UInt16)
  | enterMyCallback (args : CallArgs)
  | openingHandle
  | handleNotOne
  | openFileFailed
  | unknown3
  | nullHd
  | handleMismatch
  | noDosFileHandle
  | fillingBuffers
  | currentBufferEmpty
  | nextBufferEmpty
  | bytesRead (count : Nat)
  | postRead (bytes : Option (List UInt8))
  | reportingBuffer
  | closingHandle
  | exitMyCallback (args : CallArgs)
  | openFailed
  | errorReadingFile
  | streamsDetected (video audio : Bool)
  | unreachable
  | aborting
deriving DecidableEq

-- Where the data and the code of the program are. It is linked in the small model: a pointer
-- is an offset into `dataSeg`, or into the code segment.
structure Layout where
  dataSeg : UInt16
  dmaBuf : UInt16
  hds0 : UInt16
  filename : UInt16
  myCallback : UInt16
  code : Rmsdk.Code
  hds0_ne_null : hds0 ≠ 0
  myCallback_ne_null : myCallback ≠ 0

def sampleLayout : Layout :=
  ⟨0x1000, 0x0200, 0x0400, 0x0010, 0x0100,
    ⟨⟨0x0800, 0x0200⟩, ⟨0x0800, 0x0240⟩, by decide, by decide, by decide⟩, by decide, by decide⟩

-- A call of the callback by the driver, and what DOS answers during it.
structure Request where
  args : CallArgs
  dos : Reply
deriving DecidableEq

-- What comes of an INT 80h: the calls of the callback the driver makes before it returns, and
-- the registers then.
structure Answer where
  requests : List Request
  regs : Regs

-- An INT 80h is listed when it returns, with the registers before and after it. What lies
-- between `enter` and `leave` is done in the callback. `play` is where `_is_playing` is set. A line
-- is logged behind its indentation.
inductive Effect where
  | int80 (regs reply : Regs)
  | dos (call : Call)
  | putchar (c : UInt8)
  | enter (request : Request)
  | leave
  | play
  | stdout (indent : Nat) (line : Line)
  | logfile (indent : Nat) (line : Line)

-- The static variables of `reelmagc.c` and `logf.c`, and `_is_playing`.
structure Statics where
  fmpdrvInt : UInt8
  driverCbFunc : UInt16
  muted : Bool
  stdouton : Bool
  logout : Bool
  indentCount : UInt16
  isPlaying : Bool
deriving DecidableEq

-- As far as `logf_printindent` counts. `_indent_count` is an `int`, and a negative one is passed
-- at once.
def Statics.indent (statics : Statics) : Nat :=
  if statics.indentCount < 0x8000 then statics.indentCount.toNat else 0

-- `script` is what comes of the interrupts that are still to be made. `world.slot208` is nothing
-- that the program has: the pointers that the driver has been told to keep are noted there.
structure Program where
  statics : Statics
  callbackCount : UInt16
  dotCount : Nat
  world : World
  script : List Answer
  effects : List Effect

-- What ends a run before its time: an INT 80h that does not return, the abort when the driver
-- is not at INT 80h, a call of the callback before it is registered or, where the driver is
-- taken not to make one, while one is under way, and an access through a pointer that points
-- to none of the program's data.
inductive Reason where
  | noReply
  | aborted
  | notRegistered
  | reentered
  | wildPointer
deriving DecidableEq

structure Stop where
  reason : Reason
  program : Program

def HdPtr.far (layout : Layout) : HdPtr → FarPtr
  | .null => ⟨0, 0⟩
  | .hds0 => ⟨layout.dataSeg, layout.hds0⟩

-- `_hds[0]`, when it has been set up for a handle.
def MyHandleData.opened (handle : UInt16) (dosFileHandle : Int) : MyHandleData :=
  { MyHandleData.zeroed with
    rmHandle := handle.toUInt8
    buf := fun
      | .buf1 => ⟨0, 0, some (DMA_BUF_SIZE * 0)⟩
      | .buf2 => ⟨0, 0, some (DMA_BUF_SIZE * 1)⟩
    currentBuf := some .buf2
    nextBuf := some .buf1
    dosFileHandle := dosFileHandle }

namespace Program

def emit (effects : List Effect) (p : Program) : Program := { p with effects := p.effects ++ effects }

def lineEffects (indent : Nat) (line : Line) (p : Program) : List Effect :=
  if p.statics.muted then []
  else
    (if p.statics.stdouton then [.stdout indent line] else []) ++
      if p.statics.logout then [.logfile indent line] else []

def logf (line : Line) (p : Program) : Program := p.emit (p.lineEffects 0 line)

def logfi (line : Line) (p : Program) : Program := p.emit (p.lineEffects p.statics.indent line)

def logfAddindent (p : Program) : Program :=
  { p with statics := { p.statics with indentCount := p.statics.indentCount + 1 } }

def logfDelindent (p : Program) : Program :=
  if p.statics.indentCount ≠ 0 then
    { p with statics := { p.statics with indentCount := p.statics.indentCount - 1 } }
  else p

def logfSetmute (val : Bool) (p : Program) : Program :=
  { p with statics := { p.statics with muted := val } }

def logfCloselogfile (p : Program) : Program :=
  { p with statics := { p.statics with logout := false } }

-- `logf_abort`, up to the call of `abort`.
def logfAbort (line : Line) (p : Program) : Program :=
  ((p.logfi line).logfi .aborting).logfCloselogfile

-- `open_dos_file_handle` and the other calls of DOS, with what they do listed.
def dos (step : World → World × List Call) (p : Program) : Program :=
  { p with world := (step p.world).1 }.emit ((step p.world).2.map .dos)

section

variable (int80 : Regs → Program → Except Stop (Regs × Program))

def rmCallFmpdrv (command handle : UInt8) (subfunc param1 param2 : UInt16) (p : Program) :
    Except Stop (UInt32 × Program) :=
  if p.statics.fmpdrvInt ≠ 0x80 then .error ⟨.aborted, p.logfAbort .unreachable⟩
  else do
    let p := (p.logfi (.sdk (.enterCallFmpdrv command handle subfunc param1 param2))).logfAddindent
    let (r, p) ← int80 ⟨param1, command.toUInt16 <<< 8 ||| handle.toUInt16, subfunc, param2⟩ p
    let p := p.logfDelindent.logfi
      (.sdk (.exitCallFmpdrv command handle subfunc param1 param2 r.dx r.ax))
    return (r.dx.toUInt32 <<< 16 ||| r.ax.toUInt32, p)

def rmSet (handle : UInt8) (type param1 param2 : UInt16) (p : Program) : Except Stop Program := do
  let (_, p) ← p.rmCallFmpdrv int80 0x9 handle type param1 param2
  return p

def rmSetPtr (handle : UInt8) (type : UInt16) (ptr : FarPtr) (p : Program) :
    Except Stop Program := do
  let (_, p) ← p.rmCallFmpdrv int80 0x9 handle type ptr.off ptr.seg
  return p

def rmGet (handle : UInt8) (type : UInt16) (p : Program) : Except Stop (UInt32 × Program) :=
  p.rmCallFmpdrv int80 0xA handle type 0 0

def rmGetPtr (handle : UInt8) (type : UInt16) (p : Program) : Except Stop (FarPtr × Program) := do
  let (rv, p) ← p.rmGet int80 handle type
  return (⟨(rv >>> 16).toUInt16, (rv &&& 0xFFFF).toUInt16⟩, p)

def rmSubmitBuffer (handle : UInt8) (buf : FarPtr) (size : UInt16) (p : Program) :
    Except Stop Program := do
  let p ← p.rmSet int80 handle 0x307 buf.seg 0
  let p ← p.rmSet int80 handle 0x303 buf.off 0
  p.rmSet int80 handle 0x304 size 0

-- `rm_set_ptr` on type 0x208.
def setHd (layout : Layout) (handle : UInt8) (ptr : HdPtr) (p : Program) : Except Stop Program := do
  let p ← p.rmSetPtr int80 handle 0x208 (ptr.far layout)
  return { p with world := p.world.rmSetPtr handle ptr }

-- `CHECK_HD`, and whether it lets the callback go on.
def checkHd (layout : Layout) (hd handle : UInt16) (p : Program) : Except Stop (Bool × Program) :=
  if hd = 0 then .ok (false, p.logfi .nullHd)
  else if hd ≠ layout.hds0 then .error ⟨.wildPointer, p⟩
  else if p.world.hds0.rmHandle.toUInt16 ≠ handle then .ok (false, p.logfi .handleMismatch)
  else if p.world.hds0.dosFileHandle = -1 then .ok (false, p.logfi .noDosFileHandle)
  else .ok (true, p)

def readIntoBuf (reply : Reply) (ref : BufRef) (p : Program) : Except Stop Program :=
  match Streamer.readIntoBuf reply ref p.world with
  | none => .error ⟨.wildPointer, p⟩
  | some (w, calls) =>
      let p := { p with world := w }.emit (calls.map .dos)
      let p := p.logfi (.bytesRead (w.hds0.buf ref).readSize)
      .ok (p.logfi (.postRead ((w.hds0.buf ref).ptr.map fun ptr => w.dmaBuf.slice ptr 10)))

-- Command 4.
def openHandle (layout : Layout) (request : Request) (p : Program) : Except Stop Program :=
  let handle := request.args.arg1
  let p := p.logfi .openingHandle
  if handle ≠ 1 then .ok (p.logfi .handleNotOne)
  else
    let (dosFileHandle, w, calls) := openDosFileHandle request.dos p.world
    let p := { p with world := { w with hds0 := .opened handle dosFileHandle } }.emit
      (calls.map .dos)
    if dosFileHandle = -1 then .ok (p.logfi .openFileFailed)
    else do
      let p ← p.setHd int80 layout handle.toUInt8 .hds0
      p.rmSet int80 handle.toUInt8 0x302 1 0

-- Command 1, past `CHECK_HD`.
def fillBuffers (reply : Reply) (p : Program) : Except Stop Program :=
  match p.world.hds0.currentBuf with
  | none => .error ⟨.wildPointer, p⟩
  | some current =>
      if (p.world.hds0.buf current).readSize < 1 then
        (p.logfi .currentBufferEmpty).readIntoBuf reply current
      else match p.world.hds0.nextBuf with
      | none => .error ⟨.wildPointer, p⟩
      | some next =>
          if (p.world.hds0.buf next).readSize < 1 then
            (p.logfi .nextBufferEmpty).readIntoBuf reply next
          else .ok p

-- Command 2, past `CHECK_HD`, up to the test for a non-empty current buffer.
def selectBuffer (requestedPosition : Nat) (reply : Reply) (p : Program) : Except Stop Program :=
  match p.world.hds0.currentBuf with
  | none => .error ⟨.wildPointer, p⟩
  | some current =>
      if requestedPosition ≠ (p.world.hds0.buf current).filePosition then
        let p := { p with world := p.world.dispose current }
        match p.world.hds0.nextBuf with
        | none => .error ⟨.wildPointer, p⟩
        | some next =>
            if requestedPosition = (p.world.hds0.buf next).filePosition ∧
                (p.world.hds0.buf next).readSize ≠ 0 then
              .ok { p with
                world := { p.world with
                  hds0 := { p.world.hds0 with currentBuf := some next, nextBuf := some current } } }
            else
              let p := { p with world := p.world.dispose next }
              (p.dos (setDosFileHandlePosition requestedPosition)).readIntoBuf reply current
      else .ok p

def submitCurrent (layout : Layout) (handle : UInt16) (p : Program) : Except Stop Program :=
  match p.world.hds0.currentBuf with
  | none => .error ⟨.wildPointer, p⟩
  | some current =>
      if (p.world.hds0.buf current).readSize > 0 then
        match (p.world.hds0.buf current).ptr with
        | none => .error ⟨.wildPointer, p⟩
        | some ptr =>
            p.rmSubmitBuffer int80 handle.toUInt8
              ⟨layout.dataSeg, layout.dmaBuf + UInt16.ofNat ptr⟩
              (UInt16.ofNat (p.world.hds0.buf current).readSize)
      else .ok p

def reportBuffer (layout : Layout) (request : Request) (p : Program) : Except Stop Program := do
  let p ← p.selectBuffer (requestedPosition request.args.arg2 request.args.arg3) request.dos
  p.submitCurrent int80 layout request.args.arg1

-- Command 5, past `CHECK_HD`.
def closeHandle (layout : Layout) (handle : UInt16) (p : Program) : Except Stop Program :=
  let p := p.dos (closeDosFileHandle p.world.hds0.dosFileHandle)
  let p := { p with
    world := { p.world with hds0 := { MyHandleData.zeroed with dosFileHandle := -1 } } }
  p.setHd int80 layout handle.toUInt8 .null

-- While the stream plays, every callback prints a dot, some of them on a new line.
def printDot (p : Program) : Program :=
  if p.statics.isPlaying then
    if p.dotCount ≥ 10 then
      { p with dotCount := 0 }.emit [.putchar 0x0D, .putchar 0x0A, .putchar 0x2E]
    else { p with dotCount := p.dotCount + 1 }.emit [.putchar 0x2E]
  else p

-- Past `CHECK_HD`.
def checked (layout : Layout) (hd handle : UInt16) (body : Program → Except Stop Program)
    (p : Program) : Except Stop Program := do
  let (good, p) ← p.checkHd layout hd handle
  if good then body p else return p

-- The commands of `my_callback`. `hd` is what is left of a far pointer that is assigned to a
-- near one.
def runCommand (layout : Layout) (request : Request) (hd : UInt16) (p : Program) :
    Except Stop Program :=
  let handle := request.args.arg1
  match request.args.arg0.toNat with
  | 4 => p.openHandle int80 layout request
  | 3 => (p.logfi .unknown3).checked layout hd handle .ok
  | 1 => (p.logfi .fillingBuffers).checked layout hd handle (fillBuffers request.dos)
  | 2 => (p.logfi .reportingBuffer).checked layout hd handle (reportBuffer int80 layout request)
  | 5 => (p.logfi .closingHandle).checked layout hd handle (closeHandle int80 layout handle)
  | _ => .ok p

def counted (p : Program) : Program :=
  { p with callbackCount := p.callbackCount + 1 }.printDot

-- It always returns 0.
def myCallback (layout : Layout) (request : Request) (p : Program) : Except Stop Program := do
  let p := p.counted
  let p := p.logfi (.callbackCount p.callbackCount)
  let p := p.logfi (.enterMyCallback request.args)
  let (ptr, p) ← p.rmGetPtr int80 request.args.arg1.toUInt8 0x208
  let p ← p.runCommand int80 layout request ptr.off
  return p.logfi (.exitMyCallback request.args)

-- The driver calls the marshaller, which goes on through `_driver_cb_func`.
def serve (layout : Layout) (p : Program) (request : Request) : Except Stop Program :=
  if p.statics.driverCbFunc ≠ layout.myCallback then .error ⟨.notRegistered, p⟩
  else do
    let p ← (p.emit [.enter request]).myCallback int80 layout request
    return p.emit [.leave]

def rmRegisterDriverCallback (layout : Layout) (cbfunc cbmode : UInt16) (p : Program) :
    Except Stop Program := do
  let cbmode := if cbfunc = 0 then 0 else cbmode
  let p := { p with statics := { p.statics with driverCbFunc := cbfunc } }
  if cbmode = RMCBMODE_STACK then
    let ptr := layout.code.marshallStackCallback
    let (_, p) ← p.rmCallFmpdrv int80 0xB 0 cbmode ptr.off ptr.seg
    return p
  else
    let p := if cbmode = RMCBMODE_REGISTER then p else p.logfi (.sdk (.unknownCallbackMode cbmode))
    let ptr := layout.code.marshallRegisterCallback
    let (_, p) ← p.rmCallFmpdrv int80 0xB 0 cbmode ptr.off ptr.seg
    return p

-- The loop polls for as long as the stream plays. Every poll takes an answer off the script.
def pollWhilePlaying (handle : UInt8) : Nat → Program → Except Stop Program
  | 0, p => .error ⟨.noReply, p⟩
  | polls + 1, p => do
      let (status, p) ← p.rmGet int80 handle 0x204
      if status.toUInt16 &&& 3 = 0 then pollWhilePlaying handle polls p else return p

end

-- INT 80h, with calls of the callback up to `depth` deep.
def int80 (layout : Layout) : Nat → Regs → Program → Except Stop (Regs × Program)
  | depth, regs, p =>
      match p.script with
      | [] => .error ⟨.noReply, p⟩
      | answer :: script => do
          let p := { p with script }
          let p ← match depth with
            | 0 => if answer.requests.isEmpty then .ok p else .error ⟨.reentered, p⟩
            | depth + 1 => answer.requests.foldlM (serve (int80 layout depth) layout) p
          return (answer.regs, p.emit [.int80 regs answer.regs])

end Program

-- How `run_test` ends.
inductive Exit where
  | returned
  | aborted
deriving DecidableEq

namespace Program

-- `_is_playing = 1`.
def setPlaying (p : Program) : Program :=
  { p with statics := { p.statics with isPlaying := true } }.emit [.play]

def runTest (layout : Layout) (depth : Nat) (p : Program) : Except Stop (Exit × Program) := do
  let int80 := int80 layout depth
  let (_, p) ← p.rmCallFmpdrv int80 0xE 0 0 0 0
  let p ← p.rmRegisterDriverCallback int80 layout layout.myCallback RMCBMODE_STACK
  let p ← p.rmSet int80 0 0x210 0x4041 0x4004
  let (rv, p) ← p.rmCallFmpdrv int80 1 0 0x0002 layout.filename layout.dataSeg
  let handle := rv.toUInt8
  if handle = 0 then return (.aborted, p.logfAbort .openFailed)
  else
    let (types, p) ← p.rmGet int80 handle 0x202
    let streamTypes := types.toUInt16
    if streamTypes = 0 then return (.aborted, p.logfAbort .errorReadingFile)
    else
      let p := p.logf (.streamsDetected (streamTypes &&& 2 ≠ 0) (streamTypes &&& 1 ≠ 0))
      let p ← p.rmSet int80 handle 0x40E 4 0
      let (_, p) ← p.rmGet int80 handle 0x208
      let p := p.logfSetmute true
      let p := p.setPlaying
      let (_, p) ← p.rmCallFmpdrv int80 0x3 handle 1 0 0
      let p ← p.pollWhilePlaying int80 handle (p.script.length + 1)
      let (_, p) ← p.rmCallFmpdrv int80 2 handle 0 0 0
      let p := p.logfSetmute false
      return (.returned, p.logfi (.callbackCount p.callbackCount))

end Program

end ReelMagic.Streamer
