import ReelMagic.Library.Buffer
import ReelMagic.Library.Files
import ReelMagic.Library.Runs

namespace ReelMagic.Streamer

open Library

def DMA_BUF_SIZE : Nat := 0x1000

-- `ptr` is an offset into `_dma_buf`, and `none` stands for NULL.
structure MyBuffer where
  readSize : Nat
  filePosition : Nat
  ptr : Option Nat
deriving DecidableEq

-- `&hd->buf1` and `&hd->buf2`.
inductive BufRef where
  | buf1
  | buf2
deriving DecidableEq

structure MyHandleData where
  rmHandle : UInt8
  dosFileHandle : Int
  currentFilePosition : Nat
  buf : BufRef → MyBuffer
  currentBuf : Option BufRef
  nextBuf : Option BufRef

-- After `memset(hd, 0, sizeof(*hd))`, and at the start of the program.
def MyHandleData.zeroed : MyHandleData :=
  ⟨0, 0, 0, fun _ => ⟨0, 0, none⟩, none, none⟩

-- What the driver keeps under type 0x208. Only `&_hds[0]` and NULL are ever put there.
inductive HdPtr where
  | null
  | hds0
deriving DecidableEq

-- A DOS handle is an index into the job file table, which has 20 entries unless it is
-- enlarged, so it is not negative as an `int16_t`.
abbrev DosHandle := Fin 0x8000

-- A DOS file has fewer than 2 ^ 32 bytes.
abbrev DosFile := { data : List UInt8 // data.length < 0x100000000 }

-- What DOS answers during one callback: the file opened under the name given and its
-- handle, and how many bytes a read may deliver at most. `none` is an error.
structure Reply where
  opened : Option (DosHandle × DosFile)
  read : Option Nat
deriving DecidableEq

-- Calls to DOS and to the driver that change something there.
inductive Call where
  | dosOpen (result : Option (DosHandle × DosFile))
  | dosClose (handle : Nat)
  | dosSeek (handle position : Nat)
  | dosRead (handle count : Nat)
  | rmSet (handle : UInt8) (type param1 param2 : UInt16)
  | rmSetPtr (handle : UInt8) (type : UInt16) (ptr : HdPtr)
  | rmSubmitBuffer (handle : UInt8) (ptr size : Nat)
deriving DecidableEq

-- `slot208` is what the driver has last been told to keep by `rm_set_ptr` on type 0x208. Here it is
-- taken to give that back in `rm_get_ptr`.
structure World where
  hds0 : MyHandleData
  slot208 : UInt8 → HdPtr
  dmaBuf : Buffer UInt8
  dos : Files UInt8

def World.start : World :=
  ⟨.zeroed, fun _ => .null, .filled 0, .none⟩

def openDosFileHandle (reply : Reply) (w : World) : Int × World × List Call :=
  match reply.opened with
  | none => (-1, w, [.dosOpen none])
  | some (handle, file) =>
      (handle.val, { w with dos := w.dos.openAt handle file.val }, [.dosOpen (some (handle, file))])

def closeDosFileHandle (fileHandle : Int) (w : World) : World × List Call :=
  if fileHandle < 0 then (w, [])
  else ({ w with dos := w.dos.close fileHandle.toNat }, [.dosClose fileHandle.toNat])

def setDosFileHandlePosition (filePosition : Nat) (w : World) : World × List Call :=
  if w.hds0.dosFileHandle < 0 then (w, [])
  else
    ({ w with
        dos := w.dos.seek w.hds0.dosFileHandle.toNat filePosition
        hds0 := { w.hds0 with currentFilePosition := filePosition } },
      [.dosSeek w.hds0.dosFileHandle.toNat filePosition])

def MyHandleData.setBuf (hd : MyHandleData) (ref : BufRef) (buf : MyBuffer) : MyHandleData :=
  { hd with buf := Function.update hd.buf ref buf }

-- The end of `read_into_buf`: the buffer takes its label from the shadow position,
-- which then moves on, in 32 bits.
def MyHandleData.readComplete (hd : MyHandleData) (ref : BufRef) (bytesRead : Nat) : MyHandleData :=
  { hd.setBuf ref ⟨bytesRead, hd.currentFilePosition, (hd.buf ref).ptr⟩ with
    currentFilePosition := (hd.currentFilePosition + bytesRead) % 0x100000000 }

-- A callback that goes through a NULL pointer has no result.
def readIntoBuf (reply : Reply) (ref : BufRef) (w : World) : Option (World × List Call) :=
  if w.hds0.dosFileHandle < 0 then some ({ w with hds0 := w.hds0.readComplete ref 0 }, [])
  else do
    let ptr ← (w.hds0.buf ref).ptr
    let (bytes, dos) := w.dos.read w.hds0.dosFileHandle.toNat DMA_BUF_SIZE reply.read
    return ({ w with
        hds0 := w.hds0.readComplete ref bytes.length
        dmaBuf := w.dmaBuf.memcpy ptr bytes
        dos := dos },
      [.dosRead w.hds0.dosFileHandle.toNat DMA_BUF_SIZE])

-- `CHECK_HD`, for the pointer the driver gives for the handle.
def World.checkHd (w : World) (handle : UInt16) : Prop :=
  w.slot208 handle.toUInt8 = .hds0 ∧ w.hds0.rmHandle.toUInt16 = handle ∧ w.hds0.dosFileHandle ≠ -1

instance (w : World) (handle : UInt16) : Decidable (w.checkHd handle) :=
  inferInstanceAs (Decidable (_ ∧ _ ∧ _))

def World.rmSetPtr (w : World) (handle : UInt8) (ptr : HdPtr) : World :=
  { w with slot208 := Function.update w.slot208 handle ptr }

-- Command 4.
def openHandle (handle : UInt16) (reply : Reply) (w : World) : World × List Call :=
  if handle ≠ 1 then (w, [])
  else
    let (dosFileHandle, w, calls) := openDosFileHandle reply w
    let w := { w with
      hds0 :=
        { MyHandleData.zeroed with
          rmHandle := handle.toUInt8
          buf := fun
            | .buf1 => ⟨0, 0, some (DMA_BUF_SIZE * 0)⟩
            | .buf2 => ⟨0, 0, some (DMA_BUF_SIZE * 1)⟩
          currentBuf := some .buf2
          nextBuf := some .buf1
          dosFileHandle := dosFileHandle } }
    if dosFileHandle = -1 then (w, calls)
    else
      (w.rmSetPtr handle.toUInt8 .hds0,
        calls ++ [.rmSetPtr handle.toUInt8 0x208 .hds0, .rmSet handle.toUInt8 0x302 1 0])

-- Command 1, past `CHECK_HD`.
def fillBuffers (reply : Reply) (w : World) : Option (World × List Call) := do
  let current ← w.hds0.currentBuf
  if (w.hds0.buf current).readSize < 1 then readIntoBuf reply current w
  else
    let next ← w.hds0.nextBuf
    if (w.hds0.buf next).readSize < 1 then readIntoBuf reply next w
    else return (w, [])

-- `buf->read_size = 0`.
def World.dispose (w : World) (ref : BufRef) : World :=
  { w with hds0 := w.hds0.setBuf ref { w.hds0.buf ref with readSize := 0 } }

-- Command 2, past `CHECK_HD`, up to the test for a non-empty current buffer.
def selectBuffer (requestedPosition : Nat) (reply : Reply) (w : World) :
    Option (World × List Call) := do
  let current ← w.hds0.currentBuf
  if requestedPosition ≠ (w.hds0.buf current).filePosition then
    let w := w.dispose current
    let next ← w.hds0.nextBuf
    if requestedPosition = (w.hds0.buf next).filePosition ∧ (w.hds0.buf next).readSize ≠ 0 then
      return ({ w with hds0 := { w.hds0 with currentBuf := some next, nextBuf := some current } }, [])
    else
      let w := w.dispose next
      let (w, seekCalls) := setDosFileHandlePosition requestedPosition w
      let (w, readCalls) ← readIntoBuf reply current w
      return (w, seekCalls ++ readCalls)
  else return (w, [])

def submitCurrent (handle : UInt16) (w : World) : Option (List Call) := do
  let current ← w.hds0.currentBuf
  if (w.hds0.buf current).readSize > 0 then
    let ptr ← (w.hds0.buf current).ptr
    return [.rmSubmitBuffer handle.toUInt8 ptr (w.hds0.buf current).readSize]
  else return []

def requestedPosition (param1 param2 : UInt16) : Nat :=
  (param2.toNat <<< 16) ||| param1.toNat

def reportBuffer (handle param1 param2 : UInt16) (reply : Reply) (w : World) :
    Option (World × List Call) := do
  let (w, selectCalls) ← selectBuffer (requestedPosition param1 param2) reply w
  let submitCalls ← submitCurrent handle w
  return (w, selectCalls ++ submitCalls)

-- Command 5, past `CHECK_HD`.
def closeHandle (handle : UInt16) (w : World) : World × List Call :=
  let (w, calls) := closeDosFileHandle w.hds0.dosFileHandle w
  let w := { w with hds0 := { MyHandleData.zeroed with dosFileHandle := -1 } }
  (w.rmSetPtr handle.toUInt8 .null, calls ++ [.rmSetPtr handle.toUInt8 0x208 .null])

-- The callback always returns 0. Its log lines and the dots it prints are left out.
def myCallback (command handle param1 param2 : UInt16) (reply : Reply) (w : World) :
    Option (World × List Call) :=
  match command.toNat with
  | 4 => some (openHandle handle reply w)
  | 3 => some (w, [])
  | 1 => if w.checkHd handle then fillBuffers reply w else some (w, [])
  | 2 => if w.checkHd handle then reportBuffer handle param1 param2 reply w else some (w, [])
  | 5 => some (if w.checkHd handle then closeHandle handle w else (w, []))
  | _ => some (w, [])

-- One callback of the driver, with what DOS answers during it and the calls it makes.
structure Event where
  command : UInt16
  handle : UInt16
  param1 : UInt16
  param2 : UInt16
  reply : Reply
  calls : List Call

def Step (w : World) (event : Event) (next : World) : Prop :=
  myCallback event.command event.handle event.param1 event.param2 event.reply w =
    some (next, event.calls)

abbrev Reached (events : List Event) (w : World) : Prop :=
  Run World.start Step events w

def Call.openedFile : Call → Option DosFile
  | .dosOpen (some (_, file)) => some file
  | _ => none

-- The file of the last open that DOS granted.
def lastOpened (events : List Event) : Option DosFile :=
  (events.flatMap Event.calls).reverse.findSome? Call.openedFile

end ReelMagic.Streamer
