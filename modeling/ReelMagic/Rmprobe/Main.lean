import ReelMagic.Rmprobe.Script

namespace ReelMagic.Rmprobe

open Library.CString

-- What `main` is started with: `argv[1]` when there is one argument, the standard input, the
-- files that can be opened for reading and whether one can be opened for writing, what the
-- entries of the interrupt vector table point at, NULL aside, and what RMDEV.SYS gives as the
-- driver's location.
structure Setup where
  basepath : Option (List UInt8)
  stdin : List UInt8
  files : List UInt8 → Option (List UInt8)
  writable : List UInt8 → Bool
  ivtEntry : UInt8 → Option (List UInt8)
  loc : List UInt8

-- `snprintf` into a `filename[256]`.
def filenameIn (basepath : Option (List UInt8)) (name : List UInt8) : List UInt8 :=
  match basepath with
  | none => name.take 255
  | some basepath => (basepath ++ ascii "\\" ++ name).take 255

def findFmpdriver (setup : Setup) : Option UInt8 :=
  ((List.range 128).map fun i => UInt8.ofNat (128 + i)).find? fun int =>
    match setup.ivtEntry int with
    | none => false
    | some entry => (entry.drop 3).take 9 = ascii "FMPDriver"

def logRmdriverVersion (w : World) : Except Stop World := do
  let (ver, w) ← callRmdevsys 0 1 0 0 [] w
  return logf (.driverVersion (ver >>> 8) (ver &&& 0xFF)) w

def logRmdriverLocation (layout : Layout) (setup : Setup) (w : World) : Except Stop World := do
  let (_, w) ← callRmdevsys 3 layout.loc.off 0 layout.loc.seg [] w
  return logf (.driverLocation setup.loc) w

def openlogout (setup : Setup) (w : World) : World :=
  let filename := filenameIn setup.basepath (ascii "RMPROBE.LOG")
  { logf (.writingLogfile filename) w with logout := setup.writable filename }

def opencmdin (setup : Setup) (w : World) : Option (List UInt8) × World :=
  let filename := filenameIn setup.basepath (ascii "COMMANDS.TXT")
  (setup.files filename, logf (.openingCommandFile filename) w)

-- `main` up to the call of `run_script`. There is a stream of commands when it gets there.
def findDriver (layout : Layout) (setup : Setup) (cmdin : List UInt8) (w : World) :
    Except Stop (Option (List UInt8) × World) := do
  let w := openlogout setup w
  let (signature, w) ← callRmdevsys 0 0 0 0 [] w
  if signature ≠ 0x524D then return (none, logf .rmdevNotFound w)
  else
    let w ← logRmdriverVersion w
    let w ← logRmdriverLocation layout setup w
    match findFmpdriver setup with
    | none => return (none, logf .driverNotResident w)
    | some int =>
        return (some cmdin, logf .mpegReady (logf (.driverResident int) { w with fmpDriverInt := int }))

def beforeScript (layout : Layout) (setup : Setup) (w : World) :
    Except Stop (Option (List UInt8) × World) :=
  match setup.basepath with
  | none => findDriver layout setup setup.stdin w
  | some _ =>
      match opencmdin setup w with
      | (none, w) => .ok (none, logf .commandFileFailed w)
      | (some cmdin, w) => findDriver layout setup cmdin w

def main (layout : Layout) (setup : Setup) (w : World) : Except Stop (Int × World) := do
  match ← beforeScript layout setup w with
  | (none, w) => return (1, w)
  | (some cmdin, w) =>
      let (rv, w) ← runScript layout cmdin w
      return (if rv ≠ 0 then 0 else 1, w)

end ReelMagic.Rmprobe
