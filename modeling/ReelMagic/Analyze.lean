import ReelMagic.Library.Bytes
import ReelMagic.Library.CString
import ReelMagic.Library.Stdio

namespace ReelMagic.Analyze

open Library.Bytes Library.CString Library.Stdio

-- A printed line, one constructor for each format string, with the values in the order they
-- are printed. The two constructors `callbackRegReturn` and `callbackStkReturn` belong to
-- records the recorder no longer writes.
inductive Entry where
  | driverCall (bh bl cx ax dx : UInt16)
  | filename (name : List UInt8)
  | driverReturn (dx ax bx cx : UInt16)
  | rmdevsysCall (ax bx cx dx : UInt16)
  | rmdevsysReturn (ax bx cx dx : UInt16)
  | callbackReg (ax bx cx dx : UInt16)
  | callbackStk (arg0 arg1 arg2 arg3 : UInt16)
  | callbackRegReturn (ax bx cx dx : UInt16)
  | callbackStkReturn (arg0 arg1 arg2 arg3 : UInt16)
  | unknown (tag ax bx cx dx : UInt16)
deriving DecidableEq

-- `indent` counts the three-blank steps in front of the text.
structure Line where
  indent : Nat
  entry : Entry
deriving DecidableEq

-- `w` is the width of an `int`.
structure State (w : Nat) where
  fp : List UInt8
  indent : BitVec w
  printed : List Line

variable {w : Nat}

-- `while (count--)` goes round as often as the count says, read as an unsigned number.
def printfIndent (count : BitVec w) : Nat := count.toNat

def printfi (entry : Entry) (s : State w) : State w :=
  { s with printed := s.printed ++ [⟨printfIndent s.indent, entry⟩] }

def incIndent (s : State w) : State w := { s with indent := s.indent + 1 }

-- `if (_indent) --_indent;`
def decIndent (s : State w) : State w :=
  if s.indent ≠ 0 then { s with indent := s.indent - 1 } else s

-- `buf[i]`, over the bytes read so far.
def bufWord (raw : List UInt8) (i : Nat) : UInt16 :=
  word16 (raw.getD (2 * i) 0) (raw.getD (2 * i + 1) 0)

-- The precision of `%.*s` is 128 bytes.
def printFilename (raw : List UInt8) (s : State w) : State w :=
  match fread ((65 - 5) * 2) s.fp with
  | (none, fp) => { s with fp }
  | (some more, fp) => printfi (.filename (cString ((raw.drop 2 ++ more).take 128))) { s with fp }

def switchRecord (raw : List UInt8) (s : State w) : State w :=
  let buf := bufWord raw
  match (buf 0).toNat with
  | 0x0000 =>
      incIndent (printfi (.driverCall (buf 2 >>> 8) (buf 2 &&& 0xFF) (buf 3) (buf 1) (buf 4)) s)
  | 0x0001 => printFilename raw s
  | 0xFFFF => printfi (.driverReturn (buf 4) (buf 1) (buf 2) (buf 3)) (decIndent s)
  | 0x2F00 => incIndent (printfi (.rmdevsysCall (buf 1) (buf 2) (buf 3) (buf 4)) s)
  | 0x2FFF => printfi (.rmdevsysReturn (buf 1) (buf 2) (buf 3) (buf 4)) (decIndent s)
  | 0x0B00 => printfi (.callbackReg (buf 1) (buf 2) (buf 3) (buf 4)) s
  | 0x0B01 => printfi (.callbackStk (buf 1) (buf 2) (buf 3) (buf 4)) s
  | 0x0BFF => printfi (.callbackRegReturn (buf 1) (buf 2) (buf 3) (buf 4)) (decIndent s)
  | 0x0BFE => printfi (.callbackStkReturn (buf 1) (buf 2) (buf 3) (buf 4)) s
  | _ => printfi (.unknown (buf 0) (buf 1) (buf 2) (buf 3) (buf 4)) s

-- One round of the loop, `none` when the read fails and the loop ends.
def decodeStep (s : State w) : Option (State w) :=
  match fread (5 * 2) s.fp with
  | (none, _) => none
  | (some raw, fp) => some (switchRecord raw { s with fp })

theorem printfi_fp (entry : Entry) (s : State w) : (printfi entry s).fp = s.fp := rfl

theorem incIndent_fp (s : State w) : (incIndent s).fp = s.fp := rfl

theorem decIndent_fp (s : State w) : (decIndent s).fp = s.fp := by
  unfold decIndent
  split
  · rfl
  · rfl

theorem printFilename_fp_length_le (raw : List UInt8) (s : State w) :
    (printFilename raw s).fp.length ≤ s.fp.length := by
  have hread := fread_length_le ((65 - 5) * 2) s.fp
  unfold printFilename
  split
  · rename_i fp hfp
    rw [hfp] at hread
    exact hread
  · rename_i more fp hfp
    rw [hfp] at hread
    exact hread

theorem switchRecord_fp_length_le (raw : List UInt8) (s : State w) :
    (switchRecord raw s).fp.length ≤ s.fp.length := by
  unfold switchRecord
  dsimp only
  split
  case h_2 => exact printFilename_fp_length_le raw s
  all_goals simp [printfi_fp, incIndent_fp, decIndent_fp]

-- A round takes ten bytes off the log, or more.
theorem decodeStep_fp_le {s next : State w} (h : decodeStep s = some next) :
    next.fp.length + 5 * 2 ≤ s.fp.length := by
  unfold decodeStep at h
  split at h
  · cases h
  · rename_i raw fp hread
    have hfp := fread_some_length hread
    have hle := switchRecord_fp_length_le raw { s with fp }
    have hfp' : ({ s with fp } : State w).fp = fp := rfl
    rw [hfp'] at hle
    rw [← Option.some.inj h]
    omega

theorem decodeStep_fp_lt {s next : State w} (h : decodeStep s = some next) :
    next.fp.length < s.fp.length := by
  have hle := decodeStep_fp_le h
  omega

def decodeLoop (s : State w) : State w :=
  match h : decodeStep s with
  | none => s
  | some next =>
      have := decodeStep_fp_lt h
      decodeLoop next
termination_by s.fp.length

-- What `main` prints for a log, once the log is open.
def analyze (w : Nat) (log : List UInt8) : List Line :=
  (decodeLoop (⟨log, 0, []⟩ : State w)).printed

end ReelMagic.Analyze
