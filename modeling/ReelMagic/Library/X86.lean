import Mathlib.Data.Nat.Bitwise
import Mathlib.Logic.Function.Basic
import ReelMagic.Library.Bytes

namespace Library.X86

open Library.Bytes

-- The registers of a 386 that runs 16-bit code in real mode. `axHigh` and `dxHigh` are the upper
-- halves of EAX and EDX.
@[ext]
structure Registers where
  ax : UInt16
  bx : UInt16
  cx : UInt16
  dx : UInt16
  si : UInt16
  di : UInt16
  bp : UInt16
  sp : UInt16
  axHigh : UInt16
  dxHigh : UInt16
  cs : UInt16
  ds : UInt16
  es : UInt16
  ss : UInt16
  flags : UInt16
deriving DecidableEq

-- The operands of instructions.
inductive Reg where
  | ax
  | bx
  | cx
  | dx
  | si
  | di
  | bp
  | sp
  | cs
  | ds
  | es
  | ss
deriving DecidableEq

def Registers.get (regs : Registers) : Reg → UInt16
  | .ax => regs.ax
  | .bx => regs.bx
  | .cx => regs.cx
  | .dx => regs.dx
  | .si => regs.si
  | .di => regs.di
  | .bp => regs.bp
  | .sp => regs.sp
  | .cs => regs.cs
  | .ds => regs.ds
  | .es => regs.es
  | .ss => regs.ss

def Registers.set (regs : Registers) (v : UInt16) : Reg → Registers
  | .ax => { regs with ax := v }
  | .bx => { regs with bx := v }
  | .cx => { regs with cx := v }
  | .dx => { regs with dx := v }
  | .si => { regs with si := v }
  | .di => { regs with di := v }
  | .bp => { regs with bp := v }
  | .sp => { regs with sp := v }
  | .cs => { regs with cs := v }
  | .ds => { regs with ds := v }
  | .es => { regs with es := v }
  | .ss => { regs with ss := v }

abbrev Memory := Nat → UInt8

-- There are twenty address lines.
def physical (seg off : UInt16) : Nat := (seg.toNat * 16 + off.toNat) % 2 ^ 20

def readWord (mem : Memory) (seg off : UInt16) : UInt16 :=
  word16 (mem (physical seg off)) (mem (physical seg (off + 1)))

def writeWord (mem : Memory) (seg off v : UInt16) : Memory :=
  Function.update (Function.update mem (physical seg off) v.toUInt8) (physical seg (off + 1))
    (UInt8.ofNat (v.toNat / 256))

-- A word with another upper or lower byte.
def setHigh (word : UInt16) (v : UInt8) : UInt16 := UInt16.ofNat (word.toNat % 256 + 256 * v.toNat)

def setLow (word : UInt16) (v : UInt8) : UInt16 := UInt16.ofNat (word.toNat / 256 * 256 + v.toNat)

-- The offset of an interrupt vector, in segment 0.
def vector (n : UInt8) : UInt16 := 4 * n.toUInt16

structure Cpu where
  regs : Registers
  ip : UInt16
  mem : Memory

-- `[disp]` is in the data segment, `[BP+disp]` in the stack segment and `[BX+disp]` in the data
-- segment. Near targets are given by the offset that they have in the code segment.
inductive Instr where
  | push (r : Reg)
  | pop (r : Reg)
  | pusha
  | popa
  | pushf
  | pushEax
  | popEax
  | mov (dst src : Reg)
  | movImm (dst : Reg) (v : UInt16)
  | addImm (dst : Reg) (v : UInt16)
  | movMem (dst : Reg) (disp : UInt16)
  | movEaxMem (disp : UInt16)
  | shldEdxEax
  | storeBp (disp : UInt16)
  | storeBpWord (disp : UInt16) (src : Reg)
  | storeBx (disp : UInt16) (src : Reg)
  | lodsw
  | stosw
  | cmpAh (v : UInt16)
  | jne (target : UInt16)
  | jmp (target : UInt16)
  | jmpReg (r : Reg)
  | jmpFar
  | call (target : UInt16)
  | callFarBp (disp : UInt16)
  | callFarMem (disp : UInt16)
  | ret
  | retf
  | iret
  | enter (bytes : UInt16)
  | leave
  | movAh (v : UInt8)
  | movAl (v : UInt8)
  | int (n : UInt8)
deriving DecidableEq

-- The bytes of each in 16-bit code, with those of an operand size prefix.
def Instr.size : Instr → Nat
  | .push _ => 1
  | .pop _ => 1
  | .pusha => 1
  | .popa => 1
  | .pushf => 1
  | .pushEax => 2
  | .popEax => 2
  | .mov _ _ => 2
  | .movImm _ _ => 3
  | .addImm _ _ => 3
  | .movMem _ _ => 4
  | .movEaxMem _ => 4
  | .shldEdxEax => 5
  | .storeBp _ => 4
  | .storeBpWord _ _ => 3
  | .storeBx _ _ => 3
  | .lodsw => 1
  | .stosw => 1
  | .cmpAh _ => 3
  | .jne _ => 2
  | .jmp _ => 2
  | .jmpReg _ => 2
  | .jmpFar => 5
  | .call _ => 3
  | .callFarBp _ => 3
  | .callFarMem _ => 4
  | .ret => 1
  | .retf => 1
  | .iret => 1
  | .enter _ => 4
  | .leave => 1
  | .movAh _ => 2
  | .movAl _ => 2
  | .int _ => 2

-- CF, PF, AF, ZF, SF and OF, the other flags as they were.
def statusFlags (flags : UInt16) (cf pf af zf sf of : Bool) : UInt16 :=
  (flags &&& 0xF72A) ||| UInt16.ofNat
    (cf.toNat + 4 * pf.toNat + 16 * af.toNat + 64 * zf.toNat + 128 * sf.toNat + 2048 * of.toNat)

def parity (n : Nat) : Bool := ((List.range 8).countP n.testBit) % 2 = 0

def addFlags (flags a b : UInt16) : UInt16 :=
  statusFlags flags (65536 ≤ a.toNat + b.toNat) (parity (a + b).toNat)
    (16 ≤ a.toNat % 16 + b.toNat % 16) (a + b = 0) (0x8000 ≤ a + b)
    (0x8000 ≤ (a ^^^ (a + b)) &&& (b ^^^ (a + b)))

-- A comparison of bytes, as of `a - b`.
def cmpFlags (flags : UInt16) (a b : Nat) : UInt16 :=
  let difference := (a + 256 - b) % 256
  statusFlags flags (a < b) (parity difference) (a % 16 < b % 16) (difference = 0)
    (128 ≤ difference) (128 ≤ (a ^^^ b) &&& (a ^^^ difference))

def ZF (flags : UInt16) : Bool := flags.toNat.testBit 6

def DF (flags : UInt16) : Bool := flags.toNat.testBit 10

theorem ZF_statusFlags (flags : UInt16) (cf pf af zf sf of : Bool) :
    ZF (statusFlags flags cf pf af zf sf of) = zf := by
  have hmask : (flags &&& 0xF72A).toNat.testBit 6 = false := by
    rw [UInt16.toNat_and, Nat.testBit_and]
    exact Bool.and_false _
  rw [ZF, statusFlags, UInt16.toNat_or, Nat.testBit_or, hmask, Bool.false_or]
  cases cf <;> cases pf <;> cases af <;> cases zf <;> cases sf <;> cases of <;> rfl

theorem ZF_cmpFlags (flags : UInt16) {a b : Nat} (ha : a < 256) (hb : b < 256) :
    ZF (cmpFlags flags a b) = decide (a = b) := by
  rw [cmpFlags, ZF_statusFlags]
  apply decide_eq_decide.mpr
  omega

namespace Cpu

def push (v : UInt16) (s : Cpu) : Cpu :=
  { s with
    regs := { s.regs with sp := s.regs.sp - 2 }
    mem := writeWord s.mem s.regs.ss (s.regs.sp - 2) v }

-- The word at the top of the stack.
def top (s : Cpu) : UInt16 := readWord s.mem s.regs.ss s.regs.sp

def drop (s : Cpu) : Cpu := { s with regs := { s.regs with sp := s.regs.sp + 2 } }

def pop (r : Reg) (s : Cpu) : Cpu := { s.drop with regs := s.drop.regs.set s.top r }

def load (s : Cpu) (off : UInt16) : UInt16 := readWord s.mem s.regs.ds off

def pusha (s : Cpu) : Cpu :=
  ((((((((s.push s.regs.ax).push s.regs.cx).push s.regs.dx).push s.regs.bx).push s.regs.sp).push
    s.regs.bp).push s.regs.si).push s.regs.di)

-- The word that stands for SP is skipped.
def popa (s : Cpu) : Cpu :=
  (((((((s.pop .di).pop .si).pop .bp).drop.pop .bx).pop .dx).pop .cx).pop .ax)

def pushEax (s : Cpu) : Cpu := (s.push s.regs.axHigh).push s.regs.ax

def popEax (s : Cpu) : Cpu :=
  let s := s.pop .ax
  { s.drop with regs := { s.drop.regs with axHigh := s.top } }

-- A `CALL FAR` or the like has pushed `CS:IP` before it goes to where the pointer says.
def goFar (off seg : UInt16) (s : Cpu) : Cpu := { s with ip := off, regs := { s.regs with cs := seg } }

def callFar (off seg : UInt16) (s : Cpu) : Cpu := ((s.push s.regs.cs).push s.ip).goFar off seg

def retf (s : Cpu) : Cpu := (s.drop.drop).goFar s.top s.drop.top

def iret (s : Cpu) : Cpu :=
  let t := s.retf
  { t.drop with regs := { t.drop.regs with flags := t.top } }

-- IF and TF are off in the handler.
def interrupt (n : UInt8) (s : Cpu) : Cpu :=
  let t := ((s.push s.regs.flags).push s.regs.cs).push s.ip
  { t with regs := { t.regs with flags := t.regs.flags &&& 0xFCFF } }.goFar
    (readWord t.mem 0 (vector n)) (readWord t.mem 0 (vector n + 2))

-- What an instruction does once IP has gone past it. The flags that SHLD sets, some of them to
-- no defined value, are left alone.
def perform (s : Cpu) : Instr → Cpu
  | .push r => s.push (s.regs.get r)
  | .pop r => s.pop r
  | .pusha => s.pusha
  | .popa => s.popa
  | .pushf => s.push s.regs.flags
  | .pushEax => s.pushEax
  | .popEax => s.popEax
  | .mov dst src => { s with regs := s.regs.set (s.regs.get src) dst }
  | .movImm dst v => { s with regs := s.regs.set v dst }
  | .addImm dst v =>
      { s with
        regs := { s.regs.set (s.regs.get dst + v) dst with
          flags := addFlags s.regs.flags (s.regs.get dst) v } }
  | .movMem dst disp => { s with regs := s.regs.set (s.load disp) dst }
  | .movEaxMem disp => { s with regs := { s.regs with ax := s.load disp, axHigh := s.load (disp + 2) } }
  | .shldEdxEax => { s with regs := { s.regs with dx := s.regs.axHigh, dxHigh := s.regs.dx } }
  | .storeBp disp =>
      { s with
        mem := writeWord (writeWord s.mem s.regs.ss (s.regs.bp + disp) s.regs.ax) s.regs.ss
          (s.regs.bp + disp + 2) s.regs.axHigh }
  | .storeBpWord disp src =>
      { s with mem := writeWord s.mem s.regs.ss (s.regs.bp + disp) (s.regs.get src) }
  | .storeBx disp src =>
      { s with mem := writeWord s.mem s.regs.ds (s.regs.bx + disp) (s.regs.get src) }
  | .lodsw =>
      { s with
        regs := { s.regs with
          ax := s.load s.regs.si
          si := if DF s.regs.flags then s.regs.si - 2 else s.regs.si + 2 } }
  | .stosw =>
      { s with
        mem := writeWord s.mem s.regs.es s.regs.di s.regs.ax
        regs := { s.regs with di := if DF s.regs.flags then s.regs.di - 2 else s.regs.di + 2 } }
  | .cmpAh v =>
      { s with
        regs := { s.regs with
          flags := cmpFlags s.regs.flags (s.regs.ax.toNat / 256) v.toNat } }
  | .jne target => if ZF s.regs.flags then s else { s with ip := target }
  | .jmp target => { s with ip := target }
  | .jmpReg r => { s with ip := s.regs.get r }
  | .jmpFar =>
      s.goFar (readWord s.mem s.regs.cs (s.ip - 4)) (readWord s.mem s.regs.cs (s.ip - 2))
  | .call target => { s.push s.ip with ip := target }
  | .callFarBp disp =>
      s.callFar (readWord s.mem s.regs.ss (s.regs.bp + disp))
        (readWord s.mem s.regs.ss (s.regs.bp + disp + 2))
  | .callFarMem disp => s.callFar (s.load disp) (s.load (disp + 2))
  | .ret => { s.drop with ip := s.top }
  | .retf => s.retf
  | .iret => s.iret
  | .enter bytes =>
      let s := s.push s.regs.bp
      { s with regs := { s.regs with bp := s.regs.sp, sp := s.regs.sp - bytes } }
  | .leave => { s with regs := { s.regs with sp := s.regs.bp } }.pop .bp
  | .movAh v => { s with regs := { s.regs with ax := setHigh s.regs.ax v } }
  | .movAl v => { s with regs := { s.regs with ax := setLow s.regs.ax v } }
  | .int n => s.interrupt n

def exec (s : Cpu) (i : Instr) : Cpu := { s with ip := s.ip + UInt16.ofNat i.size }.perform i

end Cpu

end Library.X86
