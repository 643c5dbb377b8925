import ReelMagic.Library.X86.Calls

namespace Library.X86

-- A stretch of a segment.
structure Area where
  seg : UInt16
  off : UInt16
  size : Nat

def Area.Has (area : Area) (address : Nat) : Prop :=
  ∃ n < area.size, address = physical area.seg (above area.off n)

def Area.Apart (area other : Area) : Prop :=
  ∀ m < area.size, ∀ n < other.size,
    physical area.seg (above area.off m) ≠ physical other.seg (above other.off n)

instance : DecidableRel Area.Apart := fun area other =>
  inferInstanceAs (Decidable (∀ m < area.size, ∀ n < other.size,
    physical area.seg (above area.off m) ≠ physical other.seg (above other.off n)))

-- The bytes of any of them.
def InAreas (areas : List Area) (address : Nat) : Prop := ∃ area ∈ areas, area.Has address

-- The area of a far pointer, and that of an interrupt vector.
def farArea (seg off : UInt16) : Area := ⟨seg, off, 4⟩

def vectorArea (n : UInt8) : Area := farArea 0 (vector n)

def writeFar (mem : Memory) (seg off offset segment : UInt16) : Memory :=
  writeWord (writeWord mem seg off offset) seg (off + 2) segment

def Cpu.setVector (n : UInt8) (offset segment : UInt16) (s : Cpu) : Cpu :=
  { s with mem := writeFar s.mem 0 (vector n) offset segment }

section

variable {mem mem' : Memory} {seg off : UInt16} {area other : Area} {areas : List Area}

theorem Area.Apart.symm (h : area.Apart other) : other.Apart area :=
  fun m hm n hn heq => h n hn m hm heq.symm

theorem Area.Apart.not_has (h : area.Apart other) {a : Nat} (ha : area.Has a) : ¬other.Has a := by
  obtain ⟨m, hm, rfl⟩ := ha
  rintro ⟨n, hn, heq⟩
  exact h m hm n hn heq

theorem writeWord_of_not_wordAt {v : UInt16} {a : Nat} (h : ¬WordAt seg off a) :
    writeWord mem seg off v a = mem a := by
  apply writeWord_of_ne
  · intro heq
    exact h ⟨0, by omega, by rw [heq, above_zero]⟩
  · intro heq
    exact h ⟨1, by omega, heq⟩

-- The two words of a far pointer.
theorem wordAt_farArea {n : Nat} (hn : n ≤ 2) {a : Nat} (h : WordAt seg (above off n) a) :
    (farArea seg off).Has a := by
  obtain ⟨m, hm, rfl⟩ := h
  exact ⟨n + m, (by omega : n + m < 4), by rw [above_above]; rfl⟩

theorem writeFar_of_not_has {offset segment : UInt16} {a : Nat} (h : ¬(farArea seg off).Has a) :
    writeFar mem seg off offset segment a = mem a := by
  have hlow : ¬WordAt seg off a := by
    intro ha
    rw [← above_zero off] at ha
    exact h (wordAt_farArea (Nat.zero_le 2) ha)
  have hhigh : ¬WordAt seg (off + 2) a := fun ha => h (wordAt_farArea (Nat.le_refl 2) ha)
  rw [writeFar, writeWord_of_not_wordAt hhigh, writeWord_of_not_wordAt hlow]

theorem readWord_writeFar_low (offset segment : UInt16) :
    readWord (writeFar mem seg off offset segment) seg off = offset := by
  have hlow := writeWord_above (writeWord mem seg off offset) seg off segment (j := 2) (k := 0) (by omega)
    (by omega) (by omega) (by omega)
  rw [above_zero] at hlow
  have hhigh := writeWord_above (writeWord mem seg off offset) seg off segment (j := 2) (k := 1) (by omega)
    (by omega) (by omega) (by omega)
  rw [writeFar, add_two_eq_above, readWord_congr hlow hhigh, readWord_writeWord]

theorem readWord_writeFar_high (offset segment : UInt16) :
    readWord (writeFar mem seg off offset segment) seg (off + 2) = segment :=
  readWord_writeWord _ _ _ _

theorem clear_of_apart {need : Nat} {s : Cpu} (low : UInt16) (hlow : above low (2 * need) = s.regs.sp)
    (h : ∀ area ∈ areas, area.Apart ⟨s.regs.ss, low, 2 * need⟩) : Clear (InAreas areas) need s := by
  refine ⟨low, hlow, ?_⟩
  rintro a ⟨area, harea, m, hm, rfl⟩ n hn
  exact h area harea m hm n hn

-- A far pointer is read the same when its bytes are.
theorem readWord_farArea (h : ∀ a, (farArea seg off).Has a → mem' a = mem a) :
    readWord mem' seg off = readWord mem seg off ∧
      readWord mem' seg (off + 2) = readWord mem seg (off + 2) := by
  constructor
  · apply readWord_of_kept
    intro a ha
    rw [← above_zero off] at ha
    exact h a (wordAt_farArea (Nat.zero_le 2) ha)
  · apply readWord_of_kept
    intro a ha
    exact h a (wordAt_farArea (Nat.le_refl 2) ha)

end

section

variable {env : Env} {F : StackFrame} {k need : Nat} {s : Cpu} {view : View} {f : Cpu → Cpu}

-- The registers in a handler.
def View.raise (n : UInt8) (mem : Memory) (ip : UInt16) (view : View) : View where
  regs := { view.regs with
    sp := view.regs.sp - 2 - 2 - 2, cs := readWord mem 0 (vector n + 2)
    flags := view.regs.flags &&& 0xFCFF }
  own := ip :: view.regs.cs :: view.regs.flags :: view.own

-- The vector has been there from the start.
theorem Sees.raise {n : UInt8} (h : Sees F s view) (hkeep : ∀ a, (vectorArea n).Has a → F.keep a)
    (hroom : view.own.length + 3 ≤ F.size) :
    Sees F (s.interrupt n) (view.raise n F.start s.ip) ∧
      (s.interrupt n).ip = readWord F.start 0 (vector n) := by
  have hflags := h.push view.regs.flags (by omega)
  have hcs := hflags.push view.regs.cs (by rw [View.push, List.length_cons]; omega)
  have hip := hcs.push s.ip (by simp only [View.push, List.length_cons]; omega)
  obtain ⟨hoff, hseg⟩ := readWord_farArea fun a ha => hip.kept a (hkeep a ha)
  have hgone := hip.with_regs { view.regs with
    sp := view.regs.sp - 2 - 2 - 2, cs := readWord F.start 0 (vector n + 2)
    flags := view.regs.flags &&& 0xFCFF } rfl rfl
  have hinterrupt : s.interrupt n = { Cpu.push s.ip (Cpu.push view.regs.cs (Cpu.push view.regs.flags s)) with
      ip := readWord F.start 0 (vector n)
      regs := { view.regs with
        sp := view.regs.sp - 2 - 2 - 2, cs := readWord F.start 0 (vector n + 2)
        flags := view.regs.flags &&& 0xFCFF } } := by
    rw [← hoff, ← hseg, Cpu.interrupt]
    simp only [Cpu.goFar, Cpu.push, h.regs]
  rw [hinterrupt]
  exact ⟨hgone.with_ip _, rfl⟩

-- An interrupt, whose handler is not part of the code.
theorem At.int {n : UInt8} (h : At env F k s view) (hcode : env.code k = some (.int n))
    (hkeep : ∀ a, (vectorArea n).Has a → F.keep a)
    (hf : env.external (readWord F.start 0 (vector n + 2)) (readWord F.start 0 (vector n)) = some f)
    (hreturns : ∀ c, c.regs = (view.raise n F.start (above env.base (k + 2))).regs →
      InterruptReturns F.keep need f c (view.own ++ F.rest)) (hroom : view.own.length + 3 + need ≤ F.size) :
    ∃ c, env.Reaches s [c] (f c) ∧ c.regs = (view.raise n F.start (above env.base (k + 2))).regs ∧
      c.ip = readWord F.start 0 (vector n) ∧ (∀ a, F.keep a → c.mem a = F.start a) ∧
      At env F (k + 2) (f c) ⟨(f c).regs, view.own⟩ := by
  obtain ⟨hraised, hip⟩ := (h.sees.with_ip (s.ip + UInt16.ofNat 2)).raise hkeep (by omega)
  rw [h.next 2] at hraised hip
  have hexec : s.exec (.int n) = Cpu.interrupt n { s with ip := above env.base (k + 2) } := by
    rw [Cpu.exec, ← h.next 2]
    rfl
  rw [← hexec] at hraised hip
  have hcs : view.regs.cs = env.cs := h.cs
  have hentered : Sees F (s.exec (.int n))
      ⟨(s.exec (.int n)).regs, above env.base (k + 2) :: env.cs :: view.regs.flags :: view.own⟩ := by
    rw [hraised.regs, ← hcs]
    exact hraised
  have hcall : env.external (s.exec (.int n)).regs.cs (s.exec (.int n)).ip = some f := by
    rw [hraised.regs, hip]
    exact hf
  obtain ⟨hcalled, hback⟩ := hentered.interrupt hcall (hreturns _ hraised.regs) hroom
  exact ⟨_, (Env.Reaches.instr hcode h.cs' h.ip).trans hcalled, hraised.regs, hip, hraised.kept, hback⟩

-- A handler as it is entered by an interrupt, with so many words of stack to itself.
structure Raised (n : UInt8) (keep : Nat → Prop) (need : Nat) (u : Cpu) (words : List UInt16) : Prop where
  ip : (u.interrupt n).ip = readWord u.mem 0 (vector n)
  regs : (u.interrupt n).regs = { u.regs with
    sp := (u.interrupt n).regs.sp, cs := readWord u.mem 0 (vector n + 2), flags := u.regs.flags &&& 0xFCFF }
  sp : above (u.interrupt n).regs.sp 6 = u.regs.sp
  holds : Holds (u.interrupt n).mem (u.interrupt n).regs.ss (u.interrupt n).regs.sp
    (u.ip :: u.regs.cs :: u.regs.flags :: words)
  clear : Clear keep need (u.interrupt n)
  kept : ∀ a, keep a → (u.interrupt n).mem a = u.mem a

theorem raised_of_clear {n : UInt8} {keep : Nat → Prop} {u : Cpu} {words : List UInt16}
    (hvector : ∀ a, (vectorArea n).Has a → keep a) (hclear : Clear keep (3 + need) u)
    (hstack : Holds u.mem u.regs.ss u.regs.sp words) (hfits : 2 * (3 + need + words.length) ≤ 65536) :
    Raised n keep need u words := by
  obtain ⟨F, hsize, hrest, hkeep, hstart, _, hsees⟩ := exists_frame hclear hstack hfits
  rw [← hkeep] at hvector
  obtain ⟨hraised, hip⟩ := hsees.raise hvector (by rw [hsize]; exact Nat.le_add_right 3 _)
  rw [hstart] at hraised hip
  refine ⟨hip, ?_, ?_, ?_, ?_, ?_⟩
  · rw [hraised.regs]
    rfl
  · rw [hraised.regs, View.raise]
    exact (above_sub_two _ 4).trans ((above_sub_two _ 2).trans ((above_sub_two _ 0).trans (above_zero _)))
  · have hholds := hraised.holds
    rw [hrest, ← hraised.ss, ← hraised.regs] at hholds
    exact hholds
  · rw [← hkeep]
    apply hraised.clear
    rw [hsize]
    exact Nat.le_refl _
  · intro a ha
    rw [← hkeep] at ha
    rw [hraised.kept a ha, hstart]

theorem Clear.mono {keep keep' : Nat → Prop} (h : Clear keep need s) (hsub : ∀ a, keep' a → keep a) :
    Clear keep' need s := by
  obtain ⟨low, hlow, hfree⟩ := h
  exact ⟨low, hlow, fun a ha => hfree a (hsub a ha)⟩

-- The same stack, when other bytes are to be kept from now on.
def StackFrame.keeping (F : StackFrame) (keep : Nat → Prop) (mem : Memory)
    (hapart : ∀ a, keep a → ∀ n < 2 * F.size, a ≠ physical F.ss (above F.bottom n)) : StackFrame :=
  { F with keep, start := mem, apart := hapart }

theorem At.keeping (h : At env F k s view) (keep : Nat → Prop)
    (hapart : ∀ a, keep a → ∀ n < 2 * F.size, a ≠ physical F.ss (above F.bottom n)) :
    At env (F.keeping keep s.mem hapart) k s view :=
  ⟨h.ip, h.cs, h.sees.regs, h.sees.ss, h.sees.sp, h.sees.own_le, h.sees.holds, fun _ _ => rfl⟩

end

end Library.X86
