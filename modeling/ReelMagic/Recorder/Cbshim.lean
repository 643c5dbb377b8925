import ReelMagic.Recorder.Intcall

namespace ReelMagic.Recorder

open Library Library.X86

-- The offsets from `getra` of the shim that the driver is given, of the far jump at its end and of
-- the code that installs it.
def CBSHIM : Nat := 7

def FORWARDCB : Nat := 43

def SETFMPDRVCB : Nat := 48

def AFTER_SETFMPDRVCB : Nat := 100

def cbshimStart (image : Image) : List Instr :=
  [.pop .ax, .jmpReg .ax, .call image.callbackAsm, .ret]

def cbshimSave : List Instr :=
  [.push .ds, .push .es, .push .ax, .push .bx, .push .cx, .push .dx, .mov .ax .cs, .mov .ds .ax,
    .mov .es .ax, .mov .ax .ss, .mov .bx .sp, .addImm .bx 16, .mov .cx .sp]

def cbshimRestore : List Instr := [.pop .dx, .pop .cx, .pop .bx, .pop .ax, .pop .es, .pop .ds]

def cbshim (image : Image) : List Instr :=
  cbshimSave ++ ([.call image.recordCallbackEnter] ++ (cbshimRestore ++
    [.jmp (above image.callbackAsm FORWARDCB), .call image.callbackAsm, .ret, .jmpFar]))

def installSave : List Instr := [.pusha, .push .ds, .push .es, .push .ds, .mov .ax .cs, .mov .ds .ax]

def installRestore : List Instr := [.pop .es, .pop .ds, .popa]

def setfmpdrvcb (image : Image) : List Instr :=
  installSave ++
    ([.call (above image.callbackAsm 39), .mov .bx .ax, .pop .ds, .movEaxMem image.actualCb] ++
      ([.shldEdxEax, .storeBx 2 .ax, .storeBx 4 .dx, .movImm .bx 0x0B00,
        .movMem .cx image.actualCbType] ++
        ([.call (above image.callbackAsm 3), .addImm .ax 1, .mov .dx .cs, .pushf,
          .callFarMem image.actualFmpdrv] ++ installRestore)))

def callbackCode (image : Image) : List Instr :=
  cbshimStart image ++ (cbshim image ++ setfmpdrvcb image)

-- The operand of the far jump.
def Image.keepcb (image : Image) (address : Nat) : Prop :=
  ∃ n < 4, address = physical image.cs (above image.callbackAsm (FORWARDCB + 1 + n))

def Image.forwardcb (image : Image) (mem : Memory) : FarPtr :=
  ⟨readWord mem image.cs (above image.callbackAsm (FORWARDCB + 3)),
    readWord mem image.cs (above image.callbackAsm (FORWARDCB + 1))⟩

structure LoadedCallback (image : Image) (external : UInt16 → UInt16 → Option (Cpu → Cpu)) : Prop where
  inside : ∀ k ∈ (assemble 0 (callbackCode image)).map Prod.fst,
    k < 65536 ∧ external image.cs (above image.callbackAsm k) = none

-- `_prsvregs` and `_callargs`, as `MARSHALL_ARGS` makes them of the arguments, which are in AX, DX,
-- BX and CX.
def prsvregs (c : Cpu) : Regs where
  ax := readWord c.mem c.regs.ax (above c.regs.cx 6)
  bx := readWord c.mem c.regs.ax (above c.regs.cx 4)
  cx := readWord c.mem c.regs.ax (above c.regs.cx 2)
  dx := readWord c.mem c.regs.ax (above c.regs.cx 0)

def callargs (c : Cpu) : CallArgs where
  arg0 := readWord c.mem c.regs.ax (above c.regs.bx 0)
  arg1 := readWord c.mem c.regs.ax (above c.regs.bx 2)
  arg2 := readWord c.mem c.regs.ax (above c.regs.bx 4)
  arg3 := readWord c.mem c.regs.ax (above c.regs.bx 6)

section

variable {image : Image} {external : UInt16 → UInt16 → Option (Cpu → Cpu)} {need : Nat} {s : Cpu}

def LoadedCallback.env (loaded : LoadedCallback image external) : Env :=
  image.env image.callbackAsm (assemble 0 (callbackCode image)) external loaded.inside

theorem LoadedCallback.code (loaded : LoadedCallback image external) :
    loaded.env.Code 0 (cbshimStart image) ∧ loaded.env.Code CBSHIM (cbshim image) ∧
      loaded.env.Code SETFMPDRVCB (setfmpdrvcb image) := by
  have hnone : ∀ entry ∈ ([] : List (Nat × Instr)), entry.1 < 0 := fun _ hmem => absurd hmem List.not_mem_nil
  have hcode : loaded.env.Code 0 (callbackCode image) := code_of_listing hnone fun _ => rfl
  have hstart : 0 + sizes (cbshimStart image) = CBSHIM := rfl
  have hshim : CBSHIM + sizes (cbshim image) = SETFMPDRVCB := by
    simp [sizes, cbshim, cbshimSave, cbshimRestore, Instr.size, CBSHIM, SETFMPDRVCB]
  rw [callbackCode, Env.code_append, Env.code_append, hstart, hshim] at hcode
  exact hcode

-- What is pushed, innermost first, while `record_callback_enter` runs.
def callbackWords (regs : Registers) : List UInt16 :=
  [regs.dx, regs.cx, regs.bx, regs.ax, regs.es, regs.ds]

theorem cbshimSave_block (regs : Registers) (own : List UInt16) :
    ∃ sp flags, View.block ⟨regs, own⟩ cbshimSave =
      some ⟨{ regs with
        ax := regs.ss, bx := sp + 16, cx := sp, sp, ds := regs.cs, es := regs.cs, flags },
        callbackWords regs ++ own⟩ := by
  simp only [View.block, cbshimSave, List.foldlM_cons, List.foldlM_nil, View.perform, View.push,
    Registers.get, Registers.set, Option.bind_eq_bind, Option.bind_some, reduceCtorEq, or_self, if_false]
  exact ⟨_, _, rfl⟩

theorem cbshimRestore_block (regs after : Registers) (own : List UInt16) :
    ∃ sp, View.block ⟨after, callbackWords regs ++ own⟩ cbshimRestore =
      some ⟨{ after with
        ax := regs.ax, bx := regs.bx, cx := regs.cx, dx := regs.dx, sp, ds := regs.ds, es := regs.es },
        own⟩ := by
  simp only [View.block, cbshimRestore, callbackWords, List.cons_append, List.nil_append,
    List.foldlM_cons, List.foldlM_nil, View.perform, View.pop, Registers.set, Option.bind_eq_bind,
    Option.bind_some, reduceCtorEq, or_self, if_false]
  exact ⟨_, rfl⟩

-- The registers that a function of the compiler leaves as they were, next to the segments.
def KeepsWatcall (f : Cpu → Cpu) : Prop :=
  ∀ c, (f c).regs.si = c.regs.si ∧ (f c).regs.di = c.regs.di ∧ (f c).regs.bp = c.regs.bp

-- The words of stack that the shim itself takes, and those that its installation does.
def CALLBACK_DEPTH : Nat := 7

def INSTALL_DEPTH : Nat := 13

-- A callback of the driver through the shim: `enter` is the state in which the recording function
-- is entered, `t` the one in which the callback of the application is.
structure RecordedCallback (image : Image) (s enter t : Cpu) (args : CallArgs) (words : List UInt16) :
    Prop where
  enter_ip : enter.ip = image.recordCallbackEnter
  enter_regs : prsvregs enter = regsOf s
  enter_args : callargs enter = args
  ip : t.ip = (image.forwardcb s.mem).off
  regs : t.regs = { s.regs with
    cs := (image.forwardcb s.mem).seg, flags := t.regs.flags, axHigh := t.regs.axHigh
    dxHigh := t.regs.dxHigh }
  holds : Holds t.mem s.regs.ss s.regs.sp words
  forwardcb : image.forwardcb t.mem = image.forwardcb s.mem

theorem forwardcb_congr {mem mem' : Memory} (h : ∀ a, image.keepcb a → mem' a = mem a) :
    image.forwardcb mem' = image.forwardcb mem := by
  have hword : ∀ n < 3, readWord mem' image.cs (above image.callbackAsm (FORWARDCB + 1 + n)) =
      readWord mem image.cs (above image.callbackAsm (FORWARDCB + 1 + n)) := by
    intro n hn
    apply readWord_congr
    · exact h _ ⟨n, by omega, rfl⟩
    · rw [add_one_eq_above, above_above]
      exact h _ ⟨n + 1, by omega, rfl⟩
  have hoff := hword 0 (by omega)
  have hseg := hword 2 (by omega)
  exact FarPtr.mk.injEq _ _ _ _ ▸ ⟨hseg, hoff⟩

-- `_actual_cb` and the far pointer at `_actual_fmpdrv`.
def Image.savedCb (image : Image) (mem : Memory) : FarPtr :=
  ⟨readWord mem image.cs (image.actualCb + 2), readWord mem image.cs image.actualCb⟩

def Image.savedFmpdrv (image : Image) (mem : Memory) : FarPtr :=
  ⟨readWord mem image.cs (image.actualFmpdrv + 2), readWord mem image.cs image.actualFmpdrv⟩

-- The bytes of the three variables, and those of the operand that is aimed.
def Image.keepInstall (image : Image) (address : Nat) : Prop :=
  (∃ n < 4, address = physical image.cs (above image.actualFmpdrv n)) ∨
    (∃ n < 4, address = physical image.cs (above image.actualCb n)) ∨
      (∃ n < 2, address = physical image.cs (above image.actualCbType n)) ∨ image.keepcb address

-- The operand is not where the variables are that are read once it has been aimed.
structure Image.Apart (image : Image) : Prop where
  fmpdrv : ∀ m < 4, ∀ n < 4, above image.actualFmpdrv m ≠ above image.callbackAsm (FORWARDCB + 1 + n)
  type : ∀ m < 2, ∀ n < 4, above image.actualCbType m ≠ above image.callbackAsm (FORWARDCB + 1 + n)

-- The memory once the operand has been aimed.
def Image.aimed (image : Image) (mem : Memory) : Memory :=
  writeWord (writeWord mem image.cs (above image.callbackAsm (FORWARDCB + 1)) (image.savedCb mem).off)
    image.cs (above image.callbackAsm (FORWARDCB + 3)) (image.savedCb mem).seg

theorem forwardcb_aimed (image : Image) (mem : Memory) :
    image.forwardcb (image.aimed mem) = image.savedCb mem := by
  have hseg : readWord (image.aimed mem) image.cs (above image.callbackAsm (FORWARDCB + 3)) =
      (image.savedCb mem).seg := readWord_writeWord _ _ _ _
  have hoff : readWord (image.aimed mem) image.cs (above image.callbackAsm (FORWARDCB + 1)) =
      (image.savedCb mem).off := by
    refine (readWord_congr ?_ ?_).trans (readWord_writeWord mem image.cs _ (image.savedCb mem).off)
    · exact writeWord_above _ _ _ _ (by decide) (by decide) (by decide) (by decide)
    · rw [add_one_eq_above, above_above]
      exact writeWord_above _ _ _ _ (by decide) (by decide) (by decide) (by decide)
  rw [Image.forwardcb, hseg, hoff]

-- A word elsewhere is as it was.
theorem readWord_aimed {off : UInt16} (mem : Memory)
    (h : ∀ m < 2, ∀ n < 4, above off m ≠ above image.callbackAsm (FORWARDCB + 1 + n)) :
    readWord (image.aimed mem) image.cs off = readWord mem image.cs off := by
  have hbyte : ∀ m < 2, image.aimed mem (physical image.cs (above off m)) =
      mem (physical image.cs (above off m)) := by
    intro m hm
    have hsucc : ∀ n, above image.callbackAsm n + 1 = above image.callbackAsm (n + 1) :=
      fun n => by rw [add_one_eq_above, above_above]
    rw [Image.aimed, writeWord_of_ne _ _ (physical_ne (h m hm 2 (by omega))),
      writeWord_of_ne _ _ (physical_ne (h m hm 0 (by omega)))]
    · rw [hsucc]
      exact physical_ne (h m hm 1 (by omega))
    · rw [hsucc]
      exact physical_ne (h m hm 3 (by omega))
  have hlow := hbyte 0 (by omega)
  rw [above_zero] at hlow
  exact readWord_congr hlow (hbyte 1 (by omega))

-- The driver is told to call back through the shim, which at that moment goes on to the callback
-- that the application has asked for. `driven` is the state in which the driver is entered.
structure Retargeted (image : Image) (s driven t : Cpu) (words : List UInt16) : Prop where
  driven_ip : driven.ip = (image.savedFmpdrv s.mem).off
  driven_cs : driven.regs.cs = (image.savedFmpdrv s.mem).seg
  driven_regs : regsOf driven =
    ⟨above image.callbackAsm CBSHIM, 0x0B00, readWord s.mem image.cs image.actualCbType, image.cs⟩
  driven_forwardcb : image.forwardcb driven.mem = image.savedCb s.mem
  ip : t.ip = above image.callbackAsm AFTER_SETFMPDRVCB
  regs : t.regs = { s.regs with
    flags := t.regs.flags, axHigh := t.regs.axHigh, dxHigh := t.regs.dxHigh }
  holds : Holds t.mem s.regs.ss s.regs.sp words
  forwardcb : image.forwardcb t.mem = image.savedCb s.mem

theorem installSave_block (regs : Registers) (own : List UInt16) :
    ∃ sp, View.block ⟨regs, own⟩ installSave =
      some ⟨{ regs with ax := regs.cs, sp, ds := regs.cs },
        regs.ds :: regs.es :: regs.ds :: (pushaWords regs ++ own)⟩ := by
  obtain ⟨sp, hpusha⟩ := View.pusha_eq regs own
  simp only [View.block, installSave, List.foldlM_cons, List.foldlM_nil, View.perform, View.push,
    Registers.get, Registers.set, hpusha, Option.bind_eq_bind, Option.bind_some, reduceCtorEq, or_self,
    if_false]
  exact ⟨_, rfl⟩

theorem installRestore_block (regs after : Registers) (own : List UInt16) :
    ∃ sp, View.block ⟨after, regs.es :: regs.ds :: (pushaWords regs ++ own)⟩ installRestore =
      some ⟨{ regs with
        sp, axHigh := after.axHigh, dxHigh := after.dxHigh, cs := after.cs, ss := after.ss
        flags := after.flags }, own⟩ := by
  obtain ⟨sp, hpopa⟩ := View.popa_eq
    { after with es := regs.es, ds := regs.ds, sp := after.sp + 2 + 2 } regs own
  simp only [View.block, installRestore, List.foldlM_cons, List.foldlM_nil, View.perform, View.pop,
    Registers.set, hpopa, Option.bind_eq_bind, Option.bind_some, reduceCtorEq, or_self, if_false]
  exact ⟨_, rfl⟩

-- The words that stay on the stack until the registers are put back.
def installWords (regs : Registers) : List UInt16 := regs.es :: regs.ds :: pushaWords regs

theorem LoadedCallback.getra (loaded : LoadedCallback image external) :
    loaded.env.code 0 = some (.pop .ax) ∧ loaded.env.code 1 = some (.jmpReg .ax) ∧
      loaded.env.code 3 = some (.call (above loaded.env.base 0)) ∧ loaded.env.code 6 = some .ret ∧
        loaded.env.code 39 = some (.call (above loaded.env.base 0)) ∧ loaded.env.code 42 = some .ret := by
  obtain ⟨⟨hpop, hjmp, hgetcb, hretcb, _⟩, hshim, _⟩ := loaded.code
  rw [cbshim, Env.code_append, Env.code_append, Env.code_append] at hshim
  obtain ⟨_, _, _, _, hgetjmp, hretjmp, _⟩ := hshim
  rw [above_zero]
  exact ⟨hpop, hjmp, hgetcb, hretcb, hgetjmp, hretjmp⟩

-- The operand is aimed through the data segment of the caller, which is that of the code.
theorem aim_forwardcb {F : StackFrame} (loaded : LoadedCallback image external)
    (hkeep : F.keep = image.keepInstall) (hds : s.regs.ds = image.cs)
    (hroom : INSTALL_DEPTH ≤ F.size)
    (hstack : ∀ a, image.keepcb a → ∀ n < 2 * (F.size + F.rest.length), a ≠ physical F.ss (above F.bottom n))
    (h : At loaded.env F SETFMPDRVCB s ⟨s.regs, []⟩) :
    ∃ t regs, loaded.env.Reaches s [] t ∧ regs.ds = image.cs ∧
      At loaded.env { F with start := image.aimed F.start } 77 t ⟨regs, installWords s.regs⟩ := by
  obtain ⟨hpopAx, hjmpAx, _, _, hget, hret⟩ := loaded.getra
  obtain ⟨_, _, hcode⟩ := loaded.code
  rw [setfmpdrvcb, Env.code_append, Env.code_append, Env.code_append, Env.code_append] at hcode
  obtain ⟨hsave, ⟨hcall, hmovBx, hpopDs, hload, _⟩, ⟨hshld, hstore, hstore', _⟩, _⟩ := hcode
  rw [INSTALL_DEPTH] at hroom
  have hsaves : pushes installSave = 11 := rfl
  have hlength : (pushaWords s.regs).length = 8 := rfl
  obtain ⟨sp, hblock1⟩ := installSave_block s.regs []
  rw [List.append_nil] at hblock1
  obtain ⟨t1, hr1, h1⟩ := h.block hsave hblock1 (by rw [hsaves, List.length_nil]; omega)
  obtain ⟨t2, hr2, h2⟩ := h1.getabove (q := 39) hcall hget hret hpopAx hjmpAx
    (by simp only [List.length_cons, hlength]; omega)
  have hcode3 : loaded.env.Code 59 [.mov .bx .ax, .pop .ds] := ⟨hmovBx, hpopDs, trivial⟩
  have hblock3 : ∃ sp3, View.block
      ⟨{ s.regs with ax := above loaded.env.base 42, sp, ds := s.regs.cs },
        s.regs.ds :: s.regs.es :: s.regs.ds :: pushaWords s.regs⟩ [.mov .bx .ax, .pop .ds] =
      some ⟨{ s.regs with ax := above loaded.env.base 42, bx := above loaded.env.base 42, sp := sp3 },
        installWords s.regs⟩ := ⟨_, rfl⟩
  obtain ⟨sp3, hblock3⟩ := hblock3
  obtain ⟨t3, hr3, h3⟩ := h2.block hcode3 hblock3
    (by simp only [List.length_cons, hlength]; exact (by omega : 11 + 0 ≤ F.size))
  obtain ⟨t4, hr4, h4⟩ := h3.movEaxMem hload
    (by rw [hkeep]; exact fun n hn => .inr (.inl ⟨n, hn, by rw [← hds]⟩))
  have hcode5 : loaded.env.Code 66 [.shldEdxEax] := ⟨hshld, trivial⟩
  have hblock5 : ∀ off seg : UInt16, View.block
      ⟨{ s.regs with ax := off, bx := above loaded.env.base 42, sp := sp3, axHigh := seg },
        installWords s.regs⟩ [.shldEdxEax] =
      some ⟨{ s.regs with
        ax := off, bx := above loaded.env.base 42, dx := seg, sp := sp3, axHigh := seg
        dxHigh := s.regs.dx }, installWords s.regs⟩ := fun _ _ => rfl
  obtain ⟨t5, hr5, h5⟩ := h4.block hcode5 (hblock5 _ _) (by exact (by omega : 10 + 0 ≤ F.size))
  have hoperand : ∀ m < 4, ∀ n < 2 * (F.size + F.rest.length),
      physical F.ss (above F.bottom n) ≠ physical s.regs.ds (above loaded.env.base (44 + m)) := by
    intro m hm n hn heq
    rw [hds] at heq
    exact hstack _ ⟨m, hm, rfl⟩ n hn heq.symm
  have hoff : above loaded.env.base 42 + 2 = above loaded.env.base 44 := above_above _ _ _
  have hseg : above loaded.env.base 42 + 4 = above loaded.env.base 46 := above_above _ _ _
  have hnext : ∀ n, above loaded.env.base n + 1 = above loaded.env.base (n + 1) := fun n => above_above _ _ _
  obtain ⟨t6, hr6, h6⟩ := h5.storeBx hstore (by
    intro n hn
    dsimp only
    rw [hoff, hnext]
    exact ⟨hoperand 0 (by omega) n hn, hoperand 1 (by omega) n hn⟩)
  obtain ⟨t7, hr7, h7⟩ := h6.storeBx hstore' (by
    intro n hn
    dsimp only
    rw [hseg, hnext]
    exact ⟨hoperand 2 (by omega) n hn, hoperand 3 (by omega) n hn⟩)
  dsimp only [StackFrame.store, Registers.get] at h7
  rw [hoff, hseg, hds] at h7
  exact ⟨t7, _, hr1.trans (hr2.trans (hr3.trans (hr4.trans (hr5.trans (hr6.trans hr7))))), rfl, h7⟩

-- What is left of the assembly tells the driver, through a call of which the handler is not part.
theorem tell_driver {F : StackFrame} {regs : Registers} {driver : Cpu → Cpu} {type : UInt16}
    {fmpdrv : FarPtr} (loaded : LoadedCallback image external) (hkeep : F.keep = image.keepInstall)
    (hds : regs.ds = image.cs) (htype : readWord F.start image.cs image.actualCbType = type)
    (hfmpdrv : image.savedFmpdrv F.start = fmpdrv)
    (hdriver : external fmpdrv.seg fmpdrv.off = some driver)
    (hreturns : ReturnsInterrupt image.keepInstall need driver F.rest) (hroom : INSTALL_DEPTH + need ≤ F.size)
    {saved : Registers} (h : At loaded.env F 77 s ⟨regs, installWords saved⟩) :
    ∃ (driven t : Cpu) (after : Registers), loaded.env.Reaches s [driven] t ∧
      driven.ip = fmpdrv.off ∧ driven.regs.cs = fmpdrv.seg ∧
      regsOf driven = ⟨above image.callbackAsm CBSHIM, 0x0B00, type, image.cs⟩ ∧
      (∀ a, F.keep a → driven.mem a = F.start a) ∧
      At loaded.env F AFTER_SETFMPDRVCB t ⟨{ saved with
        sp := after.sp, axHigh := after.axHigh, dxHigh := after.dxHigh, cs := after.cs
        ss := after.ss, flags := after.flags }, []⟩ := by
  obtain ⟨hpopAx, hjmpAx, hget, hret, _, _⟩ := loaded.getra
  obtain ⟨_, _, hcode⟩ := loaded.code
  rw [setfmpdrvcb, Env.code_append, Env.code_append, Env.code_append, Env.code_append] at hcode
  obtain ⟨_, _, ⟨_, _, _, hmovImm, hmovType, _⟩, ⟨hcall, hadd, hmovDx, hpushf, hcallDriver, _⟩, hrestore⟩ :=
    hcode
  rw [INSTALL_DEPTH] at hroom
  have hlength : (installWords saved).length = 10 := rfl
  have hcode1 : loaded.env.Code 77 [.movImm .bx 0x0B00] := ⟨hmovImm, trivial⟩
  have hblock1 : View.block ⟨regs, installWords saved⟩ [.movImm .bx 0x0B00] =
      some ⟨{ regs with bx := 0x0B00 }, installWords saved⟩ := rfl
  obtain ⟨t1, hr1, h1⟩ := h.block hcode1 hblock1 (by exact (by omega : 10 + 0 ≤ F.size))
  obtain ⟨t2, hr2, h2⟩ := h1.movMem hmovType (by decide)
    (by rw [hkeep]; exact fun n hn => .inr (.inr (.inl ⟨n, hn, by rw [← hds]⟩)))
  obtain ⟨t3, hr3, h3⟩ := h2.getabove (q := 3) hcall hget hret hpopAx hjmpAx
    (by exact (by omega : 10 + 2 ≤ F.size))
  have hcode4 : loaded.env.Code 87 [.addImm .ax 1, .mov .dx .cs, .pushf] :=
    ⟨hadd, hmovDx, hpushf, trivial⟩
  have hblock4 : ∀ word, ∃ sp flags, View.block
      ⟨{ regs with ax := above loaded.env.base 6, bx := 0x0B00, cx := word }, installWords saved⟩
      [.addImm .ax 1, .mov .dx .cs, .pushf] =
      some ⟨{ regs with
        ax := above loaded.env.base 6 + 1, bx := 0x0B00, cx := word, dx := regs.cs, sp, flags },
        flags :: installWords saved⟩ := fun _ => ⟨_, _, rfl⟩
  obtain ⟨sp4, flags4, hblock4⟩ := hblock4 (readWord F.start regs.ds image.actualCbType)
  obtain ⟨t4, hr4, h4⟩ := h3.block hcode4 hblock4 (by exact (by omega : 10 + 1 ≤ F.size))
  obtain ⟨driven, hr5, hregs5, hip5, hmem5, h5⟩ := At.callMemInterrupt h4 hcallDriver rfl
    (by rw [hkeep]; exact fun n hn => .inl ⟨n, hn, by rw [← hds]⟩)
    (by dsimp only; rw [hds, ← hdriver, ← hfmpdrv]; rfl) (by rw [hkeep]; exact hreturns)
    (by rw [hlength]; omega)
  obtain ⟨sp6, hblock6⟩ := installRestore_block saved (driver driven).regs []
  rw [List.append_nil] at hblock6
  obtain ⟨t6, hr6, h6⟩ := h5.block hrestore hblock6 (by exact (by omega : 10 + 0 ≤ F.size))
  have hbase : above loaded.env.base 6 + 1 = above image.callbackAsm CBSHIM := above_above _ _ _
  have hcs : regs.cs = image.cs := h.cs
  refine ⟨driven, t6, { (driver driven).regs with sp := sp6 }, ?_, ?_, ?_, ?_, hmem5, h6⟩
  · exact hr1.trans (hr2.trans (hr3.trans (hr4.trans (hr5.trans hr6))))
  · rw [hip5, hds, ← hfmpdrv]
    rfl
  · rw [hregs5, ← hfmpdrv, hds]
    rfl
  · rw [regsOf, hregs5]
    dsimp only
    rw [hbase, hcs, hds, htype]

end

-- The same program when the driver calls back with AX = 7 and 1 for its first argument, and the
-- callback of the application is at 5000:0000.
def calledBackAt1000 : Cpu where
  regs := ⟨7, 2, 0, 0, 0, 0, 0, 0x1000, 0, 0, 0x1000, 0x2000, 0x2000, 0x3000, 0x202⟩
  ip := 0x307
  mem a := if a = 0x1032F then 0x50 else if a = 0x31004 then 1 else 0

-- It when the exit of a call gets to its assembly, with that callback and 3 for its type.
def exitingAt1000 : Cpu where
  regs := ⟨7, 2, 0, 0, 0, 0, 0, 0x1000, 0, 0, 0x1000, 0x1000, 0x1000, 0x3000, 0x202⟩
  ip := 0x330
  mem a := if a = 0x10803 then 0x20 else if a = 0x10807 then 0x50 else if a = 0x10808 then 3 else 0

theorem loadedCallbackAt1000 : LoadedCallback imageAt1000 externalAt1000 where
  inside := by
    have hplaces : ∀ k ∈ (assemble 0 (callbackCode imageAt1000)).map Prod.fst, k < 0x100 := by decide
    intro k hk
    have hlt := hplaces k hk
    have hbase : imageAt1000.callbackAsm.toNat = 0x300 := rfl
    exact ⟨by omega, externalAt1000_asm (by omega)⟩

end ReelMagic.Recorder
