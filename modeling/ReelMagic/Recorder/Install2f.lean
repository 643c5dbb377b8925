import ReelMagic.Recorder.Install
import ReelMagic.Recorder.Intcall2f

namespace ReelMagic.Recorder

open Library Library.X86

-- What stands behind the handler, and puts it at INT 2Fh with two calls of DOS. The handler that it
-- finds there becomes the operand of the far jump.
def SETINTCALLPTR2F : Nat := 61

def AFTER_SETINTCALLPTR2F : Nat := 104

def getIntVector : List Instr := [.pusha, .push .ds, .push .es, .movAh 0x35, .movAl 0x2F]

def setForward2f (image : Image) : List Instr :=
  [.push .bx, .mov .ax .cs, .mov .ds .ax, .call (above image.rmdevsysAsm 52), .mov .bx .ax, .pop .ax,
    .storeBx 2 .ax, .storeBx 4 .es]

def setIntVector (image : Image) : List Instr :=
  [.call (above image.rmdevsysAsm 3), .mov .dx .ax, .addImm .dx 1, .movAh 0x25, .movAl 0x2F]

def setintcallptr2f (image : Image) : List Instr :=
  getIntVector ++ ([.int 0x21] ++ (setForward2f image ++ (setIntVector image ++ ([.int 0x21] ++ installRestore))))

def rmdevsysAssembly (image : Image) : List (Nat × Instr) :=
  rmdevsysIntcall image ++ assemble SETINTCALLPTR2F (setintcallptr2f image)

def Image.operandArea (image : Image) : Area := farArea image.cs (above image.rmdevsysAsm (FORWARD2F + 1))

-- What is read or written by the installation, and what DOS leaves alone when it sets the vector.
def Image.install2fAreas (image : Image) : List Area := [image.operandArea, vectorArea 0x21, vectorArea 0x2F]

def Image.setAreas (image : Image) : List Area := [image.operandArea, vectorArea 0x21]

-- The two calls of DOS, with AH = 35h and AH = 25h. The second one writes the vector, where its
-- caller has no stack.
structure DosVectors (image : Image) (need : Nat) (dos : Cpu → Cpu) : Prop where
  get : ∀ c, c.regs.ax = 0x352F → (dos c).regs.bx = readWord c.mem 0 (vector 0x2F) ∧
    (dos c).regs.es = readWord c.mem 0 (vector 0x2F + 2)
  get_returns : ∀ c words, c.regs.ax = 0x352F →
    InterruptReturns (InAreas image.install2fAreas) need dos c words
  set : ∀ c, c.regs.ax = 0x252F → readWord (dos c).mem 0 (vector 0x2F) = c.regs.dx ∧
    readWord (dos c).mem 0 (vector 0x2F + 2) = c.regs.ds
  set_returns : ∀ c words, c.regs.ax = 0x252F →
    (vectorArea 0x2F).Apart ⟨c.regs.ss, c.regs.sp, 2 * (3 + words.length)⟩ →
      InterruptReturns (InAreas image.setAreas) need dos c words

-- The memory once the operand has been set.
def Image.forwarding (image : Image) (mem : Memory) : Memory :=
  writeFar mem image.cs (above image.rmdevsysAsm (FORWARD2F + 1)) (readWord mem 0 (vector 0x2F))
    (readWord mem 0 (vector 0x2F + 2))

structure LoadedAssembly2f (image : Image) (external : UInt16 → UInt16 → Option (Cpu → Cpu)) : Prop where
  inside : ∀ k ∈ (rmdevsysAssembly image).map Prod.fst,
    k < 65536 ∧ external image.cs (above image.rmdevsysAsm k) = none

-- The words of stack that the installation takes.
def INSTALL2F_DEPTH : Nat := 13

-- INT 2Fh goes to the recorder, which goes on to the handler that was there.
structure Installed2f (image : Image) (s t : Cpu) : Prop where
  ip : t.ip = above image.rmdevsysAsm AFTER_SETINTCALLPTR2F
  regs : t.regs = { s.regs with
    flags := t.regs.flags, axHigh := t.regs.axHigh, dxHigh := t.regs.dxHigh }
  vector_off : readWord t.mem 0 (vector 0x2F) = above image.rmdevsysAsm INTCALL
  vector_seg : readWord t.mem 0 (vector 0x2F + 2) = image.cs
  old_off : image.oldOff t.mem = readWord s.mem 0 (vector 0x2F)
  old_seg : image.oldSeg t.mem = readWord s.mem 0 (vector 0x2F + 2)

theorem setLow_setHigh (word : UInt16) (high low : UInt8) :
    setLow (setHigh word high) low = UInt16.ofNat (256 * high.toNat + low.toNat) := by
  have hhigh := high.toNat_lt
  have hlow := low.toNat_lt
  have hword := word.toNat_lt
  apply UInt16.toNat_inj.mp
  rw [setLow, setHigh, UInt16.toNat_ofNat', UInt16.toNat_ofNat', UInt16.toNat_ofNat']
  omega

section

variable {image : Image} {external : UInt16 → UInt16 → Option (Cpu → Cpu)} {need : Nat} {s : Cpu}
  {dos : Cpu → Cpu}

def LoadedAssembly2f.env (loaded : LoadedAssembly2f image external) : Env :=
  image.env image.rmdevsysAsm (rmdevsysAssembly image) external loaded.inside

theorem LoadedAssembly2f.code (loaded : LoadedAssembly2f image external) :
    (loaded.env.code 0 = some (.pop .ax) ∧ loaded.env.code 1 = some (.jmpReg .ax) ∧
      loaded.env.code 3 = some (.call (above loaded.env.base 0)) ∧ loaded.env.code 6 = some .ret ∧
        loaded.env.code 52 = some (.call (above loaded.env.base 0)) ∧ loaded.env.code 55 = some .ret) ∧
      loaded.env.Code SETINTCALLPTR2F (setintcallptr2f image) := by
  have hfront : ∀ entry ∈ rmdevsysIntcall image, entry.1 < SETINTCALLPTR2F := by
    simp [rmdevsysIntcall, assemble, rmdevsysStart, rmdevsysRecorder, recordCall, saveRegisters,
      restoreRegisters, Instr.size, SETINTCALLPTR2F]
  rw [above_zero]
  exact ⟨⟨rfl, rfl, rfl, rfl, rfl, rfl⟩, code_of_listing hfront fun _ => rfl⟩

theorem getIntVector_block (regs : Registers) :
    ∃ sp, View.block ⟨regs, []⟩ getIntVector = some ⟨{ regs with ax := 0x352F, sp }, installWords regs⟩ := by
  obtain ⟨sp, hpusha⟩ := View.pusha_eq regs []
  have hax : setLow (setHigh regs.ax 0x35) 0x2F = 0x352F := setLow_setHigh _ _ _
  simp only [View.block, getIntVector, List.foldlM_cons, List.foldlM_nil, View.perform, View.push,
    Registers.get, hpusha, List.append_nil, hax, Option.bind_eq_bind, Option.bind_some]
  exact ⟨_, rfl⟩

theorem installWords_length (regs : Registers) : (installWords regs).length = 10 := rfl

-- The vector is asked for, and what comes back is made the operand.
theorem forward2f_set {F : StackFrame} (loaded : LoadedAssembly2f image external) (hdos : DosVectors image need dos)
    (hkeep : F.keep = InAreas image.install2fAreas) (hrest : F.rest = [])
    (hexternal : external (readWord F.start 0 (vector 0x21 + 2)) (readWord F.start 0 (vector 0x21)) = some dos)
    (hroom : INSTALL2F_DEPTH + need ≤ F.size) (h : At loaded.env F SETINTCALLPTR2F s ⟨s.regs, []⟩) :
    ∃ c t regs, loaded.env.Reaches s [c] t ∧ regs.ds = image.cs ∧
      At loaded.env { F with start := image.forwarding F.start } 87 t ⟨regs, installWords s.regs⟩ := by
  rw [INSTALL2F_DEPTH] at hroom
  have h21 : ∀ a, (vectorArea 0x21).Has a → F.keep a := by
    rw [hkeep]
    exact fun a ha => ⟨_, by simp [Image.install2fAreas], ha⟩
  have h2F : ∀ a, (vectorArea 0x2F).Has a → F.keep a := by
    rw [hkeep]
    exact fun a ha => ⟨_, by simp [Image.install2fAreas], ha⟩
  have hoperand : ∀ a, image.operandArea.Has a → F.keep a := by
    rw [hkeep]
    exact fun a ha => ⟨_, by simp [Image.install2fAreas], ha⟩
  obtain ⟨⟨hpopAx, hjmpAx, _, _, hget, hret⟩, hcode⟩ := loaded.code
  rw [setintcallptr2f, Env.code_append, Env.code_append, Env.code_append] at hcode
  obtain ⟨hsave, ⟨hint, _⟩, ⟨hpushBx, hmovAx, hmovDs, hcall, hmovBx, hpopAx', hstoreOff, hstoreSeg, _⟩, _⟩ := hcode
  obtain ⟨sp, hblock1⟩ := getIntVector_block s.regs
  have hpushes1 : pushes getIntVector = 10 := rfl
  obtain ⟨t1, hr1, h1⟩ := h.block hsave hblock1 (by rw [hpushes1, List.length_nil]; omega)
  obtain ⟨c, hr2, hregs2, _, hmem2, h2⟩ := h1.int hint h21 hexternal
    (by
      intro c hc
      rw [hkeep]
      apply hdos.get_returns
      rw [hc]
      rfl)
    (by rw [installWords_length]; omega)
  have hax : c.regs.ax = 0x352F := by
    rw [hregs2]
    rfl
  obtain ⟨hbx, hes⟩ := hdos.get c hax
  obtain ⟨hoff, hseg⟩ := readWord_farArea fun a ha => hmem2 a (h2F a ha)
  rw [hoff] at hbx
  rw [hseg] at hes
  have hcs : (dos c).regs.cs = image.cs := h2.cs
  have hcode3 : loaded.env.Code 70 [.push .bx, .mov .ax .cs, .mov .ds .ax] :=
    ⟨hpushBx, hmovAx, hmovDs, trivial⟩
  have hblock3 : ∃ sp, View.block ⟨(dos c).regs, installWords s.regs⟩ [.push .bx, .mov .ax .cs, .mov .ds .ax] =
      some ⟨{ (dos c).regs with ax := (dos c).regs.cs, ds := (dos c).regs.cs, sp },
        (dos c).regs.bx :: installWords s.regs⟩ := ⟨_, rfl⟩
  obtain ⟨sp3, hblock3⟩ := hblock3
  rw [hcs, hbx] at hblock3
  obtain ⟨t3, hr3, h3⟩ := h2.block hcode3 hblock3 (by exact (by omega : 10 + 1 ≤ F.size))
  obtain ⟨t4, hr4, h4⟩ := h3.getabove (q := 52) hcall hget hret hpopAx hjmpAx
    (by exact (by omega : 11 + 2 ≤ F.size))
  have hcode5 : loaded.env.Code 78 [.mov .bx .ax, .pop .ax] := ⟨hmovBx, hpopAx', trivial⟩
  have hblock5 : ∃ sp, View.block
      ⟨{ (dos c).regs with ax := above loaded.env.base 55, ds := image.cs, sp := sp3 },
        readWord F.start 0 (vector 0x2F) :: installWords s.regs⟩ [.mov .bx .ax, .pop .ax] =
      some ⟨{ (dos c).regs with
        ax := readWord F.start 0 (vector 0x2F), bx := above loaded.env.base 55, ds := image.cs, sp },
        installWords s.regs⟩ := ⟨_, rfl⟩
  obtain ⟨sp5, hblock5⟩ := hblock5
  obtain ⟨t5, hr5, h5⟩ := h4.block hcode5 hblock5 (by exact (by omega : 11 + 0 ≤ F.size))
  have hlow : above loaded.env.base 55 + 2 = above image.rmdevsysAsm (FORWARD2F + 1) := above_above _ _ _
  have hhigh : above loaded.env.base 55 + 4 = above image.rmdevsysAsm (FORWARD2F + 1) + 2 := by
    rw [add_two_eq_above, above_above]
    exact above_above _ _ _
  obtain ⟨t6, hr6, h6⟩ := h5.storeBx hstoreOff (by
    dsimp only
    rw [hlow]
    apply apart_of_keep hrest
    intro a ha
    rw [← above_zero (above _ _)] at ha
    exact hoperand a (wordAt_farArea (Nat.zero_le 2) ha))
  obtain ⟨t7, hr7, h7⟩ := h6.storeBx hstoreSeg (by
    dsimp only
    rw [hhigh]
    exact apart_of_keep (F := F) hrest fun a ha => hoperand a (wordAt_farArea (Nat.le_refl 2) ha))
  dsimp only [StackFrame.store, Registers.get] at h7
  rw [hlow, hhigh, hes] at h7
  exact ⟨c, t7, _, hr1.trans (hr2.trans (hr3.trans (hr4.trans (hr5.trans (hr6.trans hr7))))), rfl, h7⟩

-- The vector is set. This call of DOS may change it, and nothing else of what matters here.
theorem vector2f_set {F : StackFrame} {regs saved : Registers} (loaded : LoadedAssembly2f image external)
    (hdos : DosVectors image need dos) (hkeep : F.keep = InAreas image.install2fAreas) (hrest : F.rest = [])
    (hexternal : external (readWord F.start 0 (vector 0x21 + 2)) (readWord F.start 0 (vector 0x21)) = some dos)
    (hds : regs.ds = image.cs) (hroom : INSTALL2F_DEPTH + need ≤ F.size)
    (h : At loaded.env F 87 s ⟨regs, installWords saved⟩) :
    ∃ c t, loaded.env.Reaches s [c] t ∧ t.ip = above image.rmdevsysAsm AFTER_SETINTCALLPTR2F ∧
      t.regs = { saved with
        sp := F.sp 0, axHigh := t.regs.axHigh, dxHigh := t.regs.dxHigh, cs := image.cs, ss := F.ss
        flags := t.regs.flags } ∧
      (∀ a, image.operandArea.Has a → t.mem a = F.start a) ∧
      readWord t.mem 0 (vector 0x2F) = above image.rmdevsysAsm INTCALL ∧
      readWord t.mem 0 (vector 0x2F + 2) = image.cs := by
  rw [INSTALL2F_DEPTH] at hroom
  have hsetMem : ∀ a, InAreas image.setAreas a → F.keep a := by
    rw [hkeep]
    rintro a ⟨area, harea, ha⟩
    have hsub : image.setAreas ⊆ image.install2fAreas := by simp [Image.setAreas, Image.install2fAreas]
    exact ⟨area, hsub harea, ha⟩
  have hallMem : ∀ a, InAreas image.install2fAreas a → F.keep a := by
    rw [hkeep]
    exact fun _ ha => ha
  have h21 : ∀ a, (vectorArea 0x21).Has a → InAreas image.setAreas a :=
    fun a ha => ⟨_, by simp [Image.setAreas], ha⟩
  have hoperand : ∀ a, image.operandArea.Has a → InAreas image.setAreas a :=
    fun a ha => ⟨_, by simp [Image.setAreas], ha⟩
  have h2F : ∀ a, (vectorArea 0x2F).Has a → InAreas image.install2fAreas a :=
    fun a ha => ⟨_, by simp [Image.install2fAreas], ha⟩
  have hoperand' : ∀ a, image.operandArea.Has a → InAreas image.install2fAreas a :=
    fun a ha => ⟨_, by simp [Image.install2fAreas], ha⟩
  obtain ⟨⟨hpopAx, hjmpAx, hget, hret, _, _⟩, hcode⟩ := loaded.code
  rw [setintcallptr2f, Env.code_append, Env.code_append, Env.code_append, Env.code_append, Env.code_append] at hcode
  obtain ⟨_, _, _, ⟨hcall, hmovDx, hadd, hmovAh, hmovAl, _⟩, ⟨hint, _⟩, hrestore⟩ := hcode
  obtain ⟨t1, hr1, h1⟩ := h.getabove (q := 3) hcall hget hret hpopAx hjmpAx
    (by rw [installWords_length]; omega)
  have hcode2 : loaded.env.Code 90 [.mov .dx .ax, .addImm .dx 1, .movAh 0x25, .movAl 0x2F] :=
    ⟨hmovDx, hadd, hmovAh, hmovAl, trivial⟩
  have hdx : above loaded.env.base 6 + 1 = above image.rmdevsysAsm INTCALL := above_above _ _ _
  have hax : setLow (setHigh (above loaded.env.base 6) 0x25) 0x2F = 0x252F := setLow_setHigh _ _ _
  have hblock2 : ∃ flags, View.block ⟨{ regs with ax := above loaded.env.base 6 }, installWords saved⟩
      [.mov .dx .ax, .addImm .dx 1, .movAh 0x25, .movAl 0x2F] =
      some ⟨{ regs with
        ax := setLow (setHigh (above loaded.env.base 6) 0x25) 0x2F, dx := above loaded.env.base 6 + 1, flags },
        installWords saved⟩ := ⟨_, rfl⟩
  obtain ⟨flags, hblock2⟩ := hblock2
  rw [hax, hdx] at hblock2
  obtain ⟨t2, hr2, h2⟩ := h1.block hcode2 hblock2 (by exact (by omega : 10 + 0 ≤ F.size))
  have h2' := h2.keeping (InAreas image.setAreas) fun a ha => F.apart a (hsetMem a ha)
  have hstart : ∀ a, InAreas image.install2fAreas a → t2.mem a = F.start a := fun a ha =>
    h2.sees.kept a (hallMem a ha)
  obtain ⟨hoff, hseg⟩ := readWord_farArea fun a ha =>
    hstart a ⟨_, (by simp [Image.install2fAreas] : vectorArea 0x21 ∈ image.install2fAreas), ha⟩
  -- the words on the stack are of the frame, which the vector is not in
  have hstack : (vectorArea 0x2F).Apart ⟨regs.ss, regs.sp - 2 - 2 - 2, 2 * (3 + 10)⟩ := by
    rintro m hm n hn heq
    have hss : regs.ss = F.ss := h2.sees.ss
    have hsp : regs.sp = F.sp 10 := h2.sees.sp
    rw [hss, hsp, F.sp_sub_two (by omega), F.sp_sub_two (by omega), F.sp_sub_two (by omega), StackFrame.sp,
      above_above] at heq
    exact F.apart _ (hallMem _ (h2F _ ⟨m, hm, rfl⟩)) _ (by dsimp only at hn; omega) heq
  obtain ⟨c, hr3, hregs3, _, hmem3, h3⟩ := h2'.int hint h21
    (by
      show external (readWord t2.mem 0 (vector 0x21 + 2)) (readWord t2.mem 0 (vector 0x21)) = some dos
      rw [hoff, hseg]
      exact hexternal)
    (by
      intro c hc
      show InterruptReturns _ need dos c (installWords saved ++ F.rest)
      rw [hrest]
      apply hdos.set_returns
      · rw [hc]
        rfl
      · rw [hc]
        exact hstack)
    (by exact (by omega : 10 + 3 + need ≤ F.size))
  have hcax : c.regs.ax = 0x252F := by
    rw [hregs3]
    rfl
  obtain ⟨hsetOff, hsetSeg⟩ := hdos.set c hcax
  have hcdx : c.regs.dx = above image.rmdevsysAsm INTCALL := by
    rw [hregs3]
    rfl
  have hcds : c.regs.ds = image.cs := by
    rw [hregs3]
    exact hds
  have h3' := h3.keeping (InAreas image.install2fAreas) fun a ha => F.apart a (hallMem a ha)
  obtain ⟨sp4, hblock4⟩ := installRestore_block saved (dos c).regs []
  rw [List.append_nil] at hblock4
  obtain ⟨t4, hr4, h4⟩ := h3'.block hrestore hblock4 (by exact (by omega : 10 + 0 ≤ F.size))
  obtain ⟨hoff4, hseg4⟩ := readWord_farArea fun a ha => h4.sees.kept a (h2F a ha)
  refine ⟨c, t4, hr1.trans (hr2.trans (hr3.trans hr4)), h4.ip, ?_, ?_, ?_, ?_⟩
  · have hcs4 : (dos c).regs.cs = image.cs := h4.cs
    have hss4 : (dos c).regs.ss = F.ss := h4.sees.ss
    have hsp4 : sp4 = F.sp 0 := h4.sees.sp
    rw [h4.sees.regs, hcs4, hss4, hsp4]
  · intro a ha
    rw [h4.sees.kept a (hoperand' a ha)]
    show (dos c).mem a = F.start a
    rw [h3.sees.kept a (hoperand a ha)]
    exact hstart a (hoperand' a ha)
  · exact hoff4.trans (hsetOff.trans hcdx)
  · exact hseg4.trans (hsetSeg.trans hcds)

-- `install_rmdevsys_recorder`.
theorem rmdevsys_installed (loaded : LoadedAssembly2f image external) (hdos : DosVectors image need dos)
    (hapart : image.operandArea.Apart (vectorArea 0x21))
    (hexternal : external (readWord s.mem 0 (vector 0x21 + 2)) (readWord s.mem 0 (vector 0x21)) = some dos)
    (hcs : s.regs.cs = image.cs) (hip : s.ip = above image.rmdevsysAsm SETINTCALLPTR2F)
    (hfits : 2 * (INSTALL2F_DEPTH + need) ≤ 65536)
    (hclear : Clear (InAreas image.install2fAreas) (INSTALL2F_DEPTH + need) s) :
    ∃ get set t, loaded.env.Reaches s [get, set] t ∧ Installed2f image s t := by
  have hnoWords : Holds s.mem s.regs.ss s.regs.sp [] := trivial
  obtain ⟨F, hsize, hrest, hkeep, hstart, hss, hsees⟩ := exists_frame hclear hnoWords hfits
  have h0 : At loaded.env F SETINTCALLPTR2F s ⟨s.regs, []⟩ := ⟨hip, hcs, hsees⟩
  have hroom : INSTALL2F_DEPTH + need ≤ F.size := Nat.le_of_eq hsize.symm
  obtain ⟨c, t, regs, hr1, hds, h1⟩ := forward2f_set loaded hdos hkeep hrest (by rw [hstart]; exact hexternal)
    hroom h0
  rw [hstart] at h1
  have h21 : ∀ a, (vectorArea 0x21).Has a → image.forwarding s.mem a = s.mem a := fun a ha =>
    writeFar_of_not_has (hapart.symm.not_has ha)
  obtain ⟨hoff, hseg⟩ := readWord_farArea h21
  obtain ⟨c', v, hr2, hip2, hregs2, hoperand, hvectorOff, hvectorSeg⟩ :=
    vector2f_set (F := { F with start := image.forwarding s.mem }) loaded hdos hkeep hrest
      (by dsimp only; rw [hoff, hseg]; exact hexternal) hds hroom h1
  obtain ⟨hold, hold'⟩ := readWord_farArea hoperand
  have hsp : F.sp 0 = s.regs.sp := hsees.sp.symm
  refine ⟨c, c', v, hr1.trans hr2, hip2, ?_, hvectorOff, hvectorSeg, ?_, ?_⟩
  · have hregs : v.regs = { s.regs with
        sp := F.sp 0, axHigh := v.regs.axHigh, dxHigh := v.regs.dxHigh, cs := image.cs, ss := F.ss
        flags := v.regs.flags } := hregs2
    rw [hsp, hss, ← hcs] at hregs
    exact hregs
  · exact hold.trans (readWord_writeFar_low _ _)
  · have hplace : above image.rmdevsysAsm (FORWARD2F + 1) + 2 = above image.rmdevsysAsm (FORWARD2F + 3) := by
      rw [add_two_eq_above, above_above]
    rw [Image.oldSeg, ← hplace]
    exact hold'.trans (readWord_writeFar_high _ _)

-- An INT 2Fh of the application when the recorder is installed. `old` is the handler that was there.
structure Intercepted2f (image : Image) (old : Cpu → Cpu) (oldPtr : FarPtr) (u enter called exit t : Cpu)
    (words : List UInt16) : Prop where
  enter_ip : enter.ip = image.recordRmdevsysCallEnter
  enter_regs : regsOf enter = regsOf u
  called_ip : called.ip = oldPtr.off
  called_regs : called.regs = { u.regs with
    sp := called.regs.sp, cs := oldPtr.seg, flags := called.regs.flags
    axHigh := called.regs.axHigh, dxHigh := called.regs.dxHigh }
  exit_ip : exit.ip = image.recordRmdevsysCallExit
  exit_regs : regsOf exit = regsOf (old called)
  ip : t.ip = u.ip
  regs : t.regs = { (old called).regs with
    sp := u.regs.sp, cs := u.regs.cs, ss := u.regs.ss, flags := u.regs.flags
    axHigh := t.regs.axHigh, dxHigh := t.regs.dxHigh }
  holds : Holds t.mem u.regs.ss u.regs.sp words

end

-- DOS at 0070:0000, with no more than these two calls, and the recorder when it is installed there with
-- an old handler at 2000:0000.
def dosAt0070 (s : Cpu) : Cpu :=
  if s.regs.ax = 0x352F then
    Cpu.iret { s with
      regs := { s.regs with
        bx := readWord s.mem 0 (vector 0x2F), es := readWord s.mem 0 (vector 0x2F + 2) } }
  else if s.regs.ax = 0x252F then Cpu.iret (s.setVector 0x2F s.regs.dx s.regs.ds)
  else s.iret

def external2fAt1000 (seg off : UInt16) : Option (Cpu → Cpu) :=
  if seg = 0x70 then some dosAt0070 else externalAt1000 seg off

def installing2fAt1000 : Cpu where
  regs := ⟨0, 0, 0, 0, 0, 0, 0x1010, 0x1000, 0, 0, 0x1000, 0x1000, 0x1000, 0x3000, 0x202⟩
  ip := 0x23D
  mem a := if a = 0x86 then 0x70 else if a = 0xBF then 0x20 else 0

def installed2fAt1000 : Cpu where
  regs := installing2fAt1000.regs
  ip := 0x268
  mem a :=
    if a = 0xBC then 0x07 else if a = 0xBD then 0x02 else if a = 0xBF then 0x10
    else if a = 0x1023C then 0x20 else 0

def application2fAt1000 : Cpu where
  regs := ⟨0x9801, 0, 0, 0, 0, 0, 0, 0x1000, 0, 0, 0x5000, 0x5000, 0x5000, 0x3000, 0x202⟩
  ip := 0x102
  mem := installed2fAt1000.mem

theorem dosVectorsAt0070 : DosVectors imageAt1000 0 dosAt0070 where
  get := by
    intro c hax
    rw [dosAt0070, if_pos hax]
    exact ⟨rfl, rfl⟩
  get_returns := by
    intro c words hax ip cs flags hholds _ _
    rw [dosAt0070, if_pos hax]
    apply returned_iret
    · rfl
    · rfl
    · exact hholds
    · exact fun _ _ => rfl
  set := by
    intro c hax
    rw [dosAt0070, if_neg (by rw [hax]; decide), if_pos hax]
    exact ⟨readWord_writeFar_low _ _, readWord_writeFar_high _ _⟩
  set_returns := by
    intro c words hax hapart ip cs flags hholds _ _
    rw [dosAt0070, if_neg (by rw [hax]; decide), if_pos hax]
    -- the words of the caller are not where the vector is
    have hheld : Holds (writeFar c.mem 0 (vector 0x2F) c.regs.dx c.regs.ds) c.regs.ss c.regs.sp
        (ip :: cs :: flags :: words) := by
      apply hholds.congr
      intro k hk
      apply writeFar_of_not_has
      apply hapart.symm.not_has
      refine ⟨k, ?_, rfl⟩
      simp only [List.length_cons] at hk
      dsimp only
      omega
    have happart : ∀ area ∈ imageAt1000.setAreas, area.Apart (vectorArea 0x2F) := by decide +kernel
    have hkept : ∀ a, InAreas imageAt1000.setAreas a →
        writeFar c.mem 0 (vector 0x2F) c.regs.dx c.regs.ds a = c.mem a := by
      rintro a ⟨area, harea, ha⟩
      exact writeFar_of_not_has ((happart area harea).not_has ha)
    apply returned_iret
    · rfl
    · rfl
    · exact hheld
    · exact hkept

theorem loadedAssembly2fAt1000 : LoadedAssembly2f imageAt1000 external2fAt1000 where
  inside := by
    have hplaces : ∀ k ∈ (rmdevsysAssembly imageAt1000).map Prod.fst, k < 0x100 := by decide
    intro k hk
    have hlt := hplaces k hk
    have hbase : imageAt1000.rmdevsysAsm.toNat = 0x200 := rfl
    refine ⟨by omega, ?_⟩
    rw [external2fAt1000, if_neg (by decide)]
    exact externalAt1000_asm (by omega)

theorem rmdevsys_installed_at1000 :
    ∃ get set t, loadedAssembly2fAt1000.env.Reaches installing2fAt1000 [get, set] t ∧
      Installed2f imageAt1000 installing2fAt1000 t :=
  rmdevsys_installed loadedAssembly2fAt1000 dosVectorsAt0070 (by decide +kernel) rfl rfl rfl (by decide)
    (clear_of_apart 0xFE6 rfl (by decide +kernel))

end ReelMagic.Recorder
