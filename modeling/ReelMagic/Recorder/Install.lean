import ReelMagic.Library.X86.Interrupts
import ReelMagic.Recorder.Cbshim
import ReelMagic.Rmprobe.Probe

namespace ReelMagic.Recorder

open Library Library.CString Library.X86

-- The displacements of `intcall_seg` and `intcall_off` from BP.
structure Locals where
  seg : UInt16
  off : UInt16

-- What stands behind the handler, and finds out where it is.
def SETINTCALLPTR : Nat := 97

def AFTER_SETINTCALLPTR : Nat := 113

def setintcallptr (image : Image) (locals : Locals) : List Instr :=
  [.push .ax, .mov .ax .cs, .storeBpWord locals.seg .ax, .call (above image.fmpdrvAsm 3), .addImm .ax 1,
    .storeBpWord locals.off .ax, .pop .ax]

def fmpdrvAssembly (image : Image) (locals : Locals) : List (Nat × Instr) :=
  fmpdrvIntcall image ++ assemble SETINTCALLPTR (setintcallptr image locals)

-- The bytes that the jump at `intcall` goes over.
def SIGNATURE : List UInt8 := 0x09 :: ascii "FMPDriver" ++ 0x00 :: 0x0D :: ascii "ReelMagic(TM)" ++ [0x00]

def Image.signatureArea (image : Image) : Area :=
  ⟨image.cs, above image.fmpdrvAsm (INTCALL + 2), SIGNATURE.length⟩

def Image.Signed (image : Image) (mem : Memory) : Prop :=
  ∀ k < SIGNATURE.length, mem (physical image.cs (above image.fmpdrvAsm (INTCALL + 2 + k))) = SIGNATURE.getD k 0

-- `_actual_fmpdrv = ivt[0x80]`, before the assembly, and `ivt[0x80] = MK_FP(intcall_seg, intcall_off)`
-- after it.
def Image.saveFmpdrv (image : Image) (s : Cpu) : Cpu :=
  { s with
    mem := writeFar s.mem image.cs image.actualFmpdrv (readWord s.mem 0 (vector 0x80))
      (readWord s.mem 0 (vector 0x80 + 2)) }

def Locals.setFmpdrv (locals : Locals) (s : Cpu) : Cpu :=
  s.setVector 0x80 (readWord s.mem s.regs.ss (s.regs.bp + locals.off))
    (readWord s.mem s.regs.ss (s.regs.bp + locals.seg))

-- What the installation writes, and the signature.
def Image.savedArea (image : Image) : Area := farArea image.cs image.actualFmpdrv

def Locals.segArea (locals : Locals) (regs : Registers) : Area := ⟨regs.ss, regs.bp + locals.seg, 2⟩

def Locals.offArea (locals : Locals) (regs : Registers) : Area := ⟨regs.ss, regs.bp + locals.off, 2⟩

def Image.installAreas (image : Image) (locals : Locals) (regs : Registers) : List Area :=
  [image.savedArea, locals.segArea regs, locals.offArea regs, vectorArea 0x80, image.signatureArea]

-- The words of stack that it takes.
def INSTALL80_DEPTH : Nat := 3

structure LoadedAssembly (image : Image) (locals : Locals)
    (external : UInt16 → UInt16 → Option (Cpu → Cpu)) : Prop where
  inside : ∀ k ∈ (fmpdrvAssembly image locals).map Prod.fst,
    k < 65536 ∧ external image.cs (above image.fmpdrvAsm k) = none

-- INT 80h goes to the recorder, which has the driver that was there.
structure InstalledFmpdrv (image : Image) (s t : Cpu) : Prop where
  regs : t.regs = { s.regs with flags := t.regs.flags }
  vector_off : readWord t.mem 0 (vector 0x80) = above image.fmpdrvAsm INTCALL
  vector_seg : readWord t.mem 0 (vector 0x80 + 2) = image.cs
  saved_off : readWord t.mem image.cs image.actualFmpdrv = readWord s.mem 0 (vector 0x80)
  saved_seg : readWord t.mem image.cs (image.actualFmpdrv + 2) = readWord s.mem 0 (vector 0x80 + 2)
  signature : ∀ a, image.signatureArea.Has a → t.mem a = s.mem a

section

variable {image : Image} {locals : Locals} {external : UInt16 → UInt16 → Option (Cpu → Cpu)} {s : Cpu}

def LoadedAssembly.env (loaded : LoadedAssembly image locals external) : Env :=
  image.env image.fmpdrvAsm (fmpdrvAssembly image locals) external loaded.inside

theorem LoadedAssembly.code (loaded : LoadedAssembly image locals external) :
    loaded.env.Code 0 [.pop .ax, .jmpReg .ax, .call image.fmpdrvAsm, .ret] ∧
      loaded.env.Code SETINTCALLPTR (setintcallptr image locals) := by
  have hfront : ∀ entry ∈ fmpdrvIntcall image, entry.1 < SETINTCALLPTR := by
    simp [fmpdrvIntcall, assemble, fmpdrvStart, fmpdrvRecorder, recordCall, saveRegisters, restoreRegisters,
      forwardCall, Instr.size, AFTER_SIGNATURE, SETINTCALLPTR]
  exact ⟨⟨rfl, rfl, rfl, rfl, trivial⟩, code_of_listing hfront fun _ => rfl⟩

-- The two variables get the address of `intcall`.
theorem setintcallptr_points (loaded : LoadedAssembly image locals external) {areas : List Area}
    (hcs : s.regs.cs = image.cs) (hip : s.ip = above image.fmpdrvAsm SETINTCALLPTR)
    (hseg : locals.segArea s.regs ∈ areas) (hoff : locals.offArea s.regs ∈ areas)
    (hclear : Clear (InAreas areas) INSTALL80_DEPTH s) :
    ∃ t, loaded.env.Reaches s [] t ∧ t.ip = above image.fmpdrvAsm AFTER_SETINTCALLPTR ∧
      t.regs = { s.regs with flags := t.regs.flags } ∧
      ∀ a, InAreas areas a → t.mem a =
        writeWord (writeWord s.mem s.regs.ss (s.regs.bp + locals.seg) image.cs) s.regs.ss
          (s.regs.bp + locals.off) (above image.fmpdrvAsm INTCALL) a := by
  have hnoWords : Holds s.mem s.regs.ss s.regs.sp [] := trivial
  obtain ⟨F, hsize, hrest, hkeep, hstart, hss, hsees⟩ := exists_frame hclear hnoWords (by decide)
  obtain ⟨⟨hpop, hjmp, hget, hret, _⟩, hpushAx, hmovCs, hstoreSeg, hcall, hadd, hstoreOff, hpopAx, _⟩ :=
    loaded.code
  have hget' : loaded.env.code 3 = some (.call (above loaded.env.base 0)) := by
    rw [above_zero]
    exact hget
  rw [INSTALL80_DEPTH] at hsize
  have h0 : At loaded.env F SETINTCALLPTR s ⟨s.regs, []⟩ := ⟨hip, hcs, hsees⟩
  have hcode1 : loaded.env.Code SETINTCALLPTR [.push .ax, .mov .ax .cs] := ⟨hpushAx, hmovCs, trivial⟩
  have hblock1 : View.block ⟨s.regs, []⟩ [.push .ax, .mov .ax .cs] =
      some ⟨{ s.regs with ax := s.regs.cs, sp := s.regs.sp - 2 }, [s.regs.ax]⟩ := rfl
  obtain ⟨t1, hr1, h1⟩ := h0.block hcode1 hblock1 (by exact (by omega : 0 + 1 ≤ F.size))
  obtain ⟨t2, hr2, h2⟩ := h1.storeBpWord hstoreSeg
    (apart_of_keep hrest (by rw [hkeep]; exact fun _ ha => ⟨_, hseg, ha⟩))
  obtain ⟨t3, hr3, h3⟩ := h2.getabove (q := 3) hcall hget' hret hpop hjmp
    (by exact (by omega : 1 + 2 ≤ F.size))
  have hcode4 : loaded.env.Code 106 [.addImm .ax 1] := ⟨hadd, trivial⟩
  have hblock4 : ∃ flags, View.block
      ⟨{ s.regs with ax := above loaded.env.base 6, sp := s.regs.sp - 2 }, [s.regs.ax]⟩ [.addImm .ax 1] =
      some ⟨{ s.regs with ax := above loaded.env.base 6 + 1, sp := s.regs.sp - 2, flags }, [s.regs.ax]⟩ :=
    ⟨_, rfl⟩
  obtain ⟨flags, hblock4⟩ := hblock4
  obtain ⟨t4, hr4, h4⟩ := h3.block hcode4 hblock4 (by exact (by omega : 1 + 0 ≤ F.size))
  obtain ⟨t5, hr5, h5⟩ := h4.storeBpWord hstoreOff
    (apart_of_keep (F := F) hrest (by rw [hkeep]; exact fun _ ha => ⟨_, hoff, ha⟩))
  have hcode6 : loaded.env.Code 112 [.pop .ax] := ⟨hpopAx, trivial⟩
  have hblock6 : ∃ sp, View.block
      ⟨{ s.regs with ax := above loaded.env.base 6 + 1, sp := s.regs.sp - 2, flags }, [s.regs.ax]⟩
      [.pop .ax] = some ⟨{ s.regs with sp, flags }, []⟩ := ⟨_, rfl⟩
  obtain ⟨sp, hblock6⟩ := hblock6
  obtain ⟨t, hr6, h6⟩ := h5.block hcode6 hblock6 (by exact (by omega : 1 + 0 ≤ F.size))
  have hsp : sp = s.regs.sp := h6.sees.sp.trans h0.sees.sp.symm
  have hax : above loaded.env.base 6 + 1 = above image.fmpdrvAsm INTCALL := above_above _ _ _
  refine ⟨t, hr1.trans (hr2.trans (hr3.trans (hr4.trans (hr5.trans hr6)))), h6.ip, ?_, ?_⟩
  · rw [h6.sees.regs, hsp]
  · intro a ha
    rw [← hkeep] at ha
    rw [← hstart, ← hax, ← hcs]
    exact h6.sees.kept a ha

-- What a program can read through far pointers.
def farView (mem : Memory) : Rmsdk.Memory := fun ptr => mem (physical ptr.seg ptr.off)

theorem ivtEntry_farView (mem : Memory) :
    (farView mem).ivtEntry 0x80 = ⟨readWord mem 0 (vector 0x80 + 2), readWord mem 0 (vector 0x80)⟩ := rfl

-- The signature makes the recorder pass for the driver.
theorem InstalledFmpdrv.probed {t : Cpu} (h : InstalledFmpdrv image s t) (hsigned : image.Signed s.mem)
    (hcs : image.cs ≠ 0) : Rmsdk.rmProbeFmpdrvInt (farView t.mem) = 0x80 := by
  have hentry : (farView t.mem).ivtEntry 0x80 = ⟨image.cs, above image.fmpdrvAsm INTCALL⟩ := by
    rw [ivtEntry_farView, h.vector_off, h.vector_seg]
  have hcarries : (farView t.mem).Carries 0x80 := by
    refine ⟨?_, ?_⟩
    · rw [hentry]
      intro hnull
      exact hcs (congrArg FarPtr.seg hnull)
    · intro k hk
      have hplace : above image.fmpdrvAsm INTCALL + 3 + UInt16.ofNat k =
          above image.fmpdrvAsm (INTCALL + 2 + (1 + k)) := by
        rw [show above image.fmpdrvAsm INTCALL + 3 = above image.fmpdrvAsm (INTCALL + 3) from
          above_above _ _ _, show ∀ off n, off + UInt16.ofNat n = above off n from fun _ _ => rfl,
          above_above]
        congr 1
        omega
      have hin : image.signatureArea.Has (physical image.cs (above image.fmpdrvAsm (INTCALL + 2 + (1 + k)))) :=
        ⟨1 + k, (by omega : 1 + k < 26), by rw [Image.signatureArea, above_above]⟩
      have hsignature : ∀ k < 9, SIGNATURE.getD (1 + k) 0 = (ascii "FMPDriver").getD k 0 := by decide
      rw [hentry, Rmsdk.offset, Rmsdk.offset, farView]
      dsimp only
      rw [hplace, h.signature _ hin, hsigned (1 + k) (by omega : 1 + k < 26), hsignature k hk]
  rcases Rmsdk.rmProbeFmpdrvInt_cases (farView t.mem) with hlowest | ⟨_, hnone⟩
  · exact UInt8.le_antisymm (hlowest.2.2 0x80 (by decide) hcarries) hlowest.1
  · exact absurd hcarries (hnone 0x80 (by decide))

-- `install_fmpdrv_recorder`: from now on INT 80h goes to the recorder, which has the driver that was
-- there, and rmprobe and the SDK find it.
theorem fmpdrv_installed (loaded : LoadedAssembly image locals external)
    (hsigned : image.Signed s.mem) (hnull : image.cs ≠ 0)
    (hapart : (image.installAreas locals s.regs).Pairwise Area.Apart)
    (hcs : s.regs.cs = image.cs) (hip : s.ip = above image.fmpdrvAsm SETINTCALLPTR)
    (hclear : Clear (InAreas (image.installAreas locals s.regs)) INSTALL80_DEPTH s) :
    ∃ t, loaded.env.Reaches (image.saveFmpdrv s) [] t ∧ InstalledFmpdrv image s (locals.setFmpdrv t) ∧
      Rmsdk.rmProbeFmpdrvInt (farView (locals.setFmpdrv t).mem) = 0x80 ∧
        ∀ setup : Rmprobe.Setup, setup.Shows (farView (locals.setFmpdrv t).mem) →
          (Rmprobe.findFmpdriver setup).getD 0 = 0x80 := by
  have hsegMem : locals.segArea s.regs ∈ image.installAreas locals s.regs := by simp [Image.installAreas]
  have hoffMem : locals.offArea s.regs ∈ image.installAreas locals s.regs := by simp [Image.installAreas]
  have hsavedMem : image.savedArea ∈ image.installAreas locals s.regs := by simp [Image.installAreas]
  have hsignatureMem : image.signatureArea ∈ image.installAreas locals s.regs := by
    simp [Image.installAreas]
  obtain ⟨t, hreaches, _, hregs, hmem⟩ := setintcallptr_points (s := image.saveFmpdrv s) loaded hcs hip
    hsegMem hoffMem hclear
  simp only [Image.installAreas, List.pairwise_cons, List.forall_mem_cons] at hapart
  obtain ⟨⟨hsavedSeg, hsavedOff, hsavedVector, hsavedSignature, _⟩, ⟨hsegOff, _, hsegSignature, _⟩,
    ⟨_, hoffSignature, _⟩, ⟨hvectorSignature, _⟩, _⟩ := hapart
  have hss : t.regs.ss = s.regs.ss := by rw [hregs]; rfl
  have hbp : t.regs.bp = s.regs.bp := by rw [hregs]; rfl
  have hoff : readWord t.mem t.regs.ss (t.regs.bp + locals.off) = above image.fmpdrvAsm INTCALL := by
    rw [hss, hbp]
    exact (readWord_of_kept fun a ha => hmem a ⟨_, hoffMem, ha⟩).trans (readWord_writeWord _ _ _ _)
  have hseg : readWord t.mem t.regs.ss (t.regs.bp + locals.seg) = image.cs := by
    rw [hss, hbp]
    refine (readWord_of_kept fun a ha => hmem a ⟨_, hsegMem, ha⟩).trans ?_
    exact (readWord_of_apart _ fun a ha => hsegOff.not_has ha).trans (readWord_writeWord _ _ _ _)
  -- what lies outside of the variables and of the vector is as it was before the assembly
  have hkept : ∀ a, InAreas (image.installAreas locals s.regs) a → ¬(locals.segArea s.regs).Has a →
      ¬(locals.offArea s.regs).Has a → ¬(vectorArea 0x80).Has a →
        (locals.setFmpdrv t).mem a = (image.saveFmpdrv s).mem a := by
    intro a ha hnotSeg hnotOff hnotVector
    refine (writeFar_of_not_has hnotVector).trans ((hmem a ha).trans ?_)
    exact (writeWord_of_not_wordAt hnotOff).trans (writeWord_of_not_wordAt hnotSeg)
  obtain ⟨hsavedLow, hsavedHigh⟩ := readWord_farArea fun a ha =>
    hkept a ⟨_, hsavedMem, ha⟩ (hsavedSeg.not_has ha) (hsavedOff.not_has ha) (hsavedVector.not_has ha)
  have hinstalled : InstalledFmpdrv image s (locals.setFmpdrv t) := by
    refine ⟨hregs, ?_, ?_, ?_, ?_, ?_⟩
    · exact (readWord_writeFar_low _ _).trans hoff
    · exact (readWord_writeFar_high _ _).trans hseg
    · rw [hsavedLow]
      exact readWord_writeFar_low _ _
    · rw [hsavedHigh]
      exact readWord_writeFar_high _ _
    · intro a ha
      rw [hkept a ⟨_, hsignatureMem, ha⟩ (hsegSignature.symm.not_has ha) (hoffSignature.symm.not_has ha)
        (hvectorSignature.symm.not_has ha)]
      exact writeFar_of_not_has (hsavedSignature.symm.not_has ha)
  have hprobed := hinstalled.probed hsigned hnull
  exact ⟨t, hreaches, hinstalled, hprobed, fun _ hshows => (Rmprobe.findFmpdriver_eq hshows).trans hprobed⟩

-- An INT 80h of the application when the recorder is installed. `u` is its state when the instruction
-- has been fetched, and `old` is the driver that was there before.
structure Intercepted (image : Image) (driver : Cpu → Cpu) (old : FarPtr) (u enter driven exit t : Cpu)
    (words : List UInt16) : Prop where
  enter_ip : enter.ip = image.recordFmpdrvCallEnter
  enter_regs : regsOf enter = regsOf u
  driven_ip : driven.ip = old.off
  driven_regs : driven.regs = { u.regs with
    bp := driven.regs.bp, sp := driven.regs.sp, cs := old.seg, flags := driven.regs.flags
    axHigh := driven.regs.axHigh, dxHigh := driven.regs.dxHigh }
  exit_ip : exit.ip = image.recordFmpdrvCallExit
  exit_regs : regsOf exit = regsOf (driver driven)
  ip : t.ip = u.ip
  regs : t.regs = { (driver driven).regs with
    bp := u.regs.bp, sp := u.regs.sp, cs := u.regs.cs, ss := u.regs.ss, flags := u.regs.flags
    axHigh := t.regs.axHigh, dxHigh := t.regs.dxHigh }
  holds : Holds t.mem u.regs.ss u.regs.sp words

end

-- The same recorder when it is installed with the driver at 2000:0000 and its stack at 3000:1000,
-- and an application that calls it afterwards.
def localsAt1000 : Locals := ⟨-2, -4⟩

def signedAt1000 (a : Nat) : UInt8 :=
  if 0x10109 ≤ a ∧ a < 0x10123 then SIGNATURE.getD (a - 0x10109) 0 else 0

def installingAt1000 : Cpu where
  regs := ⟨0, 0, 0, 0, 0, 0, 0x1010, 0x1000, 0, 0, 0x1000, 0x1000, 0x1000, 0x3000, 0x202⟩
  ip := 0x161
  mem a := if a = 0x203 then 0x20 else signedAt1000 a

def installedAt1000 : Cpu where
  regs := installingAt1000.regs
  ip := 0x171
  mem a :=
    if a = 0x200 then 0x07 else if a = 0x201 then 0x01 else if a = 0x203 then 0x10
    else if a = 0x10803 then 0x20 else signedAt1000 a

def applicationAt1000 : Cpu where
  regs := ⟨9, 0, 0, 0, 0, 0, 0, 0x1000, 0, 0, 0x5000, 0x5000, 0x5000, 0x3000, 0x202⟩
  ip := 0x102
  mem := installedAt1000.mem

theorem loadedAssemblyAt1000 : LoadedAssembly imageAt1000 localsAt1000 externalAt1000 where
  inside := by
    have hplaces : ∀ k ∈ (fmpdrvAssembly imageAt1000 localsAt1000).map Prod.fst, k < 0x100 := by decide
    intro k hk
    have hlt := hplaces k hk
    have hbase : imageAt1000.fmpdrvAsm.toNat = 0x100 := rfl
    exact ⟨by omega, externalAt1000_asm (by omega)⟩

theorem fmpdrv_installed_at1000 :
    ∃ t, loadedAssemblyAt1000.env.Reaches (imageAt1000.saveFmpdrv installingAt1000) [] t ∧
      InstalledFmpdrv imageAt1000 installingAt1000 (localsAt1000.setFmpdrv t) ∧
        Rmsdk.rmProbeFmpdrvInt (farView (localsAt1000.setFmpdrv t).mem) = 0x80 ∧
          ∀ setup : Rmprobe.Setup, setup.Shows (farView (localsAt1000.setFmpdrv t).mem) →
            (Rmprobe.findFmpdriver setup).getD 0 = 0x80 :=
  fmpdrv_installed loadedAssemblyAt1000 (by unfold Image.Signed; decide) (by decide) (by decide +kernel) rfl rfl
    (clear_of_apart 0xFFA rfl (by decide +kernel))

end ReelMagic.Recorder
