import ReelMagic.Recorder.Intcall

namespace ReelMagic.Recorder

open Library Library.X86

-- The offset of `forward2f` from `getra`.
def FORWARD2F : Nat := 56

-- What `install_rmdevsys_recorder` places at INT 2Fh. The operand of the far jump at the end, which
-- is also called, is the handler that was there before.
def rmdevsysRecorder (image : Image) : List Instr :=
  recordCall image.recordRmdevsysCallEnter ++
    ([.pushf, .push .cs, .call (above image.rmdevsysAsm FORWARD2F)] ++
      (recordCall image.recordRmdevsysCallExit ++ [.iret, .call image.rmdevsysAsm, .ret, .jmpFar]))

def rmdevsysStart (image : Image) : List Instr :=
  [.pop .ax, .jmpReg .ax, .call image.rmdevsysAsm, .ret, .cmpAh 0x98,
    .jne (above image.rmdevsysAsm FORWARD2F)]

def rmdevsysIntcall (image : Image) : List (Nat × Instr) :=
  assemble 0 (rmdevsysStart image) ++ assemble 12 (rmdevsysRecorder image)

-- The operand of the far jump.
def Image.keep2f (image : Image) (address : Nat) : Prop :=
  ∃ n < 4, address = physical image.cs (above image.rmdevsysAsm (FORWARD2F + 1 + n))

def Image.oldOff (image : Image) (mem : Memory) : UInt16 :=
  readWord mem image.cs (above image.rmdevsysAsm (FORWARD2F + 1))

def Image.oldSeg (image : Image) (mem : Memory) : UInt16 :=
  readWord mem image.cs (above image.rmdevsysAsm (FORWARD2F + 3))

structure Loaded2f (image : Image) (external : UInt16 → UInt16 → Option (Cpu → Cpu)) (need : Nat)
    (onEnter onExit : Cpu → Cpu) : Prop where
  inside : ∀ k ∈ (rmdevsysIntcall image).map Prod.fst,
    k < 65536 ∧ external image.cs (above image.rmdevsysAsm k) = none
  enter : external image.cs image.recordRmdevsysCallEnter = some onEnter
  enter_returns : ReturnsNear image.keep2f need onEnter
  exit : external image.cs image.recordRmdevsysCallExit = some onExit
  exit_returns : ReturnsNear image.keep2f need onExit

-- A call of RMDEV.SYS through the handler. `old` is the handler that was there before, and `called`
-- the state in which it is entered.
structure Recorded2f (image : Image) (old : Cpu → Cpu) (s enter called exit t : Cpu)
    (ip cs flags : UInt16) (words : List UInt16) : Prop where
  enter_ip : enter.ip = image.recordRmdevsysCallEnter
  enter_regs : regsOf enter = regsOf s
  called_ip : called.ip = image.oldOff s.mem
  called_regs : called.regs = { s.regs with
    sp := called.regs.sp, cs := image.oldSeg s.mem, flags := called.regs.flags
    axHigh := called.regs.axHigh, dxHigh := called.regs.dxHigh }
  exit_ip : exit.ip = image.recordRmdevsysCallExit
  exit_regs : regsOf exit = regsOf (old called)
  ip : t.ip = ip
  regs : t.regs = { (old called).regs with
    sp := above s.regs.sp 6, cs := cs, ss := s.regs.ss, flags := flags
    axHigh := t.regs.axHigh, dxHigh := t.regs.dxHigh }
  holds : Holds t.mem s.regs.ss t.regs.sp words

section

variable {image : Image} {external : UInt16 → UInt16 → Option (Cpu → Cpu)}
  {onEnter onExit old : Cpu → Cpu} {need : Nat} {s : Cpu} {ip cs flags : UInt16} {words : List UInt16}

def Loaded2f.env (loaded : Loaded2f image external need onEnter onExit) : Env :=
  image.env image.rmdevsysAsm (rmdevsysIntcall image) external loaded.inside

theorem Loaded2f.code (loaded : Loaded2f image external need onEnter onExit) :
    loaded.env.Code INTCALL [.cmpAh 0x98, .jne (above loaded.env.base FORWARD2F)] ∧
      loaded.env.Code 12 (rmdevsysRecorder image) := by
  have hfront : ∀ entry ∈ assemble 0 (rmdevsysStart image), entry.1 < 12 := by
    simp [assemble, rmdevsysStart, Instr.size]
  exact ⟨⟨rfl, rfl, trivial⟩, code_of_listing hfront fun _ => rfl⟩

-- The comparison that tells the calls of RMDEV.SYS.
theorem cmpAh_view (regs : Registers) (own : List UInt16) :
    View.block ⟨regs, own⟩ [.cmpAh 0x98] =
      some ⟨{ regs with flags := cmpFlags regs.flags (regs.ax.toNat / 256) 0x98 }, own⟩ := rfl

theorem ZF_cmpAh (regs : Registers) :
    ZF (cmpFlags regs.flags (regs.ax.toNat / 256) 0x98) = decide (regs.ax.toNat / 256 = 0x98) := by
  have hax := regs.ax.toNat_lt
  exact ZF_cmpFlags regs.flags (by omega) (by omega)

theorem Loaded2f.jmpFar (loaded : Loaded2f image external need onEnter onExit) :
    loaded.env.code FORWARD2F = some .jmpFar := by
  obtain ⟨_, hcode⟩ := loaded.code
  rw [rmdevsysRecorder, Env.code_append, Env.code_append, Env.code_append] at hcode
  obtain ⟨_, _, _, _, _, _, hjmpFar, _⟩ := hcode
  exact hjmpFar

-- Nothing is pushed when the call goes on, so that all of the memory is kept.
theorem intcall2f_passes {F : StackFrame} (loaded : Loaded2f image external need onEnter onExit)
    (hsees : Sees F s ⟨s.regs, []⟩) (hkeep : F.keep = fun _ => True) (hstart : F.start = s.mem)
    (hcs : s.regs.cs = image.cs) (hip : s.ip = above image.rmdevsysAsm INTCALL)
    (hah : s.regs.ax.toNat / 256 ≠ 0x98) :
    ∃ t, loaded.env.Reaches s [] t ∧ t.ip = image.oldOff s.mem ∧ t.mem = s.mem ∧
      t.regs = { s.regs with cs := image.oldSeg s.mem, flags := t.regs.flags } := by
  obtain ⟨⟨hcmp, hjne, _⟩, _⟩ := loaded.code
  have h0 : At loaded.env F INTCALL s ⟨s.regs, []⟩ := ⟨hip, hcs, hsees⟩
  have hroom : ([] : List UInt16).length + pushes [.cmpAh 0x98] ≤ F.size := Nat.zero_le _
  have hblock : loaded.env.Code INTCALL [.cmpAh 0x98] := ⟨hcmp, trivial⟩
  obtain ⟨t1, hr1, h1⟩ := h0.block hblock (cmpAh_view s.regs []) hroom
  obtain ⟨t2, hr2, h2⟩ := h1.jne_notEqual hjne (by rw [ZF_cmpAh]; exact decide_eq_false hah)
  obtain ⟨hr3, hip3, hregs3, hmem3⟩ := h2.jmpFar loaded.jmpFar
    (by rw [hkeep]; exact fun _ _ => trivial)
  have hmem2 : t2.mem = s.mem := by
    funext a
    rw [h2.sees.kept a (by rw [hkeep]; exact trivial), hstart]
  rw [hstart] at hip3 hregs3
  refine ⟨_, hr1.trans (hr2.trans hr3), hip3, hmem3.trans hmem2, ?_⟩
  rw [hregs3]
  rfl

-- Any other call goes on to the old handler as it came, but for the flags of the comparison.
theorem rmdevsysIntcall_passes (loaded : Loaded2f image external need onEnter onExit)
    (hcs : s.regs.cs = image.cs) (hip : s.ip = above image.rmdevsysAsm INTCALL)
    (hah : s.regs.ax.toNat / 256 ≠ 0x98) :
    ∃ t, loaded.env.Reaches s [] t ∧ t.ip = image.oldOff s.mem ∧ t.mem = s.mem ∧
      t.regs = { s.regs with cs := image.oldSeg s.mem, flags := t.regs.flags } := by
  obtain ⟨F, hkeep, hstart, hsees⟩ := exists_frame_all s
  exact intcall2f_passes loaded hsees hkeep hstart hcs hip hah

-- A call of RMDEV.SYS is recorded on both sides, and in between the old handler has it with every
-- register as it came, but for SP. What the old handler returns in them stays.
theorem intcall2f_recorded {F : StackFrame} (loaded : Loaded2f image external need onEnter onExit)
    (hsees : Sees F s ⟨s.regs, []⟩) (hsize : F.size = DEPTH + need) (hkeep : F.keep = image.keep2f)
    (hstart : F.start = s.mem) (hrest : F.rest = ip :: cs :: flags :: words)
    (hold : external (image.oldSeg s.mem) (image.oldOff s.mem) = some old)
    (hreturns : ReturnsInterrupt image.keep2f need old (ip :: cs :: flags :: words))
    (hcs : s.regs.cs = image.cs) (hip : s.ip = above image.rmdevsysAsm INTCALL)
    (hah : s.regs.ax.toNat / 256 = 0x98) :
    ∃ c called c' t, loaded.env.Reaches s [c, called, c'] t ∧
      Recorded2f image old s c called c' t ip cs flags words := by
  have hss : F.ss = s.regs.ss := hsees.ss.symm
  obtain ⟨⟨hcmp, hjne, _⟩, hcode⟩ := loaded.code
  rw [rmdevsysRecorder, Env.code_append, Env.code_append, Env.code_append] at hcode
  obtain ⟨hcode1, ⟨hpushf, hpushCs, hcall, _⟩, hcode3, hiret, _⟩ := hcode
  have henterReturns := loaded.enter_returns
  have hexitReturns := loaded.exit_returns
  rw [← hkeep] at hreturns henterReturns hexitReturns
  rw [← hrest] at hreturns
  have hroom : ([] : List UInt16).length + (DEPTH + need) ≤ F.size := by
    rw [hsize, List.length_nil, Nat.zero_add]
  have hdepth : 12 + need ≤ F.size := by
    rw [hsize, DEPTH]
  have h0 : At loaded.env F INTCALL s ⟨s.regs, []⟩ := ⟨hip, hcs, hsees⟩
  have hcodeCmp : loaded.env.Code INTCALL [.cmpAh 0x98] := ⟨hcmp, trivial⟩
  obtain ⟨t1, hr1, h1⟩ := h0.block hcodeCmp (cmpAh_view s.regs []) (Nat.zero_le _)
  obtain ⟨t2, hr2, h2⟩ := h1.jne_equal hjne (by rw [ZF_cmpAh]; exact decide_eq_true hah)
  obtain ⟨c, t3, flags3, axHigh3, dxHigh3, hr3, hip3, hregs3, h3⟩ :=
    record_call h2 hcode1 loaded.enter henterReturns hroom
  have hcodePush : loaded.env.Code 29 [.pushf, .push .cs] := ⟨hpushf, hpushCs, trivial⟩
  have hcs' : s.regs.cs = loaded.env.cs := hcs
  have hpush : View.block ⟨{ s.regs with flags := flags3, axHigh := axHigh3, dxHigh := dxHigh3 }, []⟩
      [.pushf, .push .cs] =
      some ⟨{ s.regs with
        flags := flags3, axHigh := axHigh3, dxHigh := dxHigh3, sp := s.regs.sp - 2 - 2 },
        [loaded.env.cs, flags3]⟩ := by
    rw [← hcs']
    rfl
  have hpushes : pushes [.pushf, .push .cs] = 2 := rfl
  obtain ⟨t4, hr4, h4⟩ := h3.block hcodePush hpush (by rw [hpushes, List.length_nil]; omega)
  obtain ⟨t5, hr5, h5⟩ := h4.callLocal hcall (by simp only [List.length_cons, List.length_nil]; omega)
  obtain ⟨called, hr6, hregs6, hip6, h6⟩ := At.jmpFarInterrupt h5 loaded.jmpFar
    (by rw [hkeep]; exact fun n hn => ⟨n, hn, rfl⟩) (by rw [hstart]; exact hold) hreturns
    (by rw [List.length_nil]; omega)
  obtain ⟨c', t7, flags7, axHigh7, dxHigh7, hr7, hip7, hregs7, h7⟩ :=
    record_call h6 hcode3 loaded.exit hexitReturns hroom
  obtain ⟨t, hr8, hip8, _, hregs8, hholds8⟩ := h7.iret hiret hrest
  rw [hstart] at hregs6 hip6
  have hsp6 : (old called).regs.sp = s.regs.sp := h6.sees.sp.trans h0.sees.sp.symm
  have hss6 : (old called).regs.ss = s.regs.ss := h6.sees.ss.trans h0.sees.ss.symm
  refine ⟨c, called, c', t, ?_, ?_⟩
  · exact hr1.trans (hr2.trans (hr3.trans (hr4.trans (hr5.trans (hr6.trans (hr7.trans hr8))))))
  · refine ⟨hip3, ?_, hip6, ?_, hip7, ?_, hip8, ?_, ?_⟩
    · rw [regsOf, regsOf, hregs3]
    · rw [hregs6]
      rfl
    · rw [regsOf, regsOf, hregs7]
    · rw [hregs8]
      dsimp only
      rw [hsp6, hss6]
    · rw [hregs8]
      rw [hss] at hholds8
      exact hholds8

end

-- The same recorder when AX holds `ax` and the old handler is at 2000:0000.
def called2fAt1000 (ax : UInt16) : Cpu where
  regs := ⟨ax, 0, 0, 0, 0, 0, 0, 0x1000, 0, 0, 0x1000, 0x4000, 0x4000, 0x3000, 0x202⟩
  ip := 0x207
  mem a := if a = 0x1023C then 0x20 else 0

theorem loaded2fAt1000 : Loaded2f imageAt1000 externalAt1000 0 returnNear returnNear where
  inside := by
    have hplaces : ∀ k ∈ (rmdevsysIntcall imageAt1000).map Prod.fst, k < 0x100 := by decide
    intro k hk
    have hlt := hplaces k hk
    have hbase : imageAt1000.rmdevsysAsm.toNat = 0x200 := rfl
    exact ⟨by omega, externalAt1000_asm (by omega)⟩
  enter := rfl
  enter_returns := returnNear_returns _ _
  exit := rfl
  exit_returns := returnNear_returns _ _

theorem rmdevsysIntcall_passes_at1000 :
    ∃ t, loaded2fAt1000.env.Reaches (called2fAt1000 0x1600) [] t ∧ t.ip = 0 ∧
      t.mem = (called2fAt1000 0x1600).mem ∧
      t.regs = { (called2fAt1000 0x1600).regs with cs := 0x2000, flags := t.regs.flags } :=
  rmdevsysIntcall_passes loaded2fAt1000 rfl rfl (by decide)

end ReelMagic.Recorder
