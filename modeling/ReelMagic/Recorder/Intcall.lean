import ReelMagic.Library.X86.Calls
import ReelMagic.Recorder

namespace ReelMagic.Recorder

open Library Library.X86

-- Where the program has been loaded. Code and data share a segment. The first three offsets are of
-- the `getra` with which the assembly of the two installers begins, and that of the exit.
structure Image where
  cs : UInt16
  fmpdrvAsm : UInt16
  rmdevsysAsm : UInt16
  callbackAsm : UInt16
  recordFmpdrvCallEnter : UInt16
  recordFmpdrvCallExit : UInt16
  recordRmdevsysCallEnter : UInt16
  recordRmdevsysCallExit : UInt16
  recordCallbackEnter : UInt16
  actualFmpdrv : UInt16
  actualCb : UInt16
  actualCbType : UInt16

-- The call of one of the recording functions, with every register kept.
def saveRegisters : List Instr :=
  [.push .ds, .push .es, .pusha, .push .ax, .mov .ax .cs, .mov .ds .ax, .mov .es .ax, .pop .ax]

def restoreRegisters : List Instr := [.popa, .pop .es, .pop .ds]

def recordCall (target : UInt16) : List Instr := saveRegisters ++ ([.call target] ++ restoreRegisters)

-- The driver is called through a pointer that is put on the stack.
def forwardCall (actualFmpdrv : UInt16) : List Instr :=
  [.enter 4, .push .ds, .pushEax, .mov .ax .cs, .mov .ds .ax, .movEaxMem actualFmpdrv,
    .storeBp (-4), .popEax, .pop .ds, .pushf, .callFarBp (-4), .leave]

-- The offset of `intcall` from `getra`, and of the first instruction after the signature.
def INTCALL : Nat := 7

def AFTER_SIGNATURE : Nat := 35

-- What `install_fmpdrv_recorder` places at INT 80h. The jump goes over the 26 bytes by which the
-- driver is detected.
def fmpdrvStart (image : Image) : List Instr :=
  [.pop .ax, .jmpReg .ax, .call image.fmpdrvAsm, .ret, .jmp (above image.fmpdrvAsm AFTER_SIGNATURE)]

def fmpdrvRecorder (image : Image) : List Instr :=
  recordCall image.recordFmpdrvCallEnter ++ (forwardCall image.actualFmpdrv ++
    (recordCall image.recordFmpdrvCallExit ++ [.iret]))

def fmpdrvIntcall (image : Image) : List (Nat × Instr) :=
  assemble 0 (fmpdrvStart image) ++ assemble AFTER_SIGNATURE (fmpdrvRecorder image)

-- The code of a handler among what it calls.
def Image.env (image : Image) (base : UInt16) (listing : List (Nat × Instr))
    (external : UInt16 → UInt16 → Option (Cpu → Cpu))
    (h : ∀ k ∈ listing.map Prod.fst, k < 65536 ∧ external image.cs (above base k) = none) : Env :=
  ⟨image.cs, base, fun k => listing.lookup k, external, fun _ _ hk => h _ (mem_of_lookup hk)⟩

-- The bytes of the far pointer that the handler goes on to.
def Image.keep (image : Image) (address : Nat) : Prop :=
  ∃ n < 4, address = physical image.cs (above image.actualFmpdrv n)

-- The words of stack that the handler itself takes.
def DEPTH : Nat := 12

section

variable {env : Env} {F : StackFrame} {k need : Nat} {s : Cpu} {view : View} {f : Cpu → Cpu}

-- What is on the stack while a recording function runs.
def savedWords (regs : Registers) : List UInt16 :=
  pushaWords { regs with sp := regs.sp - 2 - 2 } ++ [regs.es, regs.ds]

theorem saveRegisters_block (regs : Registers) (own : List UInt16) :
    ∃ sp, View.block ⟨regs, own⟩ saveRegisters =
      some ⟨{ regs with ds := regs.cs, es := regs.cs, sp }, savedWords regs ++ own⟩ := by
  obtain ⟨sp, hpusha⟩ := View.pusha_eq { regs with sp := regs.sp - 2 - 2 } (regs.es :: regs.ds :: own)
  simp only [View.block, saveRegisters, List.foldlM_cons, List.foldlM_nil, View.perform, View.push,
    View.pop, Registers.get, Registers.set, hpusha, Option.bind_eq_bind, Option.bind_some, reduceCtorEq,
    or_self, if_false]
  exact ⟨_, rfl⟩

theorem restoreRegisters_block (regs after : Registers) (own : List UInt16) :
    ∃ sp, View.block ⟨after, savedWords regs ++ own⟩ restoreRegisters =
      some ⟨{ regs with
        sp, axHigh := after.axHigh, dxHigh := after.dxHigh, cs := after.cs, ss := after.ss,
        flags := after.flags }, own⟩ := by
  obtain ⟨sp, hpopa⟩ := View.popa_eq after { regs with sp := regs.sp - 2 - 2 } (regs.es :: regs.ds :: own)
  simp only [View.block, restoreRegisters, savedWords, List.append_assoc, List.cons_append,
    List.nil_append, List.foldlM_cons, List.foldlM_nil, View.perform, View.pop, Registers.set, hpopa,
    Option.bind_eq_bind, Option.bind_some, reduceCtorEq, or_self, if_false]
  exact ⟨_, rfl⟩

-- The recording function finds the registers as they were, but for the segments of its data, and
-- whatever it does to them they are put back.
theorem record_call {target : UInt16} (h : At env F k s view) (hcode : env.Code k (recordCall target))
    (hf : env.external env.cs target = some f) (hreturns : ReturnsNear F.keep need f)
    (hroom : view.own.length + (DEPTH + need) ≤ F.size) :
    ∃ c t flags axHigh dxHigh, env.Reaches s [c] t ∧ c.ip = target ∧
      c.regs = { view.regs with ds := env.cs, es := env.cs, sp := c.regs.sp } ∧
      At env F (k + 17) t ⟨{ view.regs with flags, axHigh, dxHigh }, view.own⟩ := by
  obtain ⟨regs, own⟩ := view
  rw [DEPTH] at hroom
  dsimp only at hroom ⊢
  rw [recordCall, Env.code_append, Env.code_append] at hcode
  obtain ⟨hsave, ⟨hcall, _⟩, hrestore⟩ := hcode
  have hlength : (savedWords regs ++ own).length = own.length + 10 := by
    rw [List.length_append, Nat.add_comm]
    rfl
  have hpops : pushes restoreRegisters = 0 := rfl
  obtain ⟨sp1, hblock1⟩ := saveRegisters_block regs own
  have hroom1 : own.length + 11 ≤ F.size := by omega
  obtain ⟨t1, hsaved, h1⟩ := h.block hsave hblock1 hroom1
  obtain ⟨c, hcalled, hregs, hip, _, h2⟩ := h1.callNear hcall hf hreturns (by rw [hlength]; omega)
  obtain ⟨sp3, hblock3⟩ := restoreRegisters_block regs (f c).regs own
  obtain ⟨t, hrestored, h3⟩ := h2.block hrestore hblock3 (by rw [hlength, hpops]; omega)
  have hcs : (f c).regs.cs = regs.cs := h3.cs.trans h.cs.symm
  have hss : (f c).regs.ss = regs.ss := h3.sees.ss.trans h.sees.ss.symm
  have hsp : sp3 = regs.sp := h3.sees.sp.trans h.sees.sp.symm
  refine ⟨c, t, (f c).regs.flags, (f c).regs.axHigh, (f c).regs.dxHigh, ?_, hip, ?_, ?_⟩
  · exact hsaved.trans (hcalled.trans hrestored)
  · rw [hregs, ← h.cs]
  · rw [← hcs, ← hss, ← hsp]
    exact h3

-- The far pointer that ENTER has made room for is four below BP, under the words pushed since.
theorem framePointer_sub_four (sp : UInt16) :
    sp - 2 + (-4) = above (sp - 2 - 2 - 2 - 2 - 2 - 2) (2 * 3) ∧
      sp - 2 + (-4) = above (sp - 2 - 2 - 2 - 2) (2 * 1) ∧ sp - 2 = above (sp - 2 - 2 - 2) (2 * 2) := by
  have hsp := sp.toNat_lt
  have hneg : (-4 : UInt16) = 65532 := by decide
  refine ⟨?_, ?_, ?_⟩
  · apply UInt16.toNat_inj.mp
    simp only [above_toNat, hneg, UInt16.toNat_add, UInt16.toNat_sub, UInt16.reduceToNat]
    omega
  · apply UInt16.toNat_inj.mp
    simp only [above_toNat, hneg, UInt16.toNat_add, UInt16.toNat_sub, UInt16.reduceToNat]
    omega
  · apply UInt16.toNat_inj.mp
    simp only [above_toNat, UInt16.toNat_sub, UInt16.reduceToNat]
    omega

-- The driver is entered with every register as the handler was, but for BP and SP, and what it
-- returns in them stays. Its flags are those that the handler had.
theorem forward_call {actualFmpdrv : UInt16} (h : At env F k s view)
    (hcode : env.Code k (forwardCall actualFmpdrv))
    (hkeep : ∀ n < 4, F.keep (physical env.cs (above actualFmpdrv n)))
    (hf : env.external (readWord F.start env.cs (actualFmpdrv + 2))
      (readWord F.start env.cs actualFmpdrv) = some f)
    (hreturns : ReturnsInterrupt F.keep need f F.rest) (hbp : ∀ c, (f c).regs.bp = c.regs.bp)
    (hroom : view.own.length + (DEPTH + need) ≤ F.size) :
    ∃ c t, env.Reaches s [c] t ∧
      c.regs = { view.regs with
        bp := c.regs.bp, sp := c.regs.sp, cs := readWord F.start env.cs (actualFmpdrv + 2) } ∧
      c.ip = readWord F.start env.cs actualFmpdrv ∧
      At env F (k + 27) t
        ⟨{ (f c).regs with
          bp := view.regs.bp, sp := view.regs.sp, cs := view.regs.cs, ss := view.regs.ss }, view.own⟩ := by
  obtain ⟨regs, own⟩ := view
  rw [DEPTH] at hroom
  dsimp only at hroom ⊢
  obtain ⟨henter, hpushDs, hpushEax, hmov, hmov', hload, hstore, hpopEax, hpopDs, hpushf, hcall, hleave, _⟩ := hcode
  obtain ⟨hoff, hoff', hframe⟩ := framePointer_sub_four regs.sp
  have hcode2 : env.Code (k + 4) [.push .ds, .pushEax, .mov .ax .cs, .mov .ds .ax] :=
    ⟨hpushDs, hpushEax, hmov, hmov', trivial⟩
  have hblock2 : ∀ word word' : UInt16, View.block
      ⟨{ regs with bp := regs.sp - 2, sp := regs.sp - 2 - 2 - 2 }, word :: word' :: regs.bp :: own⟩
      [.push .ds, .pushEax, .mov .ax .cs, .mov .ds .ax] =
      some ⟨{ regs with
        bp := regs.sp - 2, sp := regs.sp - 2 - 2 - 2 - 2 - 2 - 2, ax := regs.cs, ds := regs.cs },
        regs.ax :: regs.axHigh :: regs.ds :: word :: word' :: regs.bp :: own⟩ := by
    intro word word'
    simp only [View.block, List.foldlM_cons, List.foldlM_nil, View.perform, View.push, Registers.get,
      Registers.set, Option.bind_eq_bind, Option.bind_some, reduceCtorEq, or_self, if_false]
    rfl
  have hcode5 : env.Code (k + 19) [.popEax, .pop .ds, .pushf] := ⟨hpopEax, hpopDs, hpushf, trivial⟩
  have hblock5 : ∀ off seg : UInt16, ∃ sp, View.block
      ⟨{ regs with
        bp := regs.sp - 2, sp := regs.sp - 2 - 2 - 2 - 2 - 2 - 2, ax := off, axHigh := seg, ds := regs.cs },
        regs.ax :: regs.axHigh :: regs.ds :: off :: seg :: regs.bp :: own⟩
      [.popEax, .pop .ds, .pushf] =
      some ⟨{ regs with bp := regs.sp - 2, sp }, regs.flags :: off :: seg :: regs.bp :: own⟩ := by
    intro off seg
    simp only [View.block, List.foldlM_cons, List.foldlM_nil, View.perform, View.push, View.pop,
      Registers.set, Option.bind_eq_bind, Option.bind_some, reduceCtorEq, or_self, if_false]
    exact ⟨_, rfl⟩
  have hds : regs.cs = env.cs := h.cs
  rw [← hds] at hkeep hf ⊢
  have hpushes2 : pushes [.push .ds, .pushEax, .mov .ax .cs, .mov .ds .ax] = 3 := rfl
  have hpushes5 : pushes [.popEax, .pop .ds, .pushf] = 1 := rfl
  obtain ⟨t1, word, word', hr1, h1⟩ := h.enter henter (by dsimp only; omega)
  obtain ⟨t2, hr2, h2⟩ := h1.block hcode2 (hblock2 word word')
    (by simp only [List.length_cons, hpushes2]; omega)
  obtain ⟨t3, hr3, h3⟩ := h2.movEaxMem hload hkeep
  obtain ⟨t4, hr4, h4⟩ := h3.storeBp (n := 3) hstore (by simp only [List.length_cons]; omega) hoff
  obtain ⟨sp5, hblock5⟩ := hblock5 _ _
  obtain ⟨t5, hr5, h5⟩ := h4.block hcode5 hblock5
    (by simp only [List.length_cons, List.length_set, hpushes5]; omega)
  have hsp5 : sp5 = regs.sp - 2 - 2 - 2 - 2 := by
    have hsp : regs.sp = F.sp own.length := h.sees.sp
    rw [hsp, F.sp_sub_two (by omega), F.sp_sub_two (by omega), F.sp_sub_two (by omega),
      F.sp_sub_two (by omega)]
    exact h5.sees.sp
  rw [hsp5] at h5
  obtain ⟨c, hr6, hregs, hip, _, h6⟩ := h5.callInterrupt (n := 1) hcall rfl rfl rfl hoff' hf hreturns
    (by simp only [List.length_cons]; omega)
  have hbp6 : (f c).regs.bp = regs.sp - 2 := by rw [hbp c, hregs]
  have hsp6 : (f c).regs.sp = regs.sp - 2 - 2 - 2 := by
    have hsp : regs.sp = F.sp own.length := h.sees.sp
    rw [hsp, F.sp_sub_two (by omega), F.sp_sub_two (by omega), F.sp_sub_two (by omega)]
    exact h6.sees.sp
  obtain ⟨t7, hr7, h7⟩ := h6.leave (n := 2) hleave (by rw [hbp6, hsp6]; exact hframe) rfl
  have hcs7 : (f c).regs.cs = regs.cs := h7.cs.trans hds.symm
  have hss7 : (f c).regs.ss = regs.ss := h7.sees.ss.trans h.sees.ss.symm
  have hsp7 : (f c).regs.bp + 2 = regs.sp := by
    rw [hbp6]
    exact UInt16.sub_add_cancel _ 2
  refine ⟨c, t7, ?_, ?_, hip, ?_⟩
  · exact hr1.trans (hr2.trans (hr3.trans (hr4.trans (hr5.trans (hr6.trans hr7)))))
  · rw [hregs]
  · rw [← hcs7, ← hss7, ← hsp7]
    exact h7

end

def regsOf (c : Cpu) : Regs := ⟨c.regs.ax, c.regs.bx, c.regs.cx, c.regs.dx⟩

-- A call that goes through the handler, as application, recorder and driver see it. `enter` and
-- `exit` are the states in which the recording functions are entered, and `driven` the one in
-- which the driver is. `ip`, `cs` and `flags` have been pushed by the INT instruction.
structure Recorded (image : Image) (driver : Cpu → Cpu) (s enter driven exit t : Cpu)
    (ip cs flags : UInt16) (words : List UInt16) : Prop where
  enter_ip : enter.ip = image.recordFmpdrvCallEnter
  enter_regs : enter.regs = { s.regs with ds := image.cs, es := image.cs, sp := enter.regs.sp }
  driven_ip : driven.ip = readWord s.mem image.cs image.actualFmpdrv
  driven_regs : driven.regs = { s.regs with
    bp := driven.regs.bp, sp := driven.regs.sp, cs := readWord s.mem image.cs (image.actualFmpdrv + 2)
    flags := driven.regs.flags, axHigh := driven.regs.axHigh, dxHigh := driven.regs.dxHigh }
  exit_ip : exit.ip = image.recordFmpdrvCallExit
  exit_regs : regsOf exit = regsOf (driver driven)
  ip : t.ip = ip
  regs : t.regs = { (driver driven).regs with
    bp := s.regs.bp, sp := above s.regs.sp 6, cs := cs, ss := s.regs.ss, flags := flags
    axHigh := t.regs.axHigh, dxHigh := t.regs.dxHigh }
  holds : Holds t.mem s.regs.ss t.regs.sp words

-- The recorder in memory, with what it calls.
structure Loaded (image : Image) (external : UInt16 → UInt16 → Option (Cpu → Cpu)) (need : Nat)
    (onEnter onExit : Cpu → Cpu) : Prop where
  inside : ∀ k ∈ (fmpdrvIntcall image).map Prod.fst,
    k < 65536 ∧ external image.cs (above image.fmpdrvAsm k) = none
  enter : external image.cs image.recordFmpdrvCallEnter = some onEnter
  enter_returns : ReturnsNear image.keep need onEnter
  exit : external image.cs image.recordFmpdrvCallExit = some onExit
  exit_returns : ReturnsNear image.keep need onExit

section

variable {image : Image} {external : UInt16 → UInt16 → Option (Cpu → Cpu)}
  {onEnter onExit driver : Cpu → Cpu} {need : Nat} {s : Cpu} {ip cs flags : UInt16} {words : List UInt16}

-- The handler, from where it is entered.
theorem intcall_recorded {F : StackFrame} (loaded : Loaded image external need onEnter onExit)
    (hsees : Sees F s ⟨s.regs, []⟩) (hsize : F.size = DEPTH + need) (hkeep : F.keep = image.keep)
    (hstart : F.start = s.mem) (hrest : F.rest = ip :: cs :: flags :: words)
    (hdriver : external (readWord s.mem image.cs (image.actualFmpdrv + 2))
      (readWord s.mem image.cs image.actualFmpdrv) = some driver)
    (hreturns : ReturnsInterrupt image.keep need driver (ip :: cs :: flags :: words))
    (hbp : ∀ c, (driver c).regs.bp = c.regs.bp)
    (hcs : s.regs.cs = image.cs) (hip : s.ip = above image.fmpdrvAsm INTCALL) :
    ∃ c driven c' t, (image.env image.fmpdrvAsm (fmpdrvIntcall image) external loaded.inside).Reaches s
      [c, driven, c'] t ∧ Recorded image driver s c driven c' t ip cs flags words := by
  have hss : F.ss = s.regs.ss := hsees.ss.symm
  generalize henv : image.env image.fmpdrvAsm (fmpdrvIntcall image) external loaded.inside = env
  have hbase : env.base = image.fmpdrvAsm := by rw [← henv]; rfl
  have henvCs : env.cs = image.cs := by rw [← henv]; rfl
  have hexternal : env.external = external := by rw [← henv]; rfl
  have hjmp : env.code INTCALL = some (.jmp (above env.base AFTER_SIGNATURE)) := by
    rw [← henv]
    rfl
  have hfront : ∀ entry ∈ assemble 0 (fmpdrvStart image), entry.1 < AFTER_SIGNATURE := by
    simp [assemble, fmpdrvStart, Instr.size, AFTER_SIGNATURE]
  have hcode : env.Code AFTER_SIGNATURE (fmpdrvRecorder image) := by
    apply code_of_listing hfront
    intro n
    rw [← henv]
    rfl
  rw [fmpdrvRecorder, Env.code_append, Env.code_append, Env.code_append] at hcode
  obtain ⟨hcode1, hcode2, hcode3, hiret, _⟩ := hcode
  have h0 : At env F INTCALL s ⟨s.regs, []⟩ := ⟨by rw [hip, hbase], by rw [henvCs]; exact hcs, hsees⟩
  obtain ⟨t0, hr0, h0'⟩ := h0.jmp hjmp
  rw [← hkeep, ← hrest] at hreturns
  have henterReturns := loaded.enter_returns
  have hexitReturns := loaded.exit_returns
  rw [← hkeep] at henterReturns hexitReturns
  have hroom : ([] : List UInt16).length + (DEPTH + need) ≤ F.size := by
    rw [hsize, List.length_nil, Nat.zero_add]
  obtain ⟨c, t1, flags1, axHigh1, dxHigh1, hr1, hip1, hregs1, h1⟩ :=
    record_call h0' hcode1 (by rw [hexternal, henvCs]; exact loaded.enter) henterReturns hroom
  obtain ⟨driven, t2, hr2, hregs2, hip2, h2⟩ := forward_call h1 hcode2
    (by rw [hkeep, henvCs]; exact fun n hn => ⟨n, hn, rfl⟩)
    (by rw [hexternal, henvCs, hstart]; exact hdriver) hreturns hbp hroom
  obtain ⟨c', t3, flags3, axHigh3, dxHigh3, hr3, hip3, hregs3, h3⟩ :=
    record_call h2 hcode3 (by rw [hexternal, henvCs]; exact loaded.exit) hexitReturns hroom
  obtain ⟨t, hr4, hip4, _, hregs4, hholds4⟩ := h3.iret hiret hrest
  rw [henvCs, hstart] at hregs2 hip2
  refine ⟨c, driven, c', t, ?_, ?_⟩
  · exact hr0.trans (hr1.trans (hr2.trans (hr3.trans hr4)))
  · refine ⟨hip1, ?_, hip2, ?_, hip3, ?_, hip4, ?_, ?_⟩
    · rw [hregs1, henvCs]
    · rw [hregs2]
    · rw [regsOf, regsOf, hregs3]
    · rw [hregs4]
    · rw [hregs4]
      rw [hss] at hholds4
      exact hholds4

end

-- The recorder at 1000:0100, its C code from 1000:0400 on and the driver at 2000:0000.
def imageAt1000 : Image := ⟨0x1000, 0x100, 0x200, 0x300, 0x400, 0x500, 0x600, 0x700, 0x780, 0x800, 0x804, 0x808⟩

def externalAt1000 (seg off : UInt16) : Option (Cpu → Cpu) :=
  if seg = 0x1000 ∧ 0x400 ≤ off then some returnNear
  else if seg = 0x2000 then some incrementAx
  else none

theorem externalAt1000_asm {base : UInt16} {k : Nat} (h : base.toNat + k < 0x400) :
    externalAt1000 0x1000 (above base k) = none := by
  have hbelow : ¬(0x400 : UInt16) ≤ above base k := by
    rw [UInt16.le_iff_toNat_le, above_toNat]
    simp only [UInt16.reduceToNat]
    omega
  rw [externalAt1000, if_neg (fun hcode => hbelow hcode.2), if_neg (by decide)]

-- A call with AX = 9 and the stack at 3000:1000, where the return address and the flags are zero.
def calledAt1000 : Cpu where
  regs := ⟨9, 0, 0, 0, 0, 0, 0, 0x1000, 0, 0, 0x1000, 0x4000, 0x4000, 0x3000, 0x202⟩
  ip := 0x107
  mem a := if a = 0x10803 then 0x20 else 0

theorem loadedAt1000 : Loaded imageAt1000 externalAt1000 0 returnNear returnNear where
  inside := by
    have hplaces : ∀ k ∈ (fmpdrvIntcall imageAt1000).map Prod.fst, k < 0x100 := by decide
    intro k hk
    have hlt := hplaces k hk
    have hbase : imageAt1000.fmpdrvAsm.toNat = 0x100 := rfl
    exact ⟨by omega, externalAt1000_asm (by omega)⟩
  enter := rfl
  enter_returns := returnNear_returns _ _
  exit := rfl
  exit_returns := returnNear_returns _ _

end ReelMagic.Recorder
