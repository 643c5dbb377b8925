import ReelMagic.Library.Printf
import ReelMagic.Library.X86.Calls

namespace ReelMagic.Rmprobe

open Library Library.Printf Library.X86

-- Where the program has been loaded, from the `getra` of `build_driver_callback_shim` on, and where
-- its two variables are in its stack frame.
structure ShimImage where
  cs : UInt16
  asm : UInt16
  driverCallback : UInt16
  rvSeg : UInt16
  rvOff : UInt16

-- The offsets from `getra`.
def DRVCBSHIM : Nat := 7

def DSVAL : Nat := 41

def GETDSVALPTR : Nat := 43

def LOADDS : Nat := 50

def STORDS : Nat := 67

def SHIMGETTER : Nat := 86

def AFTER_SHIMGETTER : Nat := 103

def shimSave : List Instr :=
  [.push .bp, .push .ax, .push .bx, .push .cx, .push .dx, .push .si, .push .di, .push .ds, .push .es]

def shimRestore : List Instr :=
  [.pop .es, .pop .ds, .pop .di, .pop .si, .pop .dx, .pop .cx, .pop .bx, .pop .ax, .pop .bp]

def drvcbshim (image : ShimImage) : List Instr :=
  shimSave ++ ([.call (above image.asm LOADDS), .mov .ax .sp, .addImm .ax 22,
    .call image.driverCallback] ++ (shimRestore ++ [.retf]))

def loadds (image : ShimImage) : List Instr :=
  [.push .ax, .push .si, .call (above image.asm GETDSVALPTR), .mov .si .ax, .mov .ax .cs, .mov .ds .ax,
    .lodsw, .mov .ds .ax, .pop .si, .pop .ax, .ret]

def stords (image : ShimImage) : List Instr :=
  [.push .ax, .push .es, .push .di, .call (above image.asm GETDSVALPTR), .mov .di .ax, .mov .ax .cs,
    .mov .es .ax, .mov .ax .ds, .stosw, .pop .di, .pop .es, .pop .ax, .ret]

def shimgetter (image : ShimImage) : List Instr :=
  [.call (above image.asm STORDS), .storeBpWord image.rvSeg .cs, .push .ax, .call (above image.asm 3),
    .addImm .ax 1, .storeBpWord image.rvOff .ax, .pop .ax]

-- The two bytes at `dsval` stand between the getters and the rest.
def shimFront (image : ShimImage) : List Instr :=
  [.pop .ax, .jmpReg .ax, .call image.asm, .ret] ++ (drvcbshim image ++ [.call image.asm, .ret])

def shimBack (image : ShimImage) : List Instr :=
  [.call (above image.asm 37), .addImm .ax 1, .ret] ++ (loadds image ++ (stords image ++ shimgetter image))

def shimCode (image : ShimImage) : List (Nat × Instr) :=
  assemble 0 (shimFront image) ++ assemble GETDSVALPTR (shimBack image)

def ShimImage.dsval (image : ShimImage) (mem : Memory) : UInt16 :=
  readWord mem image.cs (above image.asm DSVAL)

-- The words that `driver_callback` reads through its argument, which is a near pointer.
def callbackParams (c : Cpu) : List UInt16 :=
  (List.range 6).map fun i => readWord c.mem c.regs.ds (above c.regs.ax (2 * i))

def driverCallbackFormat : List Piece :=
  pieces "driver_callback(%04Xh, %04Xh, %04Xh, %04Xh, %04Xh, %04Xh)\n".toList

def driverCallbackLine (c : Cpu) : List UInt8 :=
  sprintf driverCallbackFormat ((callbackParams c).map UInt16.toNat)

structure LoadedShim (image : ShimImage) (external : UInt16 → UInt16 → Option (Cpu → Cpu)) : Prop where
  inside : ∀ k ∈ (shimCode image).map Prod.fst,
    k < 65536 ∧ external image.cs (above image.asm k) = none

section

variable {image : ShimImage} {external : UInt16 → UInt16 → Option (Cpu → Cpu)} {F : StackFrame} {need k k' : Nat}
  {s : Cpu} {view : View}

def LoadedShim.env (loaded : LoadedShim image external) : Env :=
  ⟨image.cs, image.asm, fun k => (shimCode image).lookup k, external,
    fun _ _ hk => loaded.inside _ (mem_of_lookup hk)⟩

theorem LoadedShim.front (loaded : LoadedShim image external) :
    loaded.env.Code 0 [.pop .ax, .jmpReg .ax, .call image.asm, .ret] ∧
      loaded.env.Code DRVCBSHIM (drvcbshim image) ∧ loaded.env.Code 37 [.call image.asm, .ret] := by
  have hnone : ∀ entry ∈ ([] : List (Nat × Instr)), entry.1 < 0 := fun _ hmem => absurd hmem List.not_mem_nil
  have hcode : loaded.env.Code 0 (shimFront image) := code_of_listing_append hnone fun _ => rfl
  have hshim : DRVCBSHIM + sizes (drvcbshim image) = 37 := by
    simp [sizes, drvcbshim, shimSave, shimRestore, Instr.size, DRVCBSHIM]
  rw [shimFront, Env.code_append, Env.code_append] at hcode
  obtain ⟨hgetters, hdrvcbshim, hget⟩ := hcode
  have hplace : 0 + sizes [.pop .ax, .jmpReg .ax, .call image.asm, .ret] = DRVCBSHIM := rfl
  rw [hplace] at hdrvcbshim hget
  rw [hshim] at hget
  exact ⟨hgetters, hdrvcbshim, hget⟩

theorem LoadedShim.back (loaded : LoadedShim image external) :
    loaded.env.Code GETDSVALPTR [.call (above image.asm 37), .addImm .ax 1, .ret] ∧
      loaded.env.Code LOADDS (loadds image) ∧ loaded.env.Code STORDS (stords image) ∧
        loaded.env.Code SHIMGETTER (shimgetter image) := by
  have hfront : ∀ entry ∈ assemble 0 (shimFront image), entry.1 < GETDSVALPTR := by
    simp [assemble, shimFront, drvcbshim, shimSave, shimRestore, Instr.size, GETDSVALPTR]
  have hcode : loaded.env.Code GETDSVALPTR (shimBack image) := code_of_listing hfront fun _ => rfl
  have hloadds : LOADDS + sizes (loadds image) = STORDS := by
    simp [sizes, loadds, Instr.size, LOADDS, STORDS]
  have hstords : STORDS + sizes (stords image) = SHIMGETTER := by
    simp [sizes, stords, Instr.size, STORDS, SHIMGETTER]
  rw [shimBack, Env.code_append, Env.code_append, Env.code_append] at hcode
  obtain ⟨hget, hcode⟩ := hcode
  have hplace : GETDSVALPTR + sizes [.call (above image.asm 37), .addImm .ax 1, .ret] = LOADDS := rfl
  rw [hplace, hloadds, hstords] at hcode
  exact ⟨hget, hcode⟩

-- The word at `dsval` is found by way of a return address.
theorem getdsvalptr (loaded : LoadedShim image external) (h : At loaded.env F k s view)
    (hcode : loaded.env.code k = some (.call (above loaded.env.base GETDSVALPTR)))
    (hroom : view.own.length + 3 ≤ F.size) :
    ∃ t flags, loaded.env.Reaches s [] t ∧
      At loaded.env F (k + 3) t
        { view with regs := { view.regs with ax := above image.asm DSVAL, flags } } := by
  obtain ⟨⟨hpopAx, hjmpAx, _⟩, _, hget, hretget, _⟩ := loaded.front
  obtain ⟨⟨hcall, hadd, hret, _⟩, _⟩ := loaded.back
  have hget' : loaded.env.code 37 = some (.call (above loaded.env.base 0)) := by
    rw [above_zero]
    exact hget
  obtain ⟨t1, hr1, h1⟩ := h.callLocal hcode (by omega)
  obtain ⟨t2, hr2, h2⟩ := h1.getabove (q := 37) hcall hget' hretget hpopAx hjmpAx
    (by exact (by omega : view.own.length + 1 + 2 ≤ F.size))
  have hcode3 : loaded.env.Code 46 [.addImm .ax 1] := ⟨hadd, trivial⟩
  have hblock3 : ∃ flags, View.block
      ⟨{ (view.push (above loaded.env.base (k + 3))).regs with ax := above loaded.env.base 40 },
        (view.push (above loaded.env.base (k + 3))).own⟩ [.addImm .ax 1] =
      some ⟨{ view.regs with ax := above loaded.env.base 40 + 1, sp := view.regs.sp - 2, flags },
        above loaded.env.base (k + 3) :: view.own⟩ := ⟨_, rfl⟩
  obtain ⟨flags, hblock3⟩ := hblock3
  obtain ⟨t3, hr3, h3⟩ := h2.block hcode3 hblock3
    (by exact (by omega : view.own.length + 1 + 0 ≤ F.size))
  obtain ⟨t4, hr4, h4⟩ := At.ret h3 hret
  have hsp : view.regs.sp - 2 + 2 = view.regs.sp := UInt16.sub_add_cancel _ 2
  have hax : above loaded.env.base 40 + 1 = above image.asm DSVAL := above_above _ _ _
  dsimp only at h4
  rw [hsp, hax] at h4
  exact ⟨t4, flags, hr1.trans (hr2.trans (hr3.trans hr4)), h4⟩

-- `CALL loadds` changes DS and the flags.
theorem loadds_loads (loaded : LoadedShim image external)
    (hkeep : ∀ a, WordAt image.cs (above image.asm DSVAL) a → F.keep a) (h : At loaded.env F k s view)
    (hcode : loaded.env.code k = some (.call (above loaded.env.base LOADDS)))
    (hroom : view.own.length + 6 ≤ F.size) :
    ∃ t flags, loaded.env.Reaches s [] t ∧
      At loaded.env F (k + 3) t
        { view with regs := { view.regs with ds := image.dsval F.start, flags } } := by
  obtain ⟨_, ⟨hpushAx, hpushSi, hcall, hmovSi, hmovAx, hmovDs, hlodsw, hmovDs', hpopSi, hpopAx, hret, _⟩, _⟩ :=
    loaded.back
  obtain ⟨regs, own⟩ := view
  dsimp only at hroom ⊢
  obtain ⟨t1, hr1, h1⟩ := h.callLocal hcode (by exact (by omega : own.length + 1 ≤ F.size))
  have hcode2 : loaded.env.Code 50 [.push .ax, .push .si] := ⟨hpushAx, hpushSi, trivial⟩
  have hblock2 : ∃ sp, View.block (View.push (above loaded.env.base (k + 3)) ⟨regs, own⟩)
      [.push .ax, .push .si] =
      some ⟨{ regs with sp }, regs.si :: regs.ax :: above loaded.env.base (k + 3) :: own⟩ := ⟨_, rfl⟩
  obtain ⟨sp2, hblock2⟩ := hblock2
  obtain ⟨t2, hr2, h2⟩ := h1.block hcode2 hblock2 (by exact (by omega : own.length + 1 + 2 ≤ F.size))
  obtain ⟨t3, flags, hr3, h3⟩ := getdsvalptr loaded h2 hcall
    (by exact (by omega : own.length + 3 + 3 ≤ F.size))
  have hcode4 : loaded.env.Code 55 [.mov .si .ax, .mov .ax .cs, .mov .ds .ax] :=
    ⟨hmovSi, hmovAx, hmovDs, trivial⟩
  have hblock4 : View.block
      ⟨{ regs with ax := above image.asm DSVAL, sp := sp2, flags },
        regs.si :: regs.ax :: above loaded.env.base (k + 3) :: own⟩
      [.mov .si .ax, .mov .ax .cs, .mov .ds .ax] =
      some ⟨{ regs with ax := regs.cs, si := above image.asm DSVAL, sp := sp2, ds := regs.cs, flags },
        regs.si :: regs.ax :: above loaded.env.base (k + 3) :: own⟩ := rfl
  obtain ⟨t4, hr4, h4⟩ := h3.block hcode4 hblock4 (by exact (by omega : own.length + 3 + 0 ≤ F.size))
  have hcs : regs.cs = image.cs := h.cs
  obtain ⟨t5, si, hr5, h5⟩ := h4.lodsw hlodsw
    (by dsimp only; rw [hcs]; exact fun n hn => hkeep _ ⟨n, hn, rfl⟩)
  have hcode6 : loaded.env.Code 62 [.mov .ds .ax, .pop .si, .pop .ax] := ⟨hmovDs', hpopSi, hpopAx, trivial⟩
  have hblock6 : ∀ word, ∃ sp, View.block
      ⟨{ regs with ax := word, si := si, sp := sp2, ds := regs.cs, flags },
        regs.si :: regs.ax :: above loaded.env.base (k + 3) :: own⟩ [.mov .ds .ax, .pop .si, .pop .ax] =
      some ⟨{ regs with sp, ds := word, flags }, above loaded.env.base (k + 3) :: own⟩ := fun _ => ⟨_, rfl⟩
  have hdsval : readWord F.start regs.cs (above image.asm DSVAL) = image.dsval F.start := by rw [hcs]; rfl
  dsimp only at h5
  rw [hdsval] at h5
  obtain ⟨sp6, hblock6⟩ := hblock6 (image.dsval F.start)
  obtain ⟨t6, hr6, h6⟩ := h5.block hcode6 hblock6 (by exact (by omega : own.length + 3 + 0 ≤ F.size))
  obtain ⟨t7, hr7, h7⟩ := At.ret h6 hret
  have hsp : sp6 + 2 = regs.sp := h7.sees.sp.trans h.sees.sp.symm
  dsimp only at h7
  rw [hsp] at h7
  exact ⟨t7, flags, hr1.trans (hr2.trans (hr3.trans (hr4.trans (hr5.trans (hr6.trans hr7))))), h7⟩

-- What is on the stack while `driver_callback` runs.
def shimWords (regs : Registers) : List UInt16 :=
  [regs.es, regs.ds, regs.di, regs.si, regs.dx, regs.cx, regs.bx, regs.ax, regs.bp]

theorem shimSave_block (regs : Registers) :
    ∃ sp, View.block ⟨regs, []⟩ shimSave = some ⟨{ regs with sp }, shimWords regs⟩ := by
  simp only [View.block, shimSave, List.foldlM_cons, List.foldlM_nil, View.perform, View.push,
    Registers.get, Option.bind_eq_bind, Option.bind_some]
  exact ⟨_, rfl⟩

theorem shimRestore_block (regs after : Registers) :
    ∃ sp, View.block ⟨after, shimWords regs⟩ shimRestore =
      some ⟨{ regs with
        sp, axHigh := after.axHigh, dxHigh := after.dxHigh, cs := after.cs, ss := after.ss
        flags := after.flags }, []⟩ := by
  simp only [View.block, shimRestore, shimWords, List.foldlM_cons, List.foldlM_nil, View.perform,
    View.pop, Registers.set, Option.bind_eq_bind, Option.bind_some, reduceCtorEq, or_self, if_false]
  exact ⟨_, rfl⟩

-- The words of stack that the shim takes itself.
def SHIM_DEPTH : Nat := 15

-- A callback of the driver through the shim. `c` is the state in which `driver_callback` is entered,
-- and `params` what stands above the return address.
structure CalledBack (image : ShimImage) (s c t : Cpu) (ip cs : UInt16) (params : List UInt16) : Prop where
  callback_ip : c.ip = image.driverCallback
  callback_ds : c.regs.ds = image.dsval s.mem
  callback_line : image.dsval s.mem = s.regs.ss → 6 ≤ params.length →
    driverCallbackLine c = sprintf driverCallbackFormat ((params.take 6).map UInt16.toNat)
  ip : t.ip = ip
  regs : t.regs = { s.regs with
    cs := cs, sp := above s.regs.sp 4, flags := t.regs.flags, axHigh := t.regs.axHigh
    dxHigh := t.regs.dxHigh }
  holds : Holds t.mem s.regs.ss t.regs.sp params
  dsval : image.dsval t.mem = image.dsval s.mem

-- `CALL stords` changes the word at `dsval` and the flags.
theorem stords_stores (loaded : LoadedShim image external) (hrest : F.rest = [])
    (hkeep : ∀ a, WordAt image.cs (above image.asm DSVAL) a → F.keep a) (h : At loaded.env F k s view)
    (hcode : loaded.env.code k = some (.call (above loaded.env.base STORDS)))
    (hroom : view.own.length + 7 ≤ F.size) :
    ∃ t flags, loaded.env.Reaches s [] t ∧
      At loaded.env (F.store image.cs (above image.asm DSVAL) view.regs.ds) (k + 3) t
        { view with regs := { view.regs with flags } } := by
  obtain ⟨_, _, ⟨hpushAx, hpushEs, hpushDi, hcall, hmovDi, hmovAx, hmovEs, hmovAx', hstosw, hpopDi, hpopEs,
    hpopAx, hret, _⟩, _⟩ := loaded.back
  obtain ⟨regs, own⟩ := view
  dsimp only at hroom ⊢
  obtain ⟨t1, hr1, h1⟩ := h.callLocal hcode (by exact (by omega : own.length + 1 ≤ F.size))
  have hcode2 : loaded.env.Code 67 [.push .ax, .push .es, .push .di] := ⟨hpushAx, hpushEs, hpushDi, trivial⟩
  have hblock2 : ∃ sp, View.block (View.push (above loaded.env.base (k + 3)) ⟨regs, own⟩)
      [.push .ax, .push .es, .push .di] =
      some ⟨{ regs with sp }, regs.di :: regs.es :: regs.ax :: above loaded.env.base (k + 3) :: own⟩ :=
    ⟨_, rfl⟩
  obtain ⟨sp2, hblock2⟩ := hblock2
  obtain ⟨t2, hr2, h2⟩ := h1.block hcode2 hblock2 (by exact (by omega : own.length + 1 + 3 ≤ F.size))
  obtain ⟨t3, flags, hr3, h3⟩ := getdsvalptr loaded h2 hcall
    (by exact (by omega : own.length + 4 + 3 ≤ F.size))
  have hcode4 : loaded.env.Code 73 [.mov .di .ax, .mov .ax .cs, .mov .es .ax, .mov .ax .ds] :=
    ⟨hmovDi, hmovAx, hmovEs, hmovAx', trivial⟩
  have hblock4 : View.block
      ⟨{ regs with ax := above image.asm DSVAL, sp := sp2, flags },
        regs.di :: regs.es :: regs.ax :: above loaded.env.base (k + 3) :: own⟩
      [.mov .di .ax, .mov .ax .cs, .mov .es .ax, .mov .ax .ds] =
      some ⟨{ regs with
        ax := regs.ds, di := above image.asm DSVAL, sp := sp2, es := regs.cs, flags },
        regs.di :: regs.es :: regs.ax :: above loaded.env.base (k + 3) :: own⟩ := rfl
  obtain ⟨t4, hr4, h4⟩ := h3.block hcode4 hblock4 (by exact (by omega : own.length + 4 + 0 ≤ F.size))
  have hcs : regs.cs = image.cs := h.cs
  have hstore : F.store regs.cs (above image.asm DSVAL) regs.ds =
      F.store image.cs (above image.asm DSVAL) regs.ds := by rw [hcs]
  obtain ⟨t5, di, hr5, h5⟩ := h4.stosw hstosw
    (by dsimp only; rw [hcs]; exact apart_of_keep hrest hkeep)
  dsimp only at h5
  rw [hstore] at h5
  have hcode6 : loaded.env.Code 82 [.pop .di, .pop .es, .pop .ax] := ⟨hpopDi, hpopEs, hpopAx, trivial⟩
  have hblock6 : ∃ sp, View.block
      ⟨{ regs with ax := regs.ds, di := di, sp := sp2, es := regs.cs, flags },
        regs.di :: regs.es :: regs.ax :: above loaded.env.base (k + 3) :: own⟩ [.pop .di, .pop .es, .pop .ax] =
      some ⟨{ regs with sp, flags }, above loaded.env.base (k + 3) :: own⟩ := ⟨_, rfl⟩
  obtain ⟨sp6, hblock6⟩ := hblock6
  obtain ⟨t6, hr6, h6⟩ := h5.block hcode6 hblock6 (by exact (by omega : own.length + 4 + 0 ≤ F.size))
  obtain ⟨t7, hr7, h7⟩ := At.ret h6 hret
  have hsp : sp6 + 2 = regs.sp := h7.sees.sp.trans h.sees.sp.symm
  dsimp only at h7
  rw [hsp] at h7
  exact ⟨t7, flags, hr1.trans (hr2.trans (hr3.trans (hr4.trans (hr5.trans (hr6.trans hr7))))), h7⟩

-- The bytes that `build_driver_callback_shim` writes.
def ShimImage.keep (image : ShimImage) (regs : Registers) (a : Nat) : Prop :=
  WordAt image.cs (above image.asm DSVAL) a ∨ WordAt regs.ss (regs.bp + image.rvSeg) a ∨
    WordAt regs.ss (regs.bp + image.rvOff) a

-- The word in the code segment and the two variables do not overlap.
structure ShimImage.Apart (image : ShimImage) (regs : Registers) : Prop where
  dsval_seg : ∀ a, WordAt image.cs (above image.asm DSVAL) a → ¬WordAt regs.ss (regs.bp + image.rvSeg) a
  dsval_off : ∀ a, WordAt image.cs (above image.asm DSVAL) a → ¬WordAt regs.ss (regs.bp + image.rvOff) a
  seg_off : ∀ a, WordAt regs.ss (regs.bp + image.rvSeg) a → ¬WordAt regs.ss (regs.bp + image.rvOff) a

-- The words of stack that it takes.
def BUILD_DEPTH : Nat := 7

-- What has been built: the pointer in the two variables is to the shim, which finds the data segment
-- of the program.
structure Built (image : ShimImage) (s t : Cpu) : Prop where
  ip : t.ip = above image.asm AFTER_SHIMGETTER
  regs : t.regs = { s.regs with flags := t.regs.flags }
  dsval : image.dsval t.mem = s.regs.ds
  rv_seg : readWord t.mem s.regs.ss (s.regs.bp + image.rvSeg) = image.cs
  rv_off : readWord t.mem s.regs.ss (s.regs.bp + image.rvOff) = above image.asm DRVCBSHIM

theorem shimgetter_builds (loaded : LoadedShim image external) (hapart : image.Apart s.regs)
    (hcs : s.regs.cs = image.cs) (hip : s.ip = above image.asm SHIMGETTER)
    (hclear : Clear (image.keep s.regs) BUILD_DEPTH s) :
    ∃ t, loaded.env.Reaches s [] t ∧ Built image s t := by
  have hnoWords : Holds s.mem s.regs.ss s.regs.sp [] := trivial
  obtain ⟨F, hsize, hrest, hkeep, hstart, hss, hsees⟩ := exists_frame hclear hnoWords (by decide)
  obtain ⟨_, _, _, hcall, hstoreSeg, hpushAx, hcallGet, hadd, hstoreOff, hpopAx, _⟩ := loaded.back
  obtain ⟨⟨hpop, hjmp, hget, hret, _⟩, _⟩ := loaded.front
  have hget' : loaded.env.code 3 = some (.call (above loaded.env.base 0)) := by
    rw [above_zero]
    exact hget
  rw [BUILD_DEPTH] at hsize
  have h0 : At loaded.env F SHIMGETTER s ⟨s.regs, []⟩ := ⟨hip, hcs, hsees⟩
  obtain ⟨t1, flags1, hr1, h1⟩ := stords_stores loaded hrest (by rw [hkeep]; exact fun _ ha => .inl ha) h0
    hcall (by exact (by omega : 0 + 7 ≤ F.size))
  obtain ⟨t2, hr2, h2⟩ := h1.storeBpWord hstoreSeg
    (apart_of_keep (F := F) hrest (by rw [hkeep]; exact fun _ ha => .inr (.inl ha)))
  have hcode3 : loaded.env.Code 92 [.push .ax] := ⟨hpushAx, trivial⟩
  have hblock3 : View.block ⟨{ s.regs with flags := flags1 }, []⟩ [.push .ax] =
      some ⟨{ s.regs with flags := flags1, sp := s.regs.sp - 2 }, [s.regs.ax]⟩ := rfl
  obtain ⟨t3, hr3, h3⟩ := h2.block hcode3 hblock3 (by exact (by omega : 0 + 1 ≤ F.size))
  obtain ⟨t4, hr4, h4⟩ := h3.getabove (q := 3) hcallGet hget' hret hpop hjmp
    (by exact (by omega : 1 + 2 ≤ F.size))
  have hcode5 : loaded.env.Code 96 [.addImm .ax 1] := ⟨hadd, trivial⟩
  have hblock5 : ∃ flags, View.block
      ⟨{ s.regs with ax := above loaded.env.base 6, flags := flags1, sp := s.regs.sp - 2 }, [s.regs.ax]⟩
      [.addImm .ax 1] =
      some ⟨{ s.regs with ax := above loaded.env.base 6 + 1, sp := s.regs.sp - 2, flags }, [s.regs.ax]⟩ :=
    ⟨_, rfl⟩
  obtain ⟨flags5, hblock5⟩ := hblock5
  obtain ⟨t5, hr5, h5⟩ := h4.block hcode5 hblock5 (by exact (by omega : 1 + 0 ≤ F.size))
  obtain ⟨t6, hr6, h6⟩ := h5.storeBpWord hstoreOff
    (apart_of_keep (F := F) hrest (by rw [hkeep]; exact fun _ ha => .inr (.inr ha)))
  have hcode7 : loaded.env.Code 102 [.pop .ax] := ⟨hpopAx, trivial⟩
  have hblock7 : ∃ sp, View.block
      ⟨{ s.regs with ax := above loaded.env.base 6 + 1, sp := s.regs.sp - 2, flags := flags5 }, [s.regs.ax]⟩
      [.pop .ax] = some ⟨{ s.regs with sp, flags := flags5 }, []⟩ := ⟨_, rfl⟩
  obtain ⟨sp7, hblock7⟩ := hblock7
  obtain ⟨t, hr7, h7⟩ := h6.block hcode7 hblock7 (by exact (by omega : 1 + 0 ≤ F.size))
  have hsp : sp7 = s.regs.sp := h7.sees.sp.trans h0.sees.sp.symm
  have hax : above loaded.env.base 6 + 1 = above image.asm DRVCBSHIM := above_above _ _ _
  have hmem : ∀ a, image.keep s.regs a → t.mem a =
      writeWord (writeWord (writeWord s.mem image.cs (above image.asm DSVAL) s.regs.ds) s.regs.ss
        (s.regs.bp + image.rvSeg) s.regs.cs) s.regs.ss (s.regs.bp + image.rvOff)
        (above image.asm DRVCBSHIM) a := by
    intro a ha
    rw [← hkeep] at ha
    rw [← hstart, ← hax]
    exact h7.sees.kept a ha
  refine ⟨t, hr1.trans (hr2.trans (hr3.trans (hr4.trans (hr5.trans (hr6.trans hr7))))), h7.ip, ?_, ?_, ?_, ?_⟩
  · rw [h7.sees.regs, hsp]
  · rw [ShimImage.dsval, readWord_of_kept fun a ha => hmem a (.inl ha),
      readWord_of_apart _ hapart.dsval_off, readWord_of_apart _ hapart.dsval_seg, readWord_writeWord]
  · rw [readWord_of_kept fun a ha => hmem a (.inr (.inl ha)), readWord_of_apart _ hapart.seg_off,
      readWord_writeWord, hcs]
  · rw [readWord_of_kept fun a ha => hmem a (.inr (.inr ha)), readWord_writeWord]

end

-- The program at 1000:0100, its C code from 1000:0400 on, and the stack at 3000:1000. The callback
-- finds 6 above its return address, and 2000h at `dsval`.
def shimAt1000 : ShimImage := ⟨0x1000, 0x100, 0x400, 0, 2⟩

def shimExternal (seg off : UInt16) : Option (Cpu → Cpu) :=
  if seg = 0x1000 ∧ 0x400 ≤ off then some returnNear else none

def buildingAt1000 : Cpu where
  regs := ⟨0, 0, 0, 0, 0, 0, 0x1000, 0x1000, 0, 0, 0x1000, 0x2000, 0x2000, 0x3000, 0x202⟩
  ip := 0x156
  mem _ := 0

def shimCalledAt1000 : Cpu where
  regs := ⟨1, 2, 3, 4, 5, 6, 7, 0x1000, 0, 0, 0x1000, 0x4000, 0x5000, 0x3000, 0x202⟩
  ip := 0x107
  mem a := if a = 0x1012A then 0x20 else if a = 0x31004 then 6 else 0

theorem loadedShimAt1000 : LoadedShim shimAt1000 shimExternal where
  inside := by
    have hplaces : ∀ k ∈ (shimCode shimAt1000).map Prod.fst, k < 0x100 := by decide
    intro k hk
    have hlt := hplaces k hk
    have hasm : shimAt1000.asm.toNat = 0x100 := rfl
    have hbelow : ¬(0x400 : UInt16) ≤ above shimAt1000.asm k := by
      rw [UInt16.le_iff_toNat_le, above_toNat, hasm]
      simp only [UInt16.reduceToNat]
      omega
    exact ⟨by omega, if_neg fun h => hbelow h.2⟩

theorem shimgetter_builds_at1000 :
    ∃ t, loadedShimAt1000.env.Reaches buildingAt1000 [] t ∧ Built shimAt1000 buildingAt1000 t := by
  have happart : ∀ {seg off seg' off' : UInt16},
      (∀ m < 2, ∀ n < 2, physical seg (above off m) ≠ physical seg' (above off' n)) →
        ∀ a, WordAt seg off a → ¬WordAt seg' off' a := by
    rintro seg off seg' off' h a ⟨m, hm, rfl⟩ ⟨n, hn, heq⟩
    exact h m hm n hn heq
  refine shimgetter_builds loadedShimAt1000
    ⟨happart (by decide), happart (by decide), happart (by decide)⟩ rfl rfl ⟨0xFF2, rfl, ?_⟩
  rintro a (⟨m, hm, rfl⟩ | ⟨m, hm, rfl⟩ | ⟨m, hm, rfl⟩)
  · revert m
    decide
  · revert m
    decide
  · revert m
    decide

end ReelMagic.Rmprobe
