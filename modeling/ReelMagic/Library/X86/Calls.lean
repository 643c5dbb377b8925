import ReelMagic.Library.X86.View

namespace Library.X86

-- `need` words below SP are free of the kept bytes.
def Clear (keep : Nat → Prop) (need : Nat) (s : Cpu) : Prop :=
  ∃ low, above low (2 * need) = s.regs.sp ∧
    ∀ a, keep a → ∀ n < 2 * need, a ≠ physical s.regs.ss (above low n)

-- Control is back at `cs:ip` with this many words taken off the stack, and what the caller has
-- above them is there as before.
structure Returned (keep : Nat → Prop) (s t : Cpu) (ip cs : UInt16) (popped : Nat)
    (words : List UInt16) : Prop where
  ip : t.ip = ip
  cs : t.regs.cs = cs
  ss : t.regs.ss = s.regs.ss
  sp : t.regs.sp = above s.regs.sp (2 * popped)
  holds : Holds t.mem s.regs.ss t.regs.sp words
  kept : ∀ a, keep a → t.mem a = s.mem a

-- A routine that ends with RET and needs so many words of stack.
def ReturnsNear (keep : Nat → Prop) (need : Nat) (f : Cpu → Cpu) : Prop :=
  ∀ s ret words, Holds s.mem s.regs.ss s.regs.sp (ret :: words) →
    2 * (need + 1 + words.length) ≤ 65536 → Clear keep need s →
      Returned keep s (f s) ret s.regs.cs 1 words

-- An interrupt handler that ends with IRET, when it is entered in this state with these words of its
-- caller on the stack.
def InterruptReturns (keep : Nat → Prop) (need : Nat) (f : Cpu → Cpu) (s : Cpu) (words : List UInt16) : Prop :=
  ∀ ip cs flags, Holds s.mem s.regs.ss s.regs.sp (ip :: cs :: flags :: words) →
    2 * (need + 3 + words.length) ≤ 65536 → Clear keep need s →
      Returned keep s (f s) ip cs 3 words

-- One that does so wherever it is called from, and leaves the stack alone up to the end of `rest`.
def ReturnsInterrupt (keep : Nat → Prop) (need : Nat) (f : Cpu → Cpu) (rest : List UInt16) : Prop :=
  ∀ s own, InterruptReturns keep need f s (own ++ rest)

section

variable {F : StackFrame} {s : Cpu} {view : View}

theorem Sees.of_eq (h : Sees F s view) {t : Cpu} (hregs : t.regs = view.regs) (hmem : t.mem = s.mem) :
    Sees F t view := by
  refine ⟨hregs, h.ss, h.sp, h.own_le, ?_, ?_⟩
  · rw [hmem]
    exact h.holds
  · rw [hmem]
    exact h.kept

theorem Sees.clear (h : Sees F s view) {need : Nat} (hroom : view.own.length + need ≤ F.size) :
    Clear F.keep need s := by
  refine ⟨above F.bottom (2 * (F.size - view.own.length - need)), ?_, ?_⟩
  · rw [above_above, h.regs, h.sp, StackFrame.sp]
    congr 1
    omega
  · intro a ha n hn
    rw [above_above, h.regs, h.ss]
    exact F.apart a ha _ (by omega)

-- SP goes up past words that have been pushed.
theorem Sees.release (h : Sees F s view) {n : Nat} (hn : n ≤ view.own.length) :
    Sees F { s with regs := { s.regs with sp := above s.regs.sp (2 * n) } }
      ⟨{ view.regs with sp := above view.regs.sp (2 * n) }, view.own.drop n⟩ := by
  have hle := h.own_le
  have hlength : (view.own.take n).length = n := List.length_take_of_le hn
  have hholds := h.holds
  rw [← List.take_append_drop n view.own, List.append_assoc, holds_append, hlength] at hholds
  refine ⟨?_, h.ss, ?_, ?_, hholds.2, h.kept⟩
  · rw [h.regs]
  · simp only [List.length_drop, StackFrame.sp, above_above, h.sp]
    congr 1
    omega
  · rw [List.length_drop]
    omega

-- SP goes down over words that have not been pushed.
theorem Sees.reserve (h : Sees F s view) (hroom : view.own.length + 1 ≤ F.size) :
    ∃ word, Sees F { s with regs := { s.regs with sp := s.regs.sp - 2 } }
      ⟨{ view.regs with sp := view.regs.sp - 2 }, word :: view.own⟩ := by
  have hsp : view.regs.sp - 2 = F.sp (view.own.length + 1) := by rw [h.sp, F.sp_sub_two hroom]
  refine ⟨readWord s.mem F.ss (view.regs.sp - 2), ?_, h.ss, hsp, hroom, ⟨rfl, ?_⟩, h.kept⟩
  · rw [h.regs]
  · have hback : view.regs.sp - 2 + 2 = view.regs.sp := UInt16.sub_add_cancel _ 2
    dsimp only
    rw [hback]
    exact h.holds

-- One of the pushed words is read, by its place on the stack.
theorem Sees.read (h : Sees F s view) {n : Nat} {word off : UInt16} (hword : view.own[n]? = some word)
    (hoff : off = above view.regs.sp (2 * n)) : readWord s.mem s.regs.ss off = word := by
  obtain ⟨hn, hget⟩ := List.getElem?_eq_some_iff.mp hword
  have hn' : n < (view.own ++ F.rest).length := by
    rw [List.length_append]
    omega
  have hread := h.holds.getElem hn'
  rw [List.getElem_append_left hn, hget] at hread
  rw [h.regs, h.ss, hoff, hread]

-- Likewise for one of the words that the caller has there.
theorem Sees.readRest (h : Sees F s view) {n : Nat} {word off : UInt16} (hword : F.rest[n]? = some word)
    (hoff : off = above view.regs.sp (2 * (view.own.length + n))) :
    readWord s.mem s.regs.ss off = word := by
  obtain ⟨hn, hget⟩ := List.getElem?_eq_some_iff.mp hword
  have hn' : view.own.length + n < (view.own ++ F.rest).length := by
    rw [List.length_append]
    omega
  have hread := h.holds.getElem hn'
  rw [List.getElem_append_right (Nat.le_add_right _ _)] at hread
  simp only [Nat.add_sub_cancel_left, hget] at hread
  rw [h.regs, h.ss, hoff, hread]

-- One of the pushed words is overwritten.
theorem Sees.write (h : Sees F s view) {n : Nat} {off : UInt16} (v : UInt16) (hn : n < view.own.length)
    (hoff : off = above view.regs.sp (2 * n)) :
    Sees F { s with mem := writeWord s.mem s.regs.ss off v }
      { view with own := view.own.set n v } := by
  have hfits := F.fits
  have hle := h.own_le
  have hn' : n < (view.own ++ F.rest).length := by
    rw [List.length_append]
    omega
  refine ⟨h.regs, h.ss, ?_, ?_, ?_, ?_⟩
  · rw [List.length_set]
    exact h.sp
  · rw [List.length_set]
    exact hle
  · have hholds := holds_set h.holds v hn' (by rw [List.length_append]; omega)
    rw [List.set_append_left _ _ hn] at hholds
    rw [h.regs, h.ss, hoff]
    exact hholds
  · intro a ha
    rw [← h.kept a ha]
    dsimp only
    rw [h.regs, h.ss, hoff, h.sp, StackFrame.sp, above_above]
    apply writeWord_of_ne
    · exact F.apart a ha _ (by omega)
    · rw [add_one_eq_above, above_above]
      exact F.apart a ha _ (by omega)

-- A routine that returns takes its words off the view.
theorem Returned.sees (popped own : List UInt16) {t : Cpu} {ip cs : UInt16}
    (hreturned : Returned F.keep s t ip cs popped.length (own ++ F.rest))
    (h : Sees F s view) (hown : view.own = popped ++ own) : Sees F t ⟨t.regs, own⟩ := by
  have hle := h.own_le
  rw [hown, List.length_append] at hle
  refine ⟨rfl, ?_, ?_, Nat.le_of_add_left_le hle, ?_, ?_⟩
  · rw [hreturned.ss, h.regs]
    exact h.ss
  · simp only [hreturned.sp, h.regs, h.sp, hown, List.length_append, StackFrame.sp, above_above]
    congr 1
    omega
  · have hholds := hreturned.holds
    rw [h.regs, h.ss] at hholds
    exact hholds
  · intro a ha
    rw [hreturned.kept a ha]
    exact h.kept a ha

end

section

variable {env : Env} {F : StackFrame} {k need : Nat} {s : Cpu} {view : View} {f : Cpu → Cpu}

theorem At.next (h : At env F k s view) (n : Nat) :
    s.ip + UInt16.ofNat n = above env.base (k + n) := by
  rw [h.ip, ← above_above]
  rfl

-- One instruction, by where it goes and what it does to the view.
theorem At.instr {i : Instr} {next : View} {k' : Nat} (h : At env F k s view)
    (hcode : env.code k = some i) (hip : (s.exec i).ip = above env.base k')
    (hcs : next.regs.cs = view.regs.cs) (hsees : Sees F (s.exec i) next) :
    env.Reaches s [] (s.exec i) ∧ At env F k' (s.exec i) next :=
  ⟨.instr hcode h.cs' h.ip, hip, hcs.trans h.cs, hsees⟩

-- The call of a routine in the same code.
theorem At.callLocal {k' : Nat} (h : At env F k s view)
    (hcode : env.code k = some (.call (above env.base k'))) (hroom : view.own.length + 1 ≤ F.size) :
    ∃ t, env.Reaches s [] t ∧ At env F k' t (view.push (above env.base (k + 3))) := by
  have hpush := (h.sees.with_ip (s.ip + UInt16.ofNat 3)).push (above env.base (k + 3)) hroom
  rw [← h.next 3] at hpush ⊢
  exact ⟨_, h.instr hcode rfl rfl (hpush.with_ip _)⟩

theorem At.ret {regs : Registers} {k' : Nat} {own : List UInt16}
    (h : At env F k s ⟨regs, above env.base k' :: own⟩) (hcode : env.code k = some .ret) :
    ∃ t, env.Reaches s [] t ∧ At env F k' t ⟨{ regs with sp := regs.sp + 2 }, own⟩ := by
  have hsees := h.sees.with_ip (s.ip + UInt16.ofNat 1)
  have hdrop : Sees F _ ⟨{ regs with sp := regs.sp + 2 }, own⟩ := hsees.drop rfl
  exact ⟨_, h.instr hcode (hsees.top rfl) rfl (hdrop.with_ip _)⟩

theorem At.jmp {k' : Nat} (h : At env F k s view) (hcode : env.code k = some (.jmp (above env.base k'))) :
    ∃ t, env.Reaches s [] t ∧ At env F k' t view :=
  ⟨_, h.instr hcode rfl rfl ((h.sees.with_ip _).with_ip _)⟩

theorem At.jmpReg {r : Reg} {k' : Nat} (h : At env F k s view) (hcode : env.code k = some (.jmpReg r))
    (hr : view.regs.get r = above env.base k') :
    ∃ t, env.Reaches s [] t ∧ At env F k' t view := by
  refine ⟨_, h.instr hcode ?_ rfl ((h.sees.with_ip _).with_ip _)⟩
  rw [← hr, ← h.sees.regs]
  rfl

-- A conditional jump that is not taken, and one that is.
theorem At.jne_equal {target : UInt16} (h : At env F k s view) (hcode : env.code k = some (.jne target))
    (hzero : ZF view.regs.flags = true) :
    ∃ t, env.Reaches s [] t ∧ At env F (k + 2) t view := by
  have hexec : s.exec (.jne target) = { s with ip := s.ip + UInt16.ofNat 2 } := by
    rw [Cpu.exec, Cpu.perform, h.sees.regs, if_pos hzero]
    rfl
  refine ⟨_, h.instr hcode ?_ rfl ?_⟩
  · rw [hexec]
    exact h.next 2
  · rw [hexec]
    exact h.sees.with_ip _

theorem At.jne_notEqual {k' : Nat} (h : At env F k s view)
    (hcode : env.code k = some (.jne (above env.base k'))) (hzero : ZF view.regs.flags = false) :
    ∃ t, env.Reaches s [] t ∧ At env F k' t view := by
  have hexec : s.exec (.jne (above env.base k')) = { s with ip := above env.base k' } := by
    rw [Cpu.exec, Cpu.perform, h.sees.regs, if_neg (by rw [hzero]; exact Bool.false_ne_true)]
  refine ⟨_, h.instr hcode ?_ rfl ?_⟩
  · rw [hexec]
  · rw [hexec]
    exact h.sees.with_ip _

theorem sub_four (a : UInt16) : a - 4 = a - 2 - 2 := by
  apply UInt16.toNat_inj.mp
  simp only [UInt16.toNat_sub, UInt16.reduceToNat]
  omega

-- `ENTER 4, 0` makes room for one far pointer.
theorem At.enter (h : At env F k s view) (hcode : env.code k = some (.enter 4))
    (hroom : view.own.length + 3 ≤ F.size) :
    ∃ t word word', env.Reaches s [] t ∧
      At env F (k + 4) t
        ⟨{ view.regs with bp := view.regs.sp - 2, sp := view.regs.sp - 2 - 2 - 2 },
          word :: word' :: view.regs.bp :: view.own⟩ := by
  have hpush := (h.sees.with_ip (s.ip + UInt16.ofNat 4)).push view.regs.bp (by omega)
  have hbp := hpush.with_regs { (view.push view.regs.bp).regs with bp := view.regs.sp - 2 } rfl rfl
  obtain ⟨word', hlow⟩ := hbp.reserve (by rw [View.push, List.length_cons]; omega)
  obtain ⟨word, hlower⟩ := hlow.reserve (by simp only [View.push, List.length_cons]; omega)
  have hregs : (s.exec (.enter 4)).regs =
      { view.regs with bp := view.regs.sp - 2, sp := view.regs.sp - 2 - 2 - 2 } := by
    simp only [Cpu.exec, Cpu.perform, Cpu.push, h.sees.regs, sub_four]
  have hmem : (s.exec (.enter 4)).mem =
      (Cpu.push view.regs.bp { s with ip := s.ip + UInt16.ofNat 4 }).mem := by
    rw [Cpu.exec, Cpu.perform, h.sees.regs]
    rfl
  exact ⟨_, word, word', h.instr hcode (h.next 4) rfl (hlower.of_eq hregs hmem)⟩

-- The frame pointer is where the old one was pushed.
theorem At.leave {n : Nat} {bp : UInt16} (h : At env F k s view) (hcode : env.code k = some .leave)
    (hbp : view.regs.bp = above view.regs.sp (2 * n)) (hold : view.own[n]? = some bp) :
    ∃ t, env.Reaches s [] t ∧
      At env F (k + 1) t
        ⟨{ view.regs with bp := bp, sp := view.regs.bp + 2 }, view.own.drop (n + 1)⟩ := by
  obtain ⟨hn, hget⟩ := List.getElem?_eq_some_iff.mp hold
  have hrelease := (h.sees.with_ip (s.ip + UInt16.ofNat 1)).release (Nat.le_of_lt hn)
  rw [List.drop_eq_getElem_cons hn, hget] at hrelease
  have hpop := hrelease.pop (r := .bp) rfl
  have hexec : s.exec .leave = Cpu.pop .bp { s with
      ip := s.ip + UInt16.ofNat 1
      regs := { s.regs with sp := above s.regs.sp (2 * n) } } := by
    rw [Cpu.exec, Cpu.perform, h.sees.regs, hbp]
    rfl
  rw [← hexec] at hpop
  refine ⟨_, h.instr hcode ?_ rfl ?_⟩
  · rw [hexec]
    exact h.next 1
  · rw [hbp]
    exact hpop

-- A far pointer is stored into two words that have been pushed.
theorem At.storeBp {n : Nat} {disp : UInt16} (h : At env F k s view)
    (hcode : env.code k = some (.storeBp disp)) (hn : n + 1 < view.own.length)
    (hoff : view.regs.bp + disp = above view.regs.sp (2 * n)) :
    ∃ t, env.Reaches s [] t ∧
      At env F (k + 4) t
        { view with own := (view.own.set n view.regs.ax).set (n + 1) view.regs.axHigh } := by
  have hlow := (h.sees.with_ip (s.ip + UInt16.ofNat 4)).write view.regs.ax (Nat.lt_of_succ_lt hn) hoff
  have hnext : view.regs.bp + disp + 2 = above view.regs.sp (2 * (n + 1)) := by
    rw [hoff, add_two_eq_above, above_above]
    rfl
  have hhigh := hlow.write view.regs.axHigh (by rw [List.length_set]; exact hn) hnext
  have hexec : s.exec (.storeBp disp) = { s with
      ip := s.ip + UInt16.ofNat 4
      mem := writeWord (writeWord s.mem s.regs.ss (view.regs.bp + disp) view.regs.ax) s.regs.ss
        (view.regs.bp + disp + 2) view.regs.axHigh } := by
    rw [Cpu.exec, Cpu.perform, h.sees.regs]
    rfl
  refine ⟨_, h.instr hcode ?_ rfl ?_⟩
  · rw [hexec]
    exact h.next 4
  · rw [hexec]
    exact hhigh

-- What is loaded has been there from the start.
theorem At.movEaxMem {disp : UInt16} (h : At env F k s view)
    (hcode : env.code k = some (.movEaxMem disp))
    (hkeep : ∀ n < 4, F.keep (physical view.regs.ds (above disp n))) :
    ∃ t, env.Reaches s [] t ∧
      At env F (k + 4) t
        { view with
          regs := { view.regs with
            ax := readWord F.start view.regs.ds disp
            axHigh := readWord F.start view.regs.ds (disp + 2) } } := by
  have hload : ∀ n < 3, readWord s.mem view.regs.ds (above disp n) =
      readWord F.start view.regs.ds (above disp n) := by
    intro n hn
    apply readWord_congr
    · exact h.sees.kept _ (hkeep n (by omega))
    · rw [add_one_eq_above, above_above]
      exact h.sees.kept _ (hkeep (n + 1) (by omega))
  have hlow := hload 0 (by omega)
  have hhigh := hload 2 (by omega)
  rw [above_zero] at hlow
  have hexec : s.exec (.movEaxMem disp) = { s with
      ip := s.ip + UInt16.ofNat 4
      regs := { view.regs with
        ax := readWord F.start view.regs.ds disp
        axHigh := readWord F.start view.regs.ds (disp + 2) } } := by
    rw [Cpu.exec, Cpu.perform, Cpu.load, Cpu.load, h.sees.regs, ← hlow, add_two_eq_above, ← hhigh]
    rfl
  refine ⟨_, h.instr hcode ?_ rfl ?_⟩
  · rw [hexec]
    exact h.next 4
  · rw [hexec]
    exact (h.sees.with_ip _).with_regs _ rfl rfl

-- The call of an external routine in the same code segment.
theorem At.callNear {target : UInt16} (h : At env F k s view)
    (hcode : env.code k = some (.call target)) (hf : env.external env.cs target = some f)
    (hreturns : ReturnsNear F.keep need f) (hroom : view.own.length + 1 + need ≤ F.size) :
    ∃ c, env.Reaches s [c] (f c) ∧ c.regs = { view.regs with sp := view.regs.sp - 2 } ∧
      c.ip = target ∧ Sees F c (view.push (above env.base (k + 3))) ∧
      At env F (k + 3) (f c) ⟨(f c).regs, view.own⟩ := by
  have hfits := F.fits
  have hret : s.ip + UInt16.ofNat 3 = above env.base (k + 3) := by
    rw [h.ip, ← above_above]
    rfl
  have hpush := (h.sees.with_ip (s.ip + UInt16.ofNat 3)).push (above env.base (k + 3)) (by omega)
  have hentered : Sees F (s.exec (.call target)) (view.push (above env.base (k + 3))) := by
    rw [← hret] at hpush ⊢
    exact hpush.with_ip target
  have hregs := hentered.regs
  have hholds := hentered.holds
  rw [← hentered.ss, ← hregs] at hholds
  have hlength : (view.own ++ F.rest).length = view.own.length + F.rest.length := List.length_append
  have hclear : Clear F.keep need (s.exec (.call target)) :=
    hentered.clear (by rw [View.push, List.length_cons]; omega)
  have hreturned := hreturns _ _ (view.own ++ F.rest) hholds (by omega) hclear
  have hcs : (s.exec (.call target)).regs.cs = env.cs := by
    rw [hregs]
    exact h.cs
  have hcall : env.external (s.exec (.call target)).regs.cs (s.exec (.call target)).ip = some f := by
    rw [hcs]
    exact hf
  refine ⟨s.exec (.call target), (Env.Reaches.instr hcode h.cs' h.ip).trans (.external hcall), ?_, rfl,
    hentered, ?_⟩
  · exact hregs
  · refine ⟨hreturned.ip, ?_, Returned.sees [_] view.own hreturned hentered rfl⟩
    rw [← hcs]
    exact hreturned.cs

-- An interrupt handler that is entered with a way back into the code.
theorem Sees.interrupt {k' : Nat} {flags : UInt16} {own : List UInt16} {c : Cpu}
    (h : Sees F c ⟨c.regs, above env.base k' :: env.cs :: flags :: own⟩)
    (hf : env.external c.regs.cs c.ip = some f) (hreturns : InterruptReturns F.keep need f c (own ++ F.rest))
    (hroom : own.length + 3 + need ≤ F.size) :
    env.Reaches c [c] (f c) ∧ At env F k' (f c) ⟨(f c).regs, own⟩ := by
  have hfits := F.fits
  have hholds := h.holds
  rw [← h.ss] at hholds
  have hwords : (own ++ F.rest).length = own.length + F.rest.length := List.length_append
  have hclear : Clear F.keep need c := h.clear (by simp only [List.length_cons]; omega)
  have hreturned := hreturns _ _ _ hholds (by omega) hclear
  exact ⟨.external hf, hreturned.ip, hreturned.cs, Returned.sees [_, _, _] own hreturned h rfl⟩

-- A far call through a pointer on the stack, of an interrupt handler, once the flags have been
-- pushed.
theorem At.callInterrupt {disp off seg flags : UInt16} {n : Nat} {own : List UInt16}
    (h : At env F k s view) (hcode : env.code k = some (.callFarBp disp))
    (hown : view.own = flags :: own) (hoff : view.own[n]? = some off)
    (hseg : view.own[n + 1]? = some seg) (hbp : view.regs.bp + disp = above view.regs.sp (2 * n))
    (hf : env.external seg off = some f) (hreturns : ReturnsInterrupt F.keep need f F.rest)
    (hroom : own.length + 3 + need ≤ F.size) :
    ∃ c, env.Reaches s [c] (f c) ∧
      c.regs = { view.regs with sp := view.regs.sp - 2 - 2, cs := seg } ∧ c.ip = off ∧
      Sees F c ⟨c.regs, above env.base (k + 3) :: env.cs :: flags :: own⟩ ∧
      At env F (k + 3) (f c) ⟨(f c).regs, own⟩ := by
  have hlength : view.own.length = own.length + 1 := by rw [hown, List.length_cons]
  have hnext : view.regs.bp + disp + 2 = above view.regs.sp (2 * (n + 1)) := by
    rw [hbp, add_two_eq_above, above_above]
    rfl
  have hreadOff := h.sees.read hoff hbp
  have hreadSeg := h.sees.read hseg hnext
  rw [h.sees.regs] at hreadOff hreadSeg
  have hcs := (h.sees.with_ip (s.ip + UInt16.ofNat 3)).push view.regs.cs (by omega)
  have hip := hcs.push (above env.base (k + 3)) (by rw [View.push, List.length_cons]; omega)
  have hgone := hip.with_regs { view.regs with sp := view.regs.sp - 2 - 2, cs := seg } rfl rfl
  have hregs : (s.exec (.callFarBp disp)).regs =
      { view.regs with sp := view.regs.sp - 2 - 2, cs := seg } := by
    simp only [Cpu.exec, Cpu.perform, Cpu.callFar, Cpu.goFar, Cpu.push, h.sees.regs, hreadSeg]
  have hmem : (s.exec (.callFarBp disp)).mem = (Cpu.push (above env.base (k + 3))
      (Cpu.push view.regs.cs { s with ip := s.ip + UInt16.ofNat 3 })).mem := by
    rw [Cpu.exec, Cpu.perform, ← h.next 3, h.sees.regs]
    rfl
  have htarget : (s.exec (.callFarBp disp)).ip = off := by
    simp only [Cpu.exec, Cpu.perform, Cpu.callFar, Cpu.goFar, h.sees.regs, hreadOff]
  have hentered : Sees F (s.exec (.callFarBp disp))
      ⟨(s.exec (.callFarBp disp)).regs, above env.base (k + 3) :: env.cs :: flags :: own⟩ := by
    rw [hregs, ← hown, ← h.cs]
    exact hgone.of_eq hregs hmem
  have hcall : env.external (s.exec (.callFarBp disp)).regs.cs (s.exec (.callFarBp disp)).ip = some f := by
    rw [hregs, htarget]
    exact hf
  obtain ⟨hcalled, hback⟩ := hentered.interrupt hcall (hreturns _ _) hroom
  exact ⟨_, (Env.Reaches.instr hcode h.cs' h.ip).trans hcalled, hregs, htarget, hentered, hback⟩

-- A far jump goes where its operand says, which has been there from the start.
theorem At.jmpFar (h : At env F k s view) (hcode : env.code k = some .jmpFar)
    (hkeep : ∀ n < 4, F.keep (physical env.cs (above env.base (k + 1 + n)))) :
    env.Reaches s [] (s.exec .jmpFar) ∧
      (s.exec .jmpFar).ip = readWord F.start env.cs (above env.base (k + 1)) ∧
      (s.exec .jmpFar).regs =
        { view.regs with cs := readWord F.start env.cs (above env.base (k + 3)) } ∧
      (s.exec .jmpFar).mem = s.mem := by
  have hread : ∀ n < 3, readWord s.mem env.cs (above env.base (k + 1 + n)) =
      readWord F.start env.cs (above env.base (k + 1 + n)) := by
    intro n hn
    apply readWord_congr
    · exact h.sees.kept _ (hkeep n (by omega))
    · rw [add_one_eq_above, above_above]
      exact h.sees.kept _ (hkeep (n + 1) (by omega))
  have hoff : s.ip + UInt16.ofNat 5 - 4 = above env.base (k + 1) := by
    have hback : above env.base (k + 1) + 4 = above env.base (k + 5) := above_above _ _ _
    rw [h.next 5, ← hback]
    exact UInt16.add_sub_cancel _ 4
  have hseg : s.ip + UInt16.ofNat 5 - 2 = above env.base (k + 3) := by
    have hback : above env.base (k + 3) + 2 = above env.base (k + 5) := above_above _ _ _
    rw [h.next 5, ← hback]
    exact UInt16.add_sub_cancel _ 2
  have hexec : s.exec .jmpFar = Cpu.goFar (readWord s.mem env.cs (s.ip + UInt16.ofNat 5 - 4))
      (readWord s.mem env.cs (s.ip + UInt16.ofNat 5 - 2)) { s with ip := s.ip + UInt16.ofNat 5 } := by
    rw [Cpu.exec, Cpu.perform, h.cs']
    rfl
  have hread1 := hread 0 (by omega)
  have hread3 := hread 2 (by omega)
  rw [hoff, hseg] at hexec
  refine ⟨.instr hcode h.cs' h.ip, ?_, ?_, ?_⟩
  · rw [hexec]
    exact hread1
  · rw [hexec, ← h.sees.regs, ← hread3]
    rfl
  · rw [hexec]
    rfl

-- The routine that it goes to returns as from a call that was made before.
theorem At.jmpFarInterrupt {regs : Registers} {k' : Nat} {flags : UInt16} {own : List UInt16}
    (h : At env F k s ⟨regs, above env.base k' :: env.cs :: flags :: own⟩)
    (hcode : env.code k = some .jmpFar)
    (hkeep : ∀ n < 4, F.keep (physical env.cs (above env.base (k + 1 + n))))
    (hf : env.external (readWord F.start env.cs (above env.base (k + 3)))
      (readWord F.start env.cs (above env.base (k + 1))) = some f)
    (hreturns : ReturnsInterrupt F.keep need f F.rest) (hroom : own.length + 3 + need ≤ F.size) :
    ∃ c, env.Reaches s [c] (f c) ∧
      c.regs = { regs with cs := readWord F.start env.cs (above env.base (k + 3)) } ∧
      c.ip = readWord F.start env.cs (above env.base (k + 1)) ∧
      At env F k' (f c) ⟨(f c).regs, own⟩ := by
  obtain ⟨hreaches, hip, hregs, hmem⟩ := h.jmpFar hcode hkeep
  have hgone := h.sees.with_regs { regs with cs := readWord F.start env.cs (above env.base (k + 3)) }
    rfl rfl
  have hentered : Sees F (s.exec .jmpFar)
      ⟨(s.exec .jmpFar).regs, above env.base k' :: env.cs :: flags :: own⟩ := by
    rw [hregs]
    exact hgone.of_eq hregs hmem
  have hcall : env.external (s.exec .jmpFar).regs.cs (s.exec .jmpFar).ip = some f := by
    rw [hregs, hip]
    exact hf
  obtain ⟨hcalled, hback⟩ := hentered.interrupt hcall (hreturns _ _) hroom
  exact ⟨_, hreaches.trans hcalled, hregs, hip, hback⟩

-- The same of a word.
theorem At.movMem {dst : Reg} {disp : UInt16} (h : At env F k s view)
    (hcode : env.code k = some (.movMem dst disp)) (hdst : ¬(dst = .sp ∨ dst = .ss ∨ dst = .cs))
    (hkeep : ∀ n < 2, F.keep (physical view.regs.ds (above disp n))) :
    ∃ t, env.Reaches s [] t ∧
      At env F (k + 4) t
        { view with regs := view.regs.set (readWord F.start view.regs.ds disp) dst } := by
  have hload : readWord s.mem view.regs.ds disp = readWord F.start view.regs.ds disp := by
    apply readWord_congr
    · have hlow := hkeep 0 (by omega)
      rw [above_zero] at hlow
      exact h.sees.kept _ hlow
    · exact h.sees.kept _ (hkeep 1 (by omega))
  have hexec : s.exec (.movMem dst disp) = { s with
      ip := s.ip + UInt16.ofNat 4
      regs := view.regs.set (readWord F.start view.regs.ds disp) dst } := by
    rw [Cpu.exec, Cpu.perform, Cpu.load, h.sees.regs, ← hload]
    rfl
  refine ⟨_, h.instr hcode ?_ (Registers.set_cs hdst _ _) ?_⟩
  · rw [hexec]
    exact h.next 4
  · rw [hexec]
    exact (h.sees.with_ip _).with_regs _ (Registers.set_ss hdst _ _) (Registers.set_sp hdst _ _)

-- The frame after a word has been stored outside of the stack.
def StackFrame.store (F : StackFrame) (seg off v : UInt16) : StackFrame :=
  { F with start := writeWord F.start seg off v }

theorem writeWord_congr {mem mem' : Memory} {seg off v : UInt16} {a : Nat} (h : mem a = mem' a) :
    writeWord mem seg off v a = writeWord mem' seg off v a := by
  unfold writeWord
  by_cases hhigh : a = physical seg (off + 1)
  · rw [hhigh, Function.update_self, Function.update_self]
  · by_cases hlow : a = physical seg off
    · rw [Function.update_of_ne hhigh, Function.update_of_ne hhigh, hlow, Function.update_self,
        Function.update_self]
    · rw [Function.update_of_ne hhigh, Function.update_of_ne hhigh, Function.update_of_ne hlow,
        Function.update_of_ne hlow, h]

-- A word is stored where neither the stack nor what the caller has on it is.
theorem Sees.store (h : Sees F s view) {seg off : UInt16} (v : UInt16)
    (hapart : ∀ n < 2 * (F.size + F.rest.length),
      physical F.ss (above F.bottom n) ≠ physical seg off ∧
      physical F.ss (above F.bottom n) ≠ physical seg (off + 1)) :
    Sees (F.store seg off v) { s with mem := writeWord s.mem seg off v } view := by
  have hle := h.own_le
  refine ⟨h.regs, h.ss, h.sp, hle, h.holds.congr ?_, ?_⟩
  · intro n hn
    have hn' : n < 2 * (view.own.length + F.rest.length) := by
      rw [List.length_append] at hn
      exact hn
    rw [h.sp, StackFrame.sp, above_above]
    obtain ⟨hlow, hhigh⟩ := hapart (2 * (F.size - view.own.length) + n) (by omega)
    exact writeWord_of_ne _ _ hlow hhigh
  · intro a ha
    exact writeWord_congr (h.kept a ha)

-- Kept words are not where the stack is, if nothing is said of the words of the caller.
theorem apart_of_keep {seg off : UInt16} (hrest : F.rest = [])
    (hkeep : ∀ a, WordAt seg off a → F.keep a) : ∀ n < 2 * (F.size + F.rest.length),
      physical F.ss (above F.bottom n) ≠ physical seg off ∧
      physical F.ss (above F.bottom n) ≠ physical seg (off + 1) := by
  intro n hn
  rw [hrest, List.length_nil, Nat.add_zero] at hn
  refine ⟨fun heq => F.apart _ (hkeep _ ⟨0, by omega, ?_⟩) n hn rfl,
    fun heq => F.apart _ (hkeep _ ⟨1, by omega, ?_⟩) n hn rfl⟩
  · rw [above_zero]
    exact heq
  · exact heq

theorem At.storeBx {disp : UInt16} {src : Reg} (h : At env F k s view)
    (hcode : env.code k = some (.storeBx disp src))
    (hapart : ∀ n < 2 * (F.size + F.rest.length),
      physical F.ss (above F.bottom n) ≠ physical view.regs.ds (view.regs.bx + disp) ∧
      physical F.ss (above F.bottom n) ≠ physical view.regs.ds (view.regs.bx + disp + 1)) :
    ∃ t, env.Reaches s [] t ∧
      At env (F.store view.regs.ds (view.regs.bx + disp) (view.regs.get src)) (k + 3) t view := by
  have hexec : s.exec (.storeBx disp src) = { s with
      ip := s.ip + UInt16.ofNat 3
      mem := writeWord s.mem view.regs.ds (view.regs.bx + disp) (view.regs.get src) } := by
    rw [Cpu.exec, Cpu.perform, h.sees.regs]
    rfl
  refine ⟨_, .instr hcode h.cs' h.ip, ?_, h.cs, ?_⟩
  · rw [hexec]
    exact h.next 3
  · rw [hexec]
    exact (h.sees.store _ hapart).with_ip _

-- The same with BP, in the stack segment.
theorem At.storeBpWord {disp : UInt16} {src : Reg} (h : At env F k s view)
    (hcode : env.code k = some (.storeBpWord disp src))
    (hapart : ∀ n < 2 * (F.size + F.rest.length),
      physical F.ss (above F.bottom n) ≠ physical view.regs.ss (view.regs.bp + disp) ∧
      physical F.ss (above F.bottom n) ≠ physical view.regs.ss (view.regs.bp + disp + 1)) :
    ∃ t, env.Reaches s [] t ∧
      At env (F.store view.regs.ss (view.regs.bp + disp) (view.regs.get src)) (k + 3) t view := by
  have hexec : s.exec (.storeBpWord disp src) = { s with
      ip := s.ip + UInt16.ofNat 3
      mem := writeWord s.mem view.regs.ss (view.regs.bp + disp) (view.regs.get src) } := by
    rw [Cpu.exec, Cpu.perform, h.sees.regs]
    rfl
  refine ⟨_, .instr hcode h.cs' h.ip, ?_, h.cs, ?_⟩
  · rw [hexec]
    exact h.next 3
  · rw [hexec]
    exact (h.sees.store _ hapart).with_ip _

-- DI goes up or down.
theorem At.stosw (h : At env F k s view) (hcode : env.code k = some .stosw)
    (hapart : ∀ n < 2 * (F.size + F.rest.length),
      physical F.ss (above F.bottom n) ≠ physical view.regs.es view.regs.di ∧
      physical F.ss (above F.bottom n) ≠ physical view.regs.es (view.regs.di + 1)) :
    ∃ t di, env.Reaches s [] t ∧
      At env (F.store view.regs.es view.regs.di view.regs.ax) (k + 1) t
        { view with regs := { view.regs with di } } := by
  have hexec : s.exec .stosw = { s with
      ip := s.ip + UInt16.ofNat 1
      regs := { view.regs with
        di := if DF view.regs.flags then view.regs.di - 2 else view.regs.di + 2 }
      mem := writeWord s.mem view.regs.es view.regs.di view.regs.ax } := by
    rw [Cpu.exec, Cpu.perform, h.sees.regs]
    rfl
  have hstored := ((h.sees.store view.regs.ax hapart).with_ip (s.ip + UInt16.ofNat 1)).with_regs
    { view.regs with di := if DF view.regs.flags then view.regs.di - 2 else view.regs.di + 2 } rfl rfl
  refine ⟨_, if DF view.regs.flags then view.regs.di - 2 else view.regs.di + 2,
    .instr hcode h.cs' h.ip, ?_, h.cs, ?_⟩
  · rw [hexec]
    exact h.next 1
  · rw [hexec]
    exact hstored

-- What is loaded has been there from the start. SI goes up or down.
theorem At.lodsw (h : At env F k s view) (hcode : env.code k = some .lodsw)
    (hkeep : ∀ n < 2, F.keep (physical view.regs.ds (above view.regs.si n))) :
    ∃ t si, env.Reaches s [] t ∧
      At env F (k + 1) t
        { view with regs := { view.regs with ax := readWord F.start view.regs.ds view.regs.si, si } } := by
  have hload : readWord s.mem view.regs.ds view.regs.si = readWord F.start view.regs.ds view.regs.si := by
    apply readWord_congr
    · have hlow := hkeep 0 (by omega)
      rw [above_zero] at hlow
      exact h.sees.kept _ hlow
    · exact h.sees.kept _ (hkeep 1 (by omega))
  have hexec : s.exec .lodsw = { s with
      ip := s.ip + UInt16.ofNat 1
      regs := { view.regs with
        ax := readWord F.start view.regs.ds view.regs.si
        si := if DF view.regs.flags then view.regs.si - 2 else view.regs.si + 2 } } := by
    rw [Cpu.exec, Cpu.perform, Cpu.load, h.sees.regs, ← hload]
    rfl
  refine ⟨_, if DF view.regs.flags then view.regs.si - 2 else view.regs.si + 2,
    h.instr hcode ?_ rfl ?_⟩
  · rw [hexec]
    exact h.next 1
  · rw [hexec]
    exact (h.sees.with_ip _).with_regs _ rfl rfl

-- A far call through a pointer in the data segment, of an interrupt handler.
theorem At.callMemInterrupt {disp flags : UInt16} {own : List UInt16} (h : At env F k s view)
    (hcode : env.code k = some (.callFarMem disp)) (hown : view.own = flags :: own)
    (hkeep : ∀ n < 4, F.keep (physical view.regs.ds (above disp n)))
    (hf : env.external (readWord F.start view.regs.ds (disp + 2)) (readWord F.start view.regs.ds disp) =
      some f)
    (hreturns : ReturnsInterrupt F.keep need f F.rest) (hroom : own.length + 3 + need ≤ F.size) :
    ∃ c, env.Reaches s [c] (f c) ∧
      c.regs = { view.regs with
        sp := view.regs.sp - 2 - 2, cs := readWord F.start view.regs.ds (disp + 2) } ∧
      c.ip = readWord F.start view.regs.ds disp ∧ (∀ a, F.keep a → c.mem a = F.start a) ∧
      At env F (k + 4) (f c) ⟨(f c).regs, own⟩ := by
  have hlength : view.own.length = own.length + 1 := by rw [hown, List.length_cons]
  have hload : ∀ n < 3, readWord s.mem view.regs.ds (above disp n) =
      readWord F.start view.regs.ds (above disp n) := by
    intro n hn
    apply readWord_congr
    · exact h.sees.kept _ (hkeep n (by omega))
    · rw [add_one_eq_above, above_above]
      exact h.sees.kept _ (hkeep (n + 1) (by omega))
  have hreadOff := hload 0 (by omega)
  have hreadSeg := hload 2 (by omega)
  rw [above_zero] at hreadOff
  rw [← add_two_eq_above] at hreadSeg
  have hcs := (h.sees.with_ip (s.ip + UInt16.ofNat 4)).push view.regs.cs (by omega)
  have hip := hcs.push (above env.base (k + 4)) (by rw [View.push, List.length_cons]; omega)
  have hgone := hip.with_regs { view.regs with
    sp := view.regs.sp - 2 - 2, cs := readWord F.start view.regs.ds (disp + 2) } rfl rfl
  have hregs : (s.exec (.callFarMem disp)).regs = { view.regs with
      sp := view.regs.sp - 2 - 2, cs := readWord F.start view.regs.ds (disp + 2) } := by
    simp only [Cpu.exec, Cpu.perform, Cpu.callFar, Cpu.goFar, Cpu.push, Cpu.load, h.sees.regs, hreadSeg]
  have hmem : (s.exec (.callFarMem disp)).mem = (Cpu.push (above env.base (k + 4))
      (Cpu.push view.regs.cs { s with ip := s.ip + UInt16.ofNat 4 })).mem := by
    rw [Cpu.exec, Cpu.perform, ← h.next 4, h.sees.regs]
    rfl
  have htarget : (s.exec (.callFarMem disp)).ip = readWord F.start view.regs.ds disp := by
    simp only [Cpu.exec, Cpu.perform, Cpu.callFar, Cpu.goFar, Cpu.load, h.sees.regs, hreadOff]
  have hentered : Sees F (s.exec (.callFarMem disp))
      ⟨(s.exec (.callFarMem disp)).regs, above env.base (k + 4) :: env.cs :: flags :: own⟩ := by
    rw [hregs, ← hown, ← h.cs]
    exact hgone.of_eq hregs hmem
  have hcall : env.external (s.exec (.callFarMem disp)).regs.cs (s.exec (.callFarMem disp)).ip =
      some f := by
    rw [hregs, htarget]
    exact hf
  obtain ⟨hcalled, hback⟩ := hentered.interrupt hcall (hreturns _ _) hroom
  exact ⟨_, (Env.Reaches.instr hcode h.cs' h.ip).trans hcalled, hregs, htarget, hentered.kept, hback⟩

-- How to get the offset of a place in the code: a call of two instructions that pop and go to
-- their own return address. What is called ends with RET there.
theorem At.getabove {q : Nat} (h : At env F k s view)
    (hcode : env.code k = some (.call (above env.base q)))
    (hq : env.code q = some (.call (above env.base 0))) (hret : env.code (q + 3) = some .ret)
    (hpop : env.code 0 = some (.pop .ax)) (hjmp : env.code 1 = some (.jmpReg .ax))
    (hroom : view.own.length + 2 ≤ F.size) :
    ∃ t, env.Reaches s [] t ∧
      At env F (k + 3) t { view with regs := { view.regs with ax := above env.base (q + 3) } } := by
  have hlength : (view.push (above env.base (k + 3))).own.length = view.own.length + 1 := rfl
  obtain ⟨t1, hr1, h1⟩ := h.callLocal hcode (by omega)
  obtain ⟨t2, hr2, h2⟩ := h1.callLocal hq (by rw [hlength]; omega)
  have hcodePop : env.Code 0 [.pop .ax] := ⟨hpop, trivial⟩
  have hblock : View.block ((view.push (above env.base (k + 3))).push (above env.base (q + 3)))
      [.pop .ax] = some ⟨{ view.regs with ax := above env.base (q + 3), sp := view.regs.sp - 2 - 2 + 2 },
        above env.base (k + 3) :: view.own⟩ := by
    simp only [View.block, List.foldlM_cons, List.foldlM_nil, View.perform, View.push, View.pop,
      Registers.set, Option.bind_eq_bind, Option.bind_some, reduceCtorEq, or_self, if_false]
    rfl
  obtain ⟨t3, hr3, h3⟩ := h2.block hcodePop hblock
    (by simp only [View.push, List.length_cons, pushes, Instr.pushes, List.map_cons, List.map_nil,
      List.sum_cons, List.sum_nil]; omega)
  obtain ⟨t4, hr4, h4⟩ := h3.jmpReg hjmp rfl
  obtain ⟨t5, hr5, h5⟩ := At.ret h4 hret
  refine ⟨t5, hr1.trans (hr2.trans (hr3.trans (hr4.trans hr5))), ?_⟩
  have hsp : view.regs.sp - 2 - 2 + 2 + 2 = view.regs.sp := by
    rw [UInt16.sub_add_cancel, UInt16.sub_add_cancel]
  rw [hsp] at h5
  exact h5

-- The interrupt handler itself returns, to what its caller has on the stack.
theorem At.iret {ip cs flags : UInt16} {words : List UInt16} {regs : Registers}
    (h : At env F k s ⟨regs, []⟩) (hcode : env.code k = some .iret)
    (hrest : F.rest = ip :: cs :: flags :: words) :
    ∃ t, env.Reaches s [] t ∧ t.ip = ip ∧ t.mem = s.mem ∧
      t.regs = { regs with cs := cs, flags := flags, sp := above regs.sp 6 } ∧
      Holds t.mem F.ss (above regs.sp 6) words := by
  have hholds := h.sees.holds
  rw [hrest] at hholds
  obtain ⟨hip, hcs, hflags, hwords⟩ := hholds
  have hsix := add_six_eq_above regs.sp
  have hss := h.sees.ss
  dsimp only at hip hcs hflags hwords hss
  rw [hsix] at hwords
  rw [← hss] at hip hcs hflags
  have hmem : (s.exec .iret).mem = s.mem := by
    simp only [Cpu.exec, Cpu.perform, Cpu.iret, Cpu.retf, Cpu.goFar, Cpu.drop]
  rw [← hmem] at hwords
  refine ⟨s.exec .iret, .instr hcode h.cs' h.ip, ?_, hmem, ?_, hwords⟩
  · simp only [Cpu.exec, Cpu.perform, Cpu.iret, Cpu.retf, Cpu.goFar, Cpu.drop, Cpu.top, h.sees.regs, hip]
  · simp only [Cpu.exec, Cpu.perform, Cpu.iret, Cpu.retf, Cpu.goFar, Cpu.drop, Cpu.top, h.sees.regs,
      hcs, hflags, hsix]

-- A routine that has been called from another segment returns.
theorem At.retf {ip cs : UInt16} {words : List UInt16} {regs : Registers}
    (h : At env F k s ⟨regs, []⟩) (hcode : env.code k = some .retf) (hrest : F.rest = ip :: cs :: words) :
    ∃ t, env.Reaches s [] t ∧ t.ip = ip ∧ t.mem = s.mem ∧
      t.regs = { regs with cs := cs, sp := above regs.sp 4 } ∧
      Holds t.mem F.ss (above regs.sp 4) words := by
  have hholds := h.sees.holds
  rw [hrest] at hholds
  obtain ⟨hip, hcs, hwords⟩ := hholds
  have hfour : regs.sp + 2 + 2 = above regs.sp 4 := by
    rw [add_two_eq_above, add_two_eq_above, above_above]
  have hss := h.sees.ss
  dsimp only at hip hcs hwords hss
  rw [hfour] at hwords
  rw [← hss] at hip hcs
  have hmem : (s.exec .retf).mem = s.mem := by
    simp only [Cpu.exec, Cpu.perform, Cpu.retf, Cpu.goFar, Cpu.drop]
  rw [← hmem] at hwords
  refine ⟨s.exec .retf, .instr hcode h.cs' h.ip, ?_, hmem, ?_, hwords⟩
  · simp only [Cpu.exec, Cpu.perform, Cpu.retf, Cpu.goFar, Cpu.drop, Cpu.top, h.sees.regs, hip]
  · simp only [Cpu.exec, Cpu.perform, Cpu.retf, Cpu.goFar, Cpu.drop, Cpu.top, h.sees.regs, hcs, hfour]

theorem Env.code_append {instrs more : List Instr} :
    env.Code k (instrs ++ more) ↔ env.Code k instrs ∧ env.Code (k + sizes instrs) more := by
  induction instrs generalizing k with
  | nil => simp [Env.Code, sizes]
  | cons i instrs ih =>
      have hsizes : k + i.size + sizes instrs = k + sizes (i :: instrs) := by
        rw [sizes, sizes, List.map_cons, List.sum_cons, Nat.add_assoc]
      rw [List.cons_append, Env.Code, ih, Env.Code, hsizes, and_assoc]

end

-- A stretch of stack below SP for a routine that is entered in this state.
theorem exists_frame {keep : Nat → Prop} {size : Nat} {s : Cpu} {words : List UInt16}
    (hclear : Clear keep size s) (hholds : Holds s.mem s.regs.ss s.regs.sp words)
    (hfits : 2 * (size + words.length) ≤ 65536) :
    ∃ F : StackFrame, F.size = size ∧ F.rest = words ∧ F.keep = keep ∧ F.start = s.mem ∧ F.ss = s.regs.ss ∧
      Sees F s ⟨s.regs, []⟩ := by
  obtain ⟨low, hlow, hapart⟩ := hclear
  refine ⟨⟨s.regs.ss, low, size, words, keep, s.mem, hfits, hapart⟩, rfl, rfl, rfl, rfl, rfl, ?_⟩
  exact ⟨rfl, rfl, hlow.symm, Nat.zero_le _, hholds, fun _ _ => rfl⟩

-- A routine that pushes nothing leaves all of the memory alone.
theorem exists_frame_all (s : Cpu) :
    ∃ F : StackFrame, F.keep = (fun _ => True) ∧ F.start = s.mem ∧ Sees F s ⟨s.regs, []⟩ := by
  have hclear : Clear (fun _ => True) 0 s :=
    ⟨s.regs.sp, above_zero _, fun _ _ n hn => absurd hn (by omega)⟩
  have hnoWords : Holds s.mem s.regs.ss s.regs.sp [] := trivial
  obtain ⟨F, _, _, hkeep, hstart, _, hsees⟩ := exists_frame hclear hnoWords (Nat.zero_le _)
  exact ⟨F, hkeep, hstart, hsees⟩

-- What lies in a segment below the stack is not where a routine pushes.
theorem clear_of_below {keep : Nat → Prop} {need : Nat} {s : Cpu} {seg : UInt16}
    (hkeep : ∀ a, keep a → ∃ off, a = physical seg off) (hroom : 2 * need ≤ s.regs.sp.toNat)
    (hbelow : seg.toNat * 16 + 65535 < s.regs.ss.toNat * 16 + (s.regs.sp.toNat - 2 * need))
    (htop : s.regs.ss.toNat * 16 + s.regs.sp.toNat ≤ 2 ^ 20) : Clear keep need s := by
  have hsp := s.regs.sp.toNat_lt
  refine ⟨UInt16.ofNat (s.regs.sp.toNat - 2 * need), ?_, ?_⟩
  · apply UInt16.toNat_inj.mp
    rw [above_toNat, UInt16.toNat_ofNat']
    omega
  · intro a ha n hn heq
    obtain ⟨off, rfl⟩ := hkeep a ha
    have hoff := off.toNat_lt
    rw [physical, physical, above_toNat, UInt16.toNat_ofNat'] at heq
    omega

-- A routine that returns at once, and a handler that adds one to AX.
def returnNear (s : Cpu) : Cpu := { s.drop with ip := s.top }

def incrementAx (s : Cpu) : Cpu := { s with regs := { s.regs with ax := s.regs.ax + 1 } }.iret

theorem returnNear_returns (keep : Nat → Prop) (need : Nat) : ReturnsNear keep need returnNear := by
  intro s ret words hholds _ _
  exact ⟨hholds.1, rfl, rfl, rfl, hholds.2, fun _ _ => rfl⟩

-- What an IRET returns from, when SS and SP are as they were on entry.
theorem returned_iret {keep : Nat → Prop} {s u : Cpu} {ip cs flags : UInt16} {words : List UInt16}
    (hss : u.regs.ss = s.regs.ss) (hsp : u.regs.sp = s.regs.sp)
    (hholds : Holds u.mem s.regs.ss s.regs.sp (ip :: cs :: flags :: words))
    (hkept : ∀ a, keep a → u.mem a = s.mem a) : Returned keep s u.iret ip cs 3 words := by
  obtain ⟨hip, hcs, _, hwords⟩ := hholds
  have hsix := add_six_eq_above s.regs.sp
  rw [hsix] at hwords
  refine ⟨?_, ?_, ?_, ?_, ?_, hkept⟩
  · simp only [Cpu.iret, Cpu.retf, Cpu.goFar, Cpu.drop, Cpu.top, hss, hsp, hip]
  · simp only [Cpu.iret, Cpu.retf, Cpu.goFar, Cpu.drop, Cpu.top, hss, hsp, hcs]
  · simp only [Cpu.iret, Cpu.retf, Cpu.goFar, Cpu.drop, hss]
  · simp only [Cpu.iret, Cpu.retf, Cpu.goFar, Cpu.drop, hsp, hsix]
  · simp only [Cpu.iret, Cpu.retf, Cpu.goFar, Cpu.drop, hsp, hsix]
    exact hwords

theorem incrementAx_returns (keep : Nat → Prop) (need : Nat) (rest : List UInt16) :
    ReturnsInterrupt keep need incrementAx rest := by
  intro s own ip cs flags hholds _ _
  exact returned_iret rfl rfl hholds fun _ _ => rfl

-- The instructions one after the other, each with the place at which it starts.
def assemble : Nat → List Instr → List (Nat × Instr)
  | _, [] => []
  | k, i :: instrs => (k, i) :: assemble (k + i.size) instrs

theorem mem_of_lookup {listing : List (Nat × Instr)} {k : Nat} {i : Instr}
    (h : listing.lookup k = some i) : k ∈ listing.map Prod.fst := by
  induction listing with
  | nil => cases h
  | cons entry listing ih =>
      obtain ⟨place, instr⟩ := entry
      by_cases hk : k = place
      · rw [hk]
        exact List.mem_cons_self
      · rw [List.lookup_cons, beq_false_of_ne hk] at h
        exact List.mem_cons_of_mem _ (ih h)

theorem lookup_append_of_lt {front listing : List (Nat × Instr)} {k : Nat}
    (h : ∀ entry ∈ front, entry.1 < k) : (front ++ listing).lookup k = listing.lookup k := by
  induction front with
  | nil => rfl
  | cons entry front ih =>
      have hne : k ≠ entry.1 := by
        have hlt := h entry List.mem_cons_self
        omega
      rw [List.cons_append, List.lookup_cons, beq_false_of_ne hne]
      exact ih fun other hmem => h other (List.mem_cons_of_mem _ hmem)

theorem Instr.size_pos (i : Instr) : 0 < i.size := by
  cases i <;> exact Nat.succ_pos _

-- The code is what has been put there.
theorem code_of_listing_append {env : Env} {front more : List (Nat × Instr)} {k : Nat}
    {instrs : List Instr} (hfront : ∀ entry ∈ front, entry.1 < k)
    (hcode : ∀ n, env.code n = (front ++ (assemble k instrs ++ more)).lookup n) : env.Code k instrs := by
  induction instrs generalizing front k with
  | nil => trivial
  | cons i instrs ih =>
      refine ⟨?_, ih (?_ : ∀ entry ∈ front ++ [(k, i)], entry.1 < k + i.size) ?_⟩
      · rw [hcode, lookup_append_of_lt hfront, assemble, List.cons_append, List.lookup_cons,
          beq_self_eq_true]
      · intro entry hmem
        have hpos := i.size_pos
        rcases List.mem_append.mp hmem with hmem | hmem
        · have hlt := hfront entry hmem
          omega
        · rw [List.mem_singleton.mp hmem]
          dsimp only
          omega
      · intro n
        rw [hcode, List.append_assoc]
        rfl

theorem code_of_listing {env : Env} {front : List (Nat × Instr)} {k : Nat} {instrs : List Instr}
    (hfront : ∀ entry ∈ front, entry.1 < k)
    (hcode : ∀ n, env.code n = (front ++ assemble k instrs).lookup n) : env.Code k instrs := by
  have hnil : ∀ n, env.code n = (front ++ (assemble k instrs ++ [])).lookup n := by
    intro n
    rw [List.append_nil]
    exact hcode n
  exact code_of_listing_append hfront hnil

end Library.X86
