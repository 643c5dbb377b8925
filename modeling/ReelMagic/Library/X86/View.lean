import ReelMagic.Library.Runs
import ReelMagic.Library.X86.Stack

namespace Library.X86

-- A stretch of the stack that a routine may push `size` words on, over the words that its caller
-- has there. The bytes at `keep` lie elsewhere.
structure StackFrame where
  ss : UInt16
  bottom : UInt16
  size : Nat
  rest : List UInt16
  keep : Nat → Prop
  start : Memory
  fits : 2 * (size + rest.length) ≤ 65536
  apart : ∀ a, keep a → ∀ n < 2 * size, a ≠ physical ss (above bottom n)

-- SP, with this many words pushed.
def StackFrame.sp (F : StackFrame) (pushed : Nat) : UInt16 := above F.bottom (2 * (F.size - pushed))

-- A state by its registers and the words that have been pushed.
structure View where
  regs : Registers
  own : List UInt16

-- What a machine state has to do with its view.
structure Sees (F : StackFrame) (s : Cpu) (view : View) : Prop where
  regs : s.regs = view.regs
  ss : view.regs.ss = F.ss
  sp : view.regs.sp = F.sp view.own.length
  own_le : view.own.length ≤ F.size
  holds : Holds s.mem F.ss view.regs.sp (view.own ++ F.rest)
  kept : ∀ a, F.keep a → s.mem a = F.start a

namespace View

def push (v : UInt16) (view : View) : View :=
  ⟨{ view.regs with sp := view.regs.sp - 2 }, v :: view.own⟩

-- Nothing is popped but what has been pushed, and not into SP, SS or CS.
def pop (r : Reg) (view : View) : Option View :=
  match view.own with
  | [] => none
  | v :: own =>
      if r = .sp ∨ r = .ss ∨ r = .cs then none
      else some ⟨{ view.regs with sp := view.regs.sp + 2 }.set v r, own⟩

def drop (view : View) : Option View :=
  match view.own with
  | [] => none
  | _ :: own => some ⟨{ view.regs with sp := view.regs.sp + 2 }, own⟩

def pusha (view : View) : View :=
  (((((((view.push view.regs.ax).push view.regs.cx).push view.regs.dx).push view.regs.bx).push
    view.regs.sp).push view.regs.bp).push view.regs.si).push view.regs.di

def popa (view : View) : Option View :=
  (view.pop .di).bind fun view => (view.pop .si).bind fun view => (view.pop .bp).bind fun view =>
    view.drop.bind fun view => (view.pop .bx).bind fun view => (view.pop .dx).bind fun view =>
      (view.pop .cx).bind fun view => view.pop .ax

-- The instructions that touch no memory but the stack.
def perform (view : View) : Instr → Option View
  | .push r => some (view.push (view.regs.get r))
  | .pop r => view.pop r
  | .pusha => some view.pusha
  | .popa => view.popa
  | .pushf => some (view.push view.regs.flags)
  | .pushEax => some ((view.push view.regs.axHigh).push view.regs.ax)
  | .popEax =>
      (view.pop .ax).bind fun view =>
        match view.own with
        | [] => none
        | v :: own => some ⟨{ view.regs with sp := view.regs.sp + 2, axHigh := v }, own⟩
  | .mov dst src =>
      if dst = .sp ∨ dst = .ss ∨ dst = .cs then none
      else some { view with regs := view.regs.set (view.regs.get src) dst }
  | .movImm dst v =>
      if dst = .sp ∨ dst = .ss ∨ dst = .cs then none
      else some { view with regs := view.regs.set v dst }
  | .addImm dst v =>
      if dst = .sp ∨ dst = .ss ∨ dst = .cs then none
      else
        some { view with
          regs := { view.regs.set (view.regs.get dst + v) dst with
            flags := addFlags view.regs.flags (view.regs.get dst) v } }
  | .shldEdxEax =>
      some { view with regs := { view.regs with dx := view.regs.axHigh, dxHigh := view.regs.dx } }
  | .cmpAh v =>
      some { view with
        regs := { view.regs with flags := cmpFlags view.regs.flags (view.regs.ax.toNat / 256) v.toNat } }
  | .movAh v => some { view with regs := { view.regs with ax := setHigh view.regs.ax v } }
  | .movAl v => some { view with regs := { view.regs with ax := setLow view.regs.ax v } }
  | _ => none

def block (view : View) (instrs : List Instr) : Option View := instrs.foldlM perform view

end View

-- What PUSHA leaves on the stack. SP is the one it has found.
def pushaWords (regs : Registers) : List UInt16 :=
  [regs.di, regs.si, regs.bp, regs.sp, regs.bx, regs.dx, regs.cx, regs.ax]

theorem View.pusha_eq (regs : Registers) (own : List UInt16) :
    ∃ sp, View.pusha ⟨regs, own⟩ = ⟨{ regs with sp }, pushaWords regs ++ own⟩ := by
  simp only [View.pusha, View.push, pushaWords, List.cons_append, List.nil_append]
  exact ⟨_, rfl⟩

theorem View.popa_eq (regs saved : Registers) (own : List UInt16) :
    ∃ sp, View.popa ⟨regs, pushaWords saved ++ own⟩ =
      some ⟨{ saved with
        sp, axHigh := regs.axHigh, dxHigh := regs.dxHigh, cs := regs.cs, ds := regs.ds, es := regs.es,
        ss := regs.ss, flags := regs.flags }, own⟩ := by
  simp only [View.popa, View.pop, View.drop, pushaWords, Registers.set, List.cons_append,
    List.nil_append, reduceCtorEq, or_self, if_false, Option.bind_some]
  exact ⟨_, rfl⟩

-- How many words an instruction pushes at most.
def Instr.pushes : Instr → Nat
  | .push _ => 1
  | .pusha => 8
  | .pushf => 1
  | .pushEax => 2
  | _ => 0

section

variable {F : StackFrame} {s : Cpu} {view next : View}

theorem StackFrame.sp_sub_two (F : StackFrame) {pushed : Nat} (h : pushed + 1 ≤ F.size) :
    F.sp pushed - 2 = F.sp (pushed + 1) := by
  have hup : F.sp pushed = F.sp (pushed + 1) + 2 := by
    rw [StackFrame.sp, StackFrame.sp, add_two_eq_above, above_above]
    congr 1
    omega
  rw [hup]
  exact UInt16.add_sub_cancel _ 2

theorem StackFrame.sp_add_two (F : StackFrame) {pushed : Nat} (h : pushed + 1 ≤ F.size) :
    F.sp (pushed + 1) + 2 = F.sp pushed := by
  rw [← F.sp_sub_two h]
  exact UInt16.sub_add_cancel _ 2

theorem Sees.with_ip (h : Sees F s view) (ip : UInt16) : Sees F { s with ip } view :=
  ⟨h.regs, h.ss, h.sp, h.own_le, h.holds, h.kept⟩

theorem Sees.with_regs (h : Sees F s view) (regs : Registers) (hss : regs.ss = view.regs.ss)
    (hsp : regs.sp = view.regs.sp) : Sees F { s with regs } { view with regs } := by
  refine ⟨rfl, hss.trans h.ss, hsp.trans h.sp, h.own_le, ?_, h.kept⟩
  dsimp only
  rw [hsp]
  exact h.holds

theorem Sees.push (h : Sees F s view) (v : UInt16) (hroom : view.own.length + 1 ≤ F.size) :
    Sees F (s.push v) (view.push v) := by
  have hfits := F.fits
  have hsp : view.regs.sp - 2 = F.sp (view.own.length + 1) := by rw [h.sp, F.sp_sub_two hroom]
  refine ⟨?_, h.ss, hsp, hroom, ?_, ?_⟩
  · rw [Cpu.push, View.push, h.regs]
  · simp only [Cpu.push, View.push, h.regs, h.ss, List.cons_append]
    apply holds_push h.holds
    rw [List.length_append]
    omega
  · intro a ha
    rw [← h.kept a ha]
    simp only [Cpu.push, h.regs, h.ss, hsp]
    apply writeWord_of_ne
    · exact F.apart a ha _ (by omega)
    · rw [add_one_eq_above, StackFrame.sp, above_above]
      exact F.apart a ha _ (by omega)

theorem Sees.top (h : Sees F s view) {v : UInt16} {own : List UInt16} (hown : view.own = v :: own) :
    s.top = v := by
  have hholds := h.holds
  rw [hown] at hholds
  rw [Cpu.top, h.regs, h.ss]
  exact hholds.1

theorem Sees.drop (h : Sees F s view) (hdrop : view.drop = some next) : Sees F s.drop next := by
  obtain ⟨regs, own⟩ := view
  unfold View.drop at hdrop
  dsimp only at hdrop
  cases own with
  | nil => cases hdrop
  | cons v own =>
      obtain rfl := Option.some.inj hdrop
      have hle := h.own_le
      rw [List.length_cons] at hle
      have hsp : regs.sp + 2 = F.sp own.length := by
        rw [h.sp]
        exact F.sp_add_two hle
      refine ⟨?_, h.ss, hsp, Nat.le_of_succ_le hle, h.holds.2, h.kept⟩
      rw [Cpu.drop, h.regs]

theorem Registers.set_sp {r : Reg} (h : ¬(r = .sp ∨ r = .ss ∨ r = .cs)) (regs : Registers) (v : UInt16) :
    (regs.set v r).sp = regs.sp := by
  cases r with
  | sp => exact absurd (Or.inl rfl) h
  | _ => rfl

theorem Registers.set_ss {r : Reg} (h : ¬(r = .sp ∨ r = .ss ∨ r = .cs)) (regs : Registers) (v : UInt16) :
    (regs.set v r).ss = regs.ss := by
  cases r with
  | ss => exact absurd (Or.inr (Or.inl rfl)) h
  | _ => rfl

theorem Registers.set_cs {r : Reg} (h : ¬(r = .sp ∨ r = .ss ∨ r = .cs)) (regs : Registers) (v : UInt16) :
    (regs.set v r).cs = regs.cs := by
  cases r with
  | cs => exact absurd (Or.inr (Or.inr rfl)) h
  | _ => rfl

theorem Sees.pop {r : Reg} (h : Sees F s view) (hpop : view.pop r = some next) :
    Sees F (s.pop r) next := by
  obtain ⟨regs, own⟩ := view
  unfold View.pop at hpop
  dsimp only at hpop
  cases own with
  | nil => cases hpop
  | cons v own =>
      dsimp only at hpop
      split at hpop
      · cases hpop
      · rename_i hr
        obtain rfl := Option.some.inj hpop
        have hdrop : Sees F s.drop ⟨{ regs with sp := regs.sp + 2 }, own⟩ := h.drop rfl
        have hset := hdrop.with_regs _ (Registers.set_ss hr _ v) (Registers.set_sp hr _ v)
        rw [Cpu.pop, h.top rfl, hdrop.regs]
        exact hset

theorem pop_cs {r : Reg} (hpop : view.pop r = some next) : next.regs.cs = view.regs.cs := by
  unfold View.pop at hpop
  split at hpop
  · cases hpop
  · split at hpop
    · cases hpop
    · rename_i hr
      obtain rfl := Option.some.inj hpop
      exact Registers.set_cs hr _ _

theorem Sees.pusha (h : Sees F s view) (hroom : view.own.length + 8 ≤ F.size) :
    Sees F s.pusha view.pusha := by
  have hax := h.push view.regs.ax (by omega)
  have hcx := hax.push view.regs.cx (by simp only [View.push, List.length_cons]; omega)
  have hdx := hcx.push view.regs.dx (by simp only [View.push, List.length_cons]; omega)
  have hbx := hdx.push view.regs.bx (by simp only [View.push, List.length_cons]; omega)
  have hsp := hbx.push view.regs.sp (by simp only [View.push, List.length_cons]; omega)
  have hbp := hsp.push view.regs.bp (by simp only [View.push, List.length_cons]; omega)
  have hsi := hbp.push view.regs.si (by simp only [View.push, List.length_cons]; omega)
  have hdi := hsi.push view.regs.di (by simp only [View.push, List.length_cons]; omega)
  rw [Cpu.pusha, h.regs]
  exact hdi

theorem Sees.popa (h : Sees F s view) (hpopa : view.popa = some next) :
    Sees F s.popa next ∧ next.regs.cs = view.regs.cs := by
  unfold View.popa at hpopa
  obtain ⟨v1, h1, hpopa⟩ := Option.bind_eq_some_iff.mp hpopa
  obtain ⟨v2, h2, hpopa⟩ := Option.bind_eq_some_iff.mp hpopa
  obtain ⟨v3, h3, hpopa⟩ := Option.bind_eq_some_iff.mp hpopa
  obtain ⟨v4, h4, hpopa⟩ := Option.bind_eq_some_iff.mp hpopa
  obtain ⟨v5, h5, hpopa⟩ := Option.bind_eq_some_iff.mp hpopa
  obtain ⟨v6, h6, hpopa⟩ := Option.bind_eq_some_iff.mp hpopa
  obtain ⟨v7, h7, h8⟩ := Option.bind_eq_some_iff.mp hpopa
  refine ⟨(((((((h.pop h1).pop h2).pop h3).drop h4).pop h5).pop h6).pop h7).pop h8, ?_⟩
  have hdrop : v4.regs.cs = v3.regs.cs := by
    unfold View.drop at h4
    split at h4
    · cases h4
    · rw [← Option.some.inj h4]
  rw [pop_cs h8, pop_cs h7, pop_cs h6, pop_cs h5, hdrop, pop_cs h3, pop_cs h2, pop_cs h1]

theorem Sees.popEax {regs : Registers} {low high : UInt16} {own : List UInt16}
    (h : Sees F s ⟨regs, low :: high :: own⟩) :
    Sees F s.popEax ⟨{ regs with ax := low, axHigh := high, sp := regs.sp + 2 + 2 }, own⟩ := by
  have hax : Sees F (s.pop .ax) ⟨{ regs with ax := low, sp := regs.sp + 2 }, high :: own⟩ := h.pop rfl
  have hdrop : Sees F (s.pop .ax).drop ⟨{ regs with ax := low, sp := regs.sp + 2 + 2 }, own⟩ :=
    hax.drop rfl
  have hset := hdrop.with_regs { regs with ax := low, axHigh := high, sp := regs.sp + 2 + 2 } rfl rfl
  rw [Cpu.popEax, hax.top rfl, hdrop.regs]
  exact hset

theorem pop_length {r : Reg} (hpop : view.pop r = some next) : next.own.length ≤ view.own.length := by
  unfold View.pop at hpop
  split at hpop
  · cases hpop
  · rename_i v own hown
    split at hpop
    · cases hpop
    · rw [← Option.some.inj hpop, hown]
      exact Nat.le_succ _

theorem drop_length (hdrop : view.drop = some next) : next.own.length ≤ view.own.length := by
  unfold View.drop at hdrop
  split at hdrop
  · cases hdrop
  · rename_i v own hown
    rw [← Option.some.inj hdrop, hown]
    exact Nat.le_succ _

theorem popa_length (hpopa : view.popa = some next) : next.own.length ≤ view.own.length := by
  unfold View.popa at hpopa
  obtain ⟨v1, h1, hpopa⟩ := Option.bind_eq_some_iff.mp hpopa
  obtain ⟨v2, h2, hpopa⟩ := Option.bind_eq_some_iff.mp hpopa
  obtain ⟨v3, h3, hpopa⟩ := Option.bind_eq_some_iff.mp hpopa
  obtain ⟨v4, h4, hpopa⟩ := Option.bind_eq_some_iff.mp hpopa
  obtain ⟨v5, h5, hpopa⟩ := Option.bind_eq_some_iff.mp hpopa
  obtain ⟨v6, h6, hpopa⟩ := Option.bind_eq_some_iff.mp hpopa
  obtain ⟨v7, h7, h8⟩ := Option.bind_eq_some_iff.mp hpopa
  exact ((((((((pop_length h8).trans (pop_length h7)).trans (pop_length h6)).trans
    (pop_length h5)).trans (drop_length h4)).trans (pop_length h3)).trans (pop_length h2)).trans
    (pop_length h1))

-- What an instruction does to the view it does to the machine.
theorem Sees.perform {i : Instr} (h : Sees F s view) (hi : view.perform i = some next)
    (hroom : view.own.length + i.pushes ≤ F.size) :
    Sees F (s.perform i) next ∧ (s.perform i).ip = s.ip ∧ next.regs.cs = view.regs.cs ∧
      next.own.length ≤ view.own.length + i.pushes := by
  cases i with
  | push r =>
      obtain rfl := Option.some.inj hi
      rw [Cpu.perform, h.regs]
      exact ⟨h.push _ hroom, rfl, rfl, Nat.le_refl _⟩
  | pop r => exact ⟨h.pop hi, rfl, pop_cs hi, pop_length hi⟩
  | pusha =>
      obtain rfl := Option.some.inj hi
      refine ⟨h.pusha hroom, ?_, ?_, ?_⟩
      · simp only [Cpu.perform, Cpu.pusha, Cpu.push]
      · simp only [View.pusha, View.push]
      · simp only [View.pusha, View.push, List.length_cons, Instr.pushes]
        omega
  | popa =>
      obtain ⟨hsees, hcs⟩ := h.popa hi
      have hip : (s.perform .popa).ip = s.ip := by
        simp only [Cpu.perform, Cpu.popa, Cpu.pop, Cpu.drop]
      exact ⟨hsees, hip, hcs, popa_length hi⟩
  | pushf =>
      obtain rfl := Option.some.inj hi
      rw [Cpu.perform, h.regs]
      exact ⟨h.push _ hroom, rfl, rfl, Nat.le_refl _⟩
  | pushEax =>
      obtain rfl := Option.some.inj hi
      have hroom' : view.own.length + 2 ≤ F.size := hroom
      have hhigh := h.push view.regs.axHigh (by omega)
      have hax := hhigh.push view.regs.ax hroom'
      rw [Cpu.perform, Cpu.pushEax, h.regs]
      exact ⟨hax, rfl, rfl, Nat.le_refl _⟩
  | popEax =>
      obtain ⟨regs, own⟩ := view
      match own, h, hi with
      | [], _, hi => cases hi
      | [_], _, hi => cases hi
      | low :: high :: own, h, hi =>
          obtain rfl := Option.some.inj hi
          exact ⟨h.popEax, rfl, rfl, by simp only [List.length_cons]; omega⟩
  | mov dst src =>
      rw [View.perform] at hi
      split at hi
      · cases hi
      · rename_i hdst
        obtain rfl := Option.some.inj hi
        rw [Cpu.perform, h.regs]
        exact ⟨h.with_regs _ (Registers.set_ss hdst _ _) (Registers.set_sp hdst _ _), rfl,
          Registers.set_cs hdst _ _, Nat.le_refl _⟩
  | movImm dst v =>
      rw [View.perform] at hi
      split at hi
      · cases hi
      · rename_i hdst
        obtain rfl := Option.some.inj hi
        rw [Cpu.perform, h.regs]
        exact ⟨h.with_regs _ (Registers.set_ss hdst _ _) (Registers.set_sp hdst _ _), rfl,
          Registers.set_cs hdst _ _, Nat.le_refl _⟩
  | addImm dst v =>
      rw [View.perform] at hi
      split at hi
      · cases hi
      · rename_i hdst
        obtain rfl := Option.some.inj hi
        rw [Cpu.perform, h.regs]
        exact ⟨h.with_regs _ (Registers.set_ss hdst _ _) (Registers.set_sp hdst _ _), rfl,
          Registers.set_cs hdst _ _, Nat.le_refl _⟩
  | shldEdxEax =>
      obtain rfl := Option.some.inj hi
      rw [Cpu.perform, h.regs]
      exact ⟨h.with_regs _ rfl rfl, rfl, rfl, Nat.le_refl _⟩
  | cmpAh v =>
      obtain rfl := Option.some.inj hi
      rw [Cpu.perform, h.regs]
      exact ⟨h.with_regs _ rfl rfl, rfl, rfl, Nat.le_refl _⟩
  | movAh v =>
      obtain rfl := Option.some.inj hi
      rw [Cpu.perform, h.regs]
      exact ⟨h.with_regs _ rfl rfl, rfl, rfl, Nat.le_refl _⟩
  | movAl v =>
      obtain rfl := Option.some.inj hi
      rw [Cpu.perform, h.regs]
      exact ⟨h.with_regs _ rfl rfl, rfl, rfl, Nat.le_refl _⟩
  | _ => cases hi

end

-- The code of a routine at its place in the code segment, and what is called from there. A call
-- of an external routine is one step, which covers all that the routine does until it returns.
structure Env where
  cs : UInt16
  base : UInt16
  code : Nat → Option Instr
  external : UInt16 → UInt16 → Option (Cpu → Cpu)
  inside : ∀ k i, code k = some i → k < 65536 ∧ external cs (above base k) = none

def Env.step (env : Env) (s : Cpu) : Option (Option Cpu × Cpu) :=
  match env.external s.regs.cs s.ip with
  | some f => some (some s, f s)
  | none =>
      if s.regs.cs = env.cs then (env.code (s.ip - env.base).toNat).map fun i => (none, s.exec i)
      else none

-- A step that enters an external routine is labelled with the state in which it does so.
def Env.Step (env : Env) (s : Cpu) (label : Option Cpu) (next : Cpu) : Prop :=
  env.step s = some (label, next)

-- The machine gets from one state to the other, and enters external routines in these states.
def Env.Reaches (env : Env) (s : Cpu) (calls : List Cpu) (t : Cpu) : Prop :=
  ∃ labels, Run s env.Step labels t ∧ labels.filterMap id = calls

section

variable {env : Env} {s t u : Cpu} {calls more : List Cpu}

theorem Env.Reaches.trans (h : env.Reaches s calls t) (h' : env.Reaches t more u) :
    env.Reaches s (calls ++ more) u := by
  obtain ⟨labels, hrun, rfl⟩ := h
  obtain ⟨labels', hrun', rfl⟩ := h'
  exact ⟨labels ++ labels', hrun.append hrun', List.filterMap_append⟩

theorem Env.Reaches.refl (env : Env) (s : Cpu) : env.Reaches s [] s := ⟨[], .nil, rfl⟩

theorem Env.Reaches.external {f : Cpu → Cpu} (h : env.external s.regs.cs s.ip = some f) :
    env.Reaches s [s] (f s) := by
  refine ⟨[some s], .snoc .nil ?_, rfl⟩
  rw [Env.Step, Env.step, h]

theorem above_sub_self (base : UInt16) {k : Nat} (hk : k < 65536) : (above base k - base).toNat = k := by
  have hbase := base.toNat_lt
  rw [UInt16.toNat_sub, above_toNat]
  omega

theorem Env.Reaches.instr {k : Nat} {i : Instr} (hcode : env.code k = some i)
    (hcs : s.regs.cs = env.cs) (hip : s.ip = above env.base k) : env.Reaches s [] (s.exec i) := by
  obtain ⟨hk, hexternal⟩ := env.inside k i hcode
  refine ⟨[none], .snoc .nil ?_, rfl⟩
  rw [Env.Step, Env.step, hcs, hip, hexternal]
  dsimp only
  rw [if_pos rfl, above_sub_self env.base hk, hcode]
  rfl

-- The instructions from there on.
def Env.Code (env : Env) : Nat → List Instr → Prop
  | _, [] => True
  | k, i :: instrs => env.code k = some i ∧ env.Code (k + i.size) instrs

def sizes (instrs : List Instr) : Nat := (instrs.map Instr.size).sum

def pushes (instrs : List Instr) : Nat := (instrs.map Instr.pushes).sum

end

-- Control is at `k` in the routine, and the machine is as the view has it.
structure At (env : Env) (F : StackFrame) (k : Nat) (s : Cpu) (view : View) : Prop where
  ip : s.ip = above env.base k
  cs : view.regs.cs = env.cs
  sees : Sees F s view

section

variable {env : Env} {F : StackFrame} {k : Nat} {s : Cpu} {view next : View}

theorem At.cs' (h : At env F k s view) : s.regs.cs = env.cs := by
  rw [h.sees.regs]
  exact h.cs

-- Straight-line code.
theorem At.block {instrs : List Instr} (h : At env F k s view) (hcode : env.Code k instrs)
    (hblock : view.block instrs = some next) (hroom : view.own.length + pushes instrs ≤ F.size) :
    ∃ t, env.Reaches s [] t ∧ At env F (k + sizes instrs) t next := by
  induction instrs generalizing k s view with
  | nil =>
      obtain rfl := Option.some.inj hblock
      exact ⟨s, .refl env s, h⟩
  | cons i instrs ih =>
      obtain ⟨hi, hrest⟩ := hcode
      rw [View.block, List.foldlM_cons] at hblock
      obtain ⟨mid, hmid, hblock⟩ := Option.bind_eq_some_iff.mp hblock
      have hcons : pushes (i :: instrs) = i.pushes + pushes instrs := List.sum_cons
      rw [hcons] at hroom
      obtain ⟨hsees, hip, hcs, hlength⟩ :=
        (h.sees.with_ip (s.ip + UInt16.ofNat i.size)).perform hmid (by omega)
      have hmidAt : At env F (k + i.size) (s.exec i) mid := by
        refine ⟨?_, hcs.trans h.cs, hsees⟩
        rw [Cpu.exec, hip, h.ip, ← above_above]
        rfl
      obtain ⟨t, hreaches, ht⟩ := ih hmidAt hrest hblock (by omega)
      refine ⟨t, (Env.Reaches.instr hi h.cs' h.ip).trans hreaches, ?_⟩
      have hsizes : k + sizes (i :: instrs) = k + i.size + sizes instrs := by
        rw [sizes, List.map_cons, List.sum_cons, ← Nat.add_assoc]
        rfl
      rw [hsizes]
      exact ht

end

end Library.X86
