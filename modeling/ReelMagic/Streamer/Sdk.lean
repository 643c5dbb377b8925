import ReelMagic.Rmsdk.Wrappers
import ReelMagic.Streamer.Steps

namespace ReelMagic.Streamer

open Library
open ReelMagic.Recorder (FarPtr Regs)

-- The functions of `reelmagc.c` that the streamer calls are modelled here with the callbacks that
-- may come during an INT 80h. Where none come, they do what they do for every other program.

def Reason.sdk : Reason → Option Rmsdk.Stop
  | .noReply => some .noReply
  | .aborted => some .aborted
  | _ => none

def Effect.sdk : Effect → Option Rmsdk.Effect
  | .int80 regs reply => some (.call regs reply)
  | .stdout indent (.sdk line) => some (.stdout indent line)
  | .logfile indent (.sdk line) => some (.logfile indent line)
  | _ => none

-- What `reelmagc.c` and `logf.c` have of the program.
def Program.sdk (p : Program) : Rmsdk.Sdk where
  fmpdrvInt := p.statics.fmpdrvInt
  driverCbFunc := p.statics.driverCbFunc
  muted := p.statics.muted
  stdouton := p.statics.stdouton
  logout := p.statics.logout
  indentCount := p.statics.indentCount.toNat
  replies := p.script.map Answer.regs
  effects := p.effects.filterMap Effect.sdk

-- The driver does not call back, and one more level of indentation can be counted.
structure Undisturbed (p : Program) : Prop where
  requests : ∀ answer ∈ p.script, answer.requests = []
  indent : p.statics.indentCount.toNat + 1 < 0x8000

structure Shows (p : Program) (s : Rmsdk.Sdk) : Prop where
  undisturbed : Undisturbed p
  sdk : p.sdk = s

-- Both return, or both stop for the same reason.
abbrev Agrees {α β : Type} : (α → β → Prop) → Except Stop α → Except Rmsdk.Stop β → Prop :=
  Agree fun stop stop' => stop.reason.sdk = some stop'

-- With the same value returned.
def Returns {α : Type} (result : α × Program) (result' : α × Rmsdk.Sdk) : Prop :=
  result.1 = result'.1 ∧ Shows result.2 result'.2

section

variable {p q : Program} {s : Rmsdk.Sdk}

theorem Shows.logfi (h : Shows p s) (line : Rmsdk.LogLine) :
    Shows (p.logfi (.sdk line)) (Rmsdk.logfi line s) := by
  obtain ⟨hundisturbed, rfl⟩ := h
  have hindent : p.statics.indent = p.statics.indentCount.toNat := by
    have hlt : p.statics.indentCount < 0x8000 :=
      UInt16.lt_iff_toNat_lt.mpr (Nat.lt_of_succ_lt hundisturbed.indent)
    exact if_pos hlt
  refine ⟨⟨hundisturbed.requests, hundisturbed.indent⟩, ?_⟩
  unfold Program.logfi Program.lineEffects Rmsdk.logfi
  rw [hindent]
  unfold Program.sdk Program.emit Rmsdk.Sdk.emit
  cases p.statics.muted <;> cases p.statics.stdouton <;> cases p.statics.logout <;>
    simp [List.filterMap_append, Effect.sdk]

-- An INT 80h during which the driver does not call back, at any depth.
theorem int80_undisturbed (layout : Layout) (depth : Nat) (regs : Regs) {answer : Answer}
    {script : List Answer} (hscript : p.script = answer :: script) (hrequests : answer.requests = []) :
    Program.int80 layout depth regs p =
      .ok (answer.regs, { p with script }.emit [.int80 regs answer.regs]) := by
  cases depth with
  | zero =>
      unfold Program.int80
      rw [hscript]
      dsimp only
      rw [hrequests]
      rfl
  | succ depth =>
      unfold Program.int80
      rw [hscript]
      dsimp only
      rw [hrequests]
      rfl

theorem int80_unanswered (layout : Layout) (depth : Nat) (regs : Regs) (hscript : p.script = []) :
    Program.int80 layout depth regs p = .error ⟨.noReply, p⟩ := by
  cases depth with
  | zero =>
      unfold Program.int80
      rw [hscript]
  | succ depth =>
      unfold Program.int80
      rw [hscript]

theorem Shows.int80 (h : Shows p s) (regs : Regs) {answer : Answer} {script : List Answer}
    (hscript : p.script = answer :: script) :
    Shows ({ p with script }.emit [.int80 regs answer.regs])
      ({ s with replies := script.map Answer.regs }.emit [.call regs answer.regs]) := by
  obtain ⟨hundisturbed, rfl⟩ := h
  refine ⟨⟨?_, hundisturbed.indent⟩, ?_⟩
  · intro other hmem
    refine hundisturbed.requests other ?_
    rw [hscript]
    exact List.mem_cons_of_mem _ hmem
  · unfold Program.sdk Program.emit Rmsdk.Sdk.emit
    rw [List.filterMap_append]
    rfl

-- The indentation of a call is taken back when it is over.
theorem logfDelindent_addindent (h : Undisturbed p) (script : List Answer) (effects : List Effect) :
    ({ p.logfAddindent with script }.emit effects).logfDelindent = { p with script }.emit effects := by
  have hcount : p.statics.indentCount + 1 ≠ 0 := by
    intro hzero
    have hnat := congrArg UInt16.toNat hzero
    rw [UInt16.toNat_add] at hnat
    have hindent := h.indent
    have hone : (p.statics.indentCount.toNat + 1) % 2 ^ 16 = 0 := hnat
    omega
  have htaken : ({ p.logfAddindent with script }.emit effects).logfDelindent =
      { p with
        statics := { p.statics with indentCount := p.statics.indentCount + 1 - 1 }
        script }.emit effects := if_pos hcount
  have hback : p.statics.indentCount + 1 - 1 = p.statics.indentCount := UInt16.add_sub_cancel ..
  rw [htaken, hback]

theorem Shows.rmCallFmpdrv (h : Shows p s) (layout : Layout) (depth : Nat) (command handle : UInt8)
    (subfunc param1 param2 : UInt16) :
    Agrees Returns
      (p.rmCallFmpdrv (Program.int80 layout depth) command handle subfunc param1 param2)
      (Rmsdk.rmCallFmpdrv command handle subfunc param1 param2 s) := by
  have hint : s.fmpdrvInt = p.statics.fmpdrvInt := by
    rw [← h.sdk]
    rfl
  unfold Program.rmCallFmpdrv Rmsdk.rmCallFmpdrv
  rw [hint]
  split
  · exact rfl
  have hentered := h.logfi (.enterCallFmpdrv command handle subfunc param1 param2)
  generalize p.logfi (.sdk (.enterCallFmpdrv command handle subfunc param1 param2)) = q at hentered
  generalize Rmsdk.logfi (.enterCallFmpdrv command handle subfunc param1 param2) s = s' at hentered
  have hreplies : s'.replies = q.script.map Answer.regs := by
    rw [← hentered.sdk]
    rfl
  cases hscript : q.script with
  | nil =>
      rw [hscript] at hreplies
      dsimp only
      rw [int80_unanswered layout depth _ (show q.logfAddindent.script = [] from hscript)]
      unfold Rmsdk.int80
      rw [show (Rmsdk.logfAddindent s').replies = [] from hreplies]
      exact rfl
  | cons answer script =>
      rw [hscript] at hreplies
      have hrequests := hentered.undisturbed.requests answer (by rw [hscript]; exact List.mem_cons_self)
      dsimp only
      rw [int80_undisturbed layout depth _
        (show q.logfAddindent.script = answer :: script from hscript) hrequests]
      unfold Rmsdk.int80
      rw [show (Rmsdk.logfAddindent s').replies = answer.regs :: script.map Answer.regs from hreplies]
      refine ⟨rfl, ?_⟩
      -- at the exit line the indentation is what it was at the entry line
      have hreturned := (hentered.int80 (callRegs command handle subfunc param1 param2) hscript).logfi
        (.exitCallFmpdrv command handle subfunc param1 param2 answer.regs.dx answer.regs.ax)
      rw [← logfDelindent_addindent hentered.undisturbed] at hreturned
      exact hreturned

theorem Shows.rmSet (h : Shows p s) (layout : Layout) (depth : Nat) (handle : UInt8)
    (type param1 param2 : UInt16) :
    Agrees Shows (p.rmSet (Program.int80 layout depth) handle type param1 param2)
      (Rmsdk.rmSet handle type param1 param2 s) := by
  refine Agree.bind (h.rmCallFmpdrv layout depth 0x9 handle type param1 param2) ?_
  rintro ⟨rv, q⟩ ⟨rv', s'⟩ ⟨_, hshows⟩
  exact hshows

theorem Shows.rmSetPtr (h : Shows p s) (layout : Layout) (depth : Nat) (handle : UInt8)
    (type : UInt16) (ptr : FarPtr) :
    Agrees Shows (p.rmSetPtr (Program.int80 layout depth) handle type ptr)
      (Rmsdk.rmSetPtr handle type ptr s) := by
  refine Agree.bind (h.rmCallFmpdrv layout depth 0x9 handle type ptr.off ptr.seg) ?_
  rintro ⟨rv, q⟩ ⟨rv', s'⟩ ⟨_, hshows⟩
  exact hshows

theorem Shows.rmGet (h : Shows p s) (layout : Layout) (depth : Nat) (handle : UInt8) (type : UInt16) :
    Agrees Returns (p.rmGet (Program.int80 layout depth) handle type) (Rmsdk.rmGet handle type s) :=
  h.rmCallFmpdrv layout depth 0xA handle type 0 0

theorem Shows.rmGetPtr (h : Shows p s) (layout : Layout) (depth : Nat) (handle : UInt8)
    (type : UInt16) :
    Agrees Returns (p.rmGetPtr (Program.int80 layout depth) handle type)
      (Rmsdk.rmGetPtr handle type s) := by
  refine Agree.bind (h.rmGet layout depth handle type) ?_
  rintro ⟨rv, q⟩ ⟨rv', s'⟩ ⟨hrv, hshows⟩
  obtain rfl : rv = rv' := hrv
  exact ⟨rfl, hshows⟩

theorem Shows.rmSubmitBuffer (h : Shows p s) (layout : Layout) (depth : Nat) (handle : UInt8)
    (buf : FarPtr) (size : UInt16) :
    Agrees Shows (p.rmSubmitBuffer (Program.int80 layout depth) handle buf size)
      (Rmsdk.rmSubmitBuffer handle buf size s) := by
  refine Agree.bind (h.rmSet layout depth handle 0x307 buf.seg 0) ?_
  intro p₁ s₁ h₁
  refine Agree.bind (h₁.rmSet layout depth handle 0x303 buf.off 0) ?_
  intro p₂ s₂ h₂
  exact h₂.rmSet layout depth handle 0x304 size 0

theorem Shows.rmRegisterDriverCallback (h : Shows p s) (layout : Layout) (depth : Nat)
    (cbfunc cbmode : UInt16) :
    Agrees Shows (p.rmRegisterDriverCallback (Program.int80 layout depth) layout cbfunc cbmode)
      (Rmsdk.rmRegisterDriverCallback layout.code cbfunc cbmode s) := by
  have hregistered : Shows { p with statics := { p.statics with driverCbFunc := cbfunc } }
      { s with driverCbFunc := cbfunc } := by
    obtain ⟨hundisturbed, rfl⟩ := h
    exact ⟨⟨hundisturbed.requests, hundisturbed.indent⟩, rfl⟩
  unfold Program.rmRegisterDriverCallback Rmsdk.rmRegisterDriverCallback
  dsimp only
  generalize (if cbfunc = 0 then 0 else cbmode) = mode
  split
  · refine Agree.bind (hregistered.rmCallFmpdrv layout depth 0xB 0 mode _ _) ?_
    rintro ⟨rv, q⟩ ⟨rv', s'⟩ ⟨_, hshows⟩
    exact hshows
  · have hlogged : Shows
        (if mode = Rmsdk.RMCBMODE_REGISTER then
          { p with statics := { p.statics with driverCbFunc := cbfunc } }
        else ({ p with statics := { p.statics with driverCbFunc := cbfunc } } : Program).logfi
          (.sdk (.unknownCallbackMode mode)))
        (if mode = Rmsdk.RMCBMODE_REGISTER then { s with driverCbFunc := cbfunc }
        else Rmsdk.logfi (.unknownCallbackMode mode) { s with driverCbFunc := cbfunc }) := by
      split
      · exact hregistered
      · exact hregistered.logfi _
    refine Agree.bind (hlogged.rmCallFmpdrv layout depth 0xB 0 mode _ _) ?_
    rintro ⟨rv, q⟩ ⟨rv', s'⟩ ⟨_, hshows⟩
    exact hshows

end

end ReelMagic.Streamer
