import ReelMagic.Library.Registers
import ReelMagic.Library.Runs
import ReelMagic.Rmsdk.Theorems

namespace ReelMagic.Rmsdk

open Library Library.Registers
open ReelMagic.Recorder (CallArgs FarPtr Regs)

-- What the driver holds for its callback.
structure Driver where
  ptr : FarPtr
  mode : UInt16

-- Command 0Bh registers DX:AX in mode CX.
def Driver.take (driver : Driver) (regs : Regs) : Driver :=
  if regs.bx >>> 8 = 0xB then ⟨⟨regs.dx, regs.ax⟩, regs.cx⟩ else driver

-- A call of the driver's pointer: the words on the stack above the return address, and the
-- registers.
structure Invocation where
  stack : CallArgs
  regs : Regs

-- The convention of a mode. What it leaves open may be anything.
def Invocation.Passes (invocation : Invocation) (mode : UInt16) (command handle : UInt8)
    (param1 param2 : UInt16) : Prop :=
  if mode = RMCBMODE_STACK then
    invocation.stack = ⟨command.toUInt16, handle.toUInt16, param1, param2⟩
  else
    invocation.regs.bx = command.toUInt16 <<< 8 ||| handle.toUInt16 ∧ invocation.regs.ax = param1 ∧
      invocation.regs.dx = param2

structure System where
  sdk : Sdk
  driver : Driver

inductive Event where
  | register (cbfunc cbmode : UInt16)
  | callback (command handle : UInt8) (param1 param2 : UInt16) (delivered : CbCall)

-- The driver gets the calls of a registration, and calls its pointer whenever it is not NULL.
inductive Step (code : Code) : System → Event → System → Prop
  | register {s s' : Sdk} {driver : Driver} {cbfunc cbmode : UInt16} {issued : List (Regs × Regs)} :
      cbmode = RMCBMODE_STACK ∨ cbmode = RMCBMODE_REGISTER →
        rmRegisterDriverCallback code cbfunc cbmode s = .ok s' → s'.calls = s.calls ++ issued →
          Step code ⟨s, driver⟩ (.register cbfunc cbmode)
            ⟨s', (issued.map Prod.fst).foldl Driver.take driver⟩
  | stackCallback {s : Sdk} {driver : Driver} {command handle : UInt8} {param1 param2 : UInt16}
      {invocation : Invocation} :
      driver.ptr ≠ ⟨0, 0⟩ → driver.ptr = code.marshallStackCallback →
        invocation.Passes driver.mode command handle param1 param2 →
          Step code ⟨s, driver⟩
            (.callback command handle param1 param2 (marshallStackCallback invocation.stack s))
            ⟨s, driver⟩
  | registerCallback {s : Sdk} {driver : Driver} {command handle : UInt8} {param1 param2 : UInt16}
      {invocation : Invocation} :
      driver.ptr ≠ ⟨0, 0⟩ → driver.ptr = code.marshallRegisterCallback →
        invocation.Passes driver.mode command handle param1 param2 →
          Step code ⟨s, driver⟩
            (.callback command handle param1 param2 (marshallRegisterCallback invocation.regs s))
            ⟨s, driver⟩

-- Nothing is registered.
def System.start (s : Sdk) : System := ⟨{ s with driverCbFunc := 0 }, ⟨⟨0, 0⟩, 0⟩⟩

def Event.registered : UInt16 → Event → UInt16
  | _, .register cbfunc _ => cbfunc
  | last, .callback _ _ _ _ _ => last

-- The function of the most recent registration, and NULL before the first.
def lastRegistered (events : List Event) : UInt16 := events.foldl Event.registered 0

-- A callback reaches the function that was registered last with what the driver passes, and never
-- through NULL.
def Delivered (before : List Event) : Event → Prop
  | .register _ _ => True
  | .callback command handle param1 param2 delivered =>
      delivered = ⟨lastRegistered before, command.toUInt16, handle.toUInt16, param1, param2⟩ ∧
        delivered.func ≠ 0

-- No callback comes after a registration with NULL.
def Expected (before : List Event) : Event → Prop
  | .register _ _ => True
  | .callback _ _ _ _ _ => lastRegistered before ≠ 0

-- The marshaller that the driver holds belongs to the mode that it holds.
inductive Consistent (code : Code) : Driver → Prop
  | none : Consistent code ⟨⟨0, 0⟩, 0⟩
  | stack : Consistent code ⟨code.marshallStackCallback, RMCBMODE_STACK⟩
  | register : Consistent code ⟨code.marshallRegisterCallback, RMCBMODE_REGISTER⟩

section

variable {code : Code} {s s' : Sdk} {cbfunc cbmode : UInt16}

theorem take_registration (ptr : FarPtr) (mode : UInt16) (driver : Driver) :
    driver.take ⟨ptr.off, (0xB : UInt8).toUInt16 <<< 8 ||| (0 : UInt8).toUInt16, mode, ptr.seg⟩ =
      ⟨ptr, mode⟩ := by
  rw [Driver.take, word_shiftRight]
  rfl

-- A registration makes one call, with the marshaller of its mode.
theorem rmRegisterDriverCallback_ok (hmode : cbmode = RMCBMODE_STACK ∨ cbmode = RMCBMODE_REGISTER)
    (h : rmRegisterDriverCallback code cbfunc cbmode s = .ok s') :
    s'.driverCbFunc = cbfunc ∧ ∃ regs reply, s'.calls = s.calls ++ [(regs, reply)] ∧
      ∀ driver : Driver, Consistent code (driver.take regs) := by
  have hzero : (if cbfunc = 0 then 0 else cbmode) = RMCBMODE_STACK ∨
      (if cbfunc = 0 then 0 else cbmode) = RMCBMODE_REGISTER := by
    split
    · exact Or.inr rfl
    · exact hmode
  unfold rmRegisterDriverCallback at h
  generalize (if cbfunc = 0 then 0 else cbmode) = mode at h hzero
  dsimp only at h
  rcases hzero with rfl | rfl
  · rw [if_pos rfl] at h
    obtain ⟨⟨rv, called⟩, hcall, hret⟩ := bind_eq_ok h
    obtain rfl := Except.ok.inj hret
    obtain ⟨reply, hkeeps⟩ := rmCallFmpdrv_ok hcall
    refine ⟨hkeeps.driverCbFunc, _, reply, hkeeps.calls, ?_⟩
    intro driver
    rw [take_registration]
    exact .stack
  · rw [if_neg (by decide), if_pos rfl] at h
    obtain ⟨⟨rv, called⟩, hcall, hret⟩ := bind_eq_ok h
    obtain rfl := Except.ok.inj hret
    obtain ⟨reply, hkeeps⟩ := rmCallFmpdrv_ok hcall
    refine ⟨hkeeps.driverCbFunc, _, reply, hkeeps.calls, ?_⟩
    intro driver
    rw [take_registration]
    exact .register

variable {system system' : System} {events : List Event} {event : Event}

theorem lastRegistered_append (events : List Event) (event : Event) :
    lastRegistered (events ++ [event]) = event.registered (lastRegistered events) := by
  rw [lastRegistered, List.foldl_append]
  rfl

-- What the two parties hold after every step.
theorem consistent_of_run (run : Run (System.start s) (Step code) events system) :
    system.sdk.driverCbFunc = lastRegistered events ∧ Consistent code system.driver := by
  refine Run.invariant (fun events system => system.sdk.driverCbFunc = lastRegistered events ∧
    Consistent code system.driver) run ⟨rfl, .none⟩ ?_
  rintro events system event system' ⟨hfunc, hdriver⟩ hstep
  rw [lastRegistered_append]
  cases hstep with
  | register hmode hregister hissued =>
      obtain ⟨hcbfunc, regs, reply, hcalls, htake⟩ := rmRegisterDriverCallback_ok hmode hregister
      rw [hcalls] at hissued
      obtain rfl := List.append_cancel_left hissued
      exact ⟨hcbfunc, htake _⟩
  | stackCallback _ _ _ => exact ⟨hfunc, hdriver⟩
  | registerCallback _ _ _ => exact ⟨hfunc, hdriver⟩

-- A callback delivers to the function in the SDK what the driver passes, whichever mode it is in.
theorem delivered_of_step {command handle : UInt8} {param1 param2 : UInt16} {delivered : CbCall}
    (hconsistent : Consistent code system.driver)
    (hstep : Step code system (.callback command handle param1 param2 delivered) system') :
    delivered = ⟨system.sdk.driverCbFunc, command.toUInt16, handle.toUInt16, param1, param2⟩ := by
  cases hstep with
  | @stackCallback s driver _ _ _ _ invocation hnull hptr hpasses =>
      generalize hheld : driver = held at hconsistent hnull
      cases hconsistent with
      | none => exact absurd rfl hnull
      | stack =>
          rw [hheld] at hpasses
          have hstack := (if_pos rfl).mp hpasses
          rw [marshallStackCallback, hstack]
      | register =>
          rw [hheld] at hptr
          exact absurd hptr.symm code.distinct
  | @registerCallback s driver _ _ _ _ invocation hnull hptr hpasses =>
      generalize hheld : driver = held at hconsistent hnull
      cases hconsistent with
      | none => exact absurd rfl hnull
      | stack =>
          rw [hheld] at hptr
          exact absurd hptr code.distinct
      | register =>
          rw [hheld] at hpasses
          obtain ⟨hbx, hax, hdx⟩ := (if_neg (show ¬RMCBMODE_REGISTER = RMCBMODE_STACK by decide)).mp hpasses
          rw [marshallRegisterCallback, hbx, hax, hdx, word_shiftRight, word_and]

end

-- Every callback is delivered as registered exactly in the runs in which none comes after a
-- registration with NULL.
theorem callbacks_delivered_iff (code : Code) (s : Sdk) (events : List Event) :
    (Run.Always (System.start s) (Step code) events fun before _ event _ => Delivered before event) ↔
      Run.Always (System.start s) (Step code) events fun before _ event _ => Expected before event := by
  refine Run.always_congr ?_
  intro before system event system' run hstep
  obtain ⟨hfunc, hdriver⟩ := consistent_of_run run
  cases event with
  | register cbfunc cbmode => exact Iff.rfl
  | callback command handle param1 param2 delivered =>
      have hcall := delivered_of_step hdriver hstep
      rw [hfunc] at hcall
      constructor
      · rintro ⟨_, hnull⟩
        rw [hcall] at hnull
        exact hnull
      · intro hexpected
        refine ⟨hcall, ?_⟩
        rw [hcall]
        exact hexpected

def sampleCode : Code := ⟨⟨0x2000, 0x0010⟩, ⟨0x2000, 0x0020⟩, by decide, by decide, by decide⟩

def sampleInvocation : Invocation := ⟨⟨0, 0, 0, 0⟩, ⟨3, 0x0102, 0, 4⟩⟩

-- NULL is registered, and the driver still holds a marshaller to call.
theorem called_through_null :
    ¬∀ code s events, Run.Always (System.start s) (Step code) events fun before _ event _ =>
      Delivered before event := by
  intro h
  obtain ⟨⟨s, driver⟩, hregister, hdriver, hfunc⟩ : ∃ system, Step sampleCode
      (System.start ⟨0x80, 0, false, false, false, 0, [⟨0, 0, 0, 0⟩], []⟩) (.register 0 RMCBMODE_STACK)
        system ∧ system.driver = ⟨⟨0x2000, 0x0020⟩, RMCBMODE_REGISTER⟩ ∧ system.sdk.driverCbFunc = 0 :=
    ⟨_, .register (Or.inl rfl) rfl rfl, rfl, rfl⟩
  have hcallback : Step sampleCode ⟨s, driver⟩ (.callback 1 2 3 4
      (marshallRegisterCallback sampleInvocation.regs s)) ⟨s, driver⟩ := by
    obtain rfl : driver = ⟨⟨0x2000, 0x0020⟩, RMCBMODE_REGISTER⟩ := hdriver
    have hpasses : sampleInvocation.Passes RMCBMODE_REGISTER 1 2 3 4 :=
      ⟨rfl, rfl, rfl⟩
    exact .registerCallback (by decide) rfl hpasses
  have hdelivered := Run.Always.last (h _ _ _) (Run.snoc Run.nil hregister) hcallback
  exact hdelivered.2 hfunc

end ReelMagic.Rmsdk
