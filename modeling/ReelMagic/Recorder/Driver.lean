import ReelMagic.Library.Runs
import ReelMagic.Recorder

namespace ReelMagic.Recorder

-- A pointer the driver is given: the recorder's shim, or a far pointer of the application.
inductive CbPtr where
  | cbshim
  | app (ptr : FarPtr)
deriving DecidableEq

def Regs.bh (regs : Regs) : Nat := (regs.bx >>> 8).toNat

-- `DX:AX`.
def Regs.ptr (regs : Regs) : FarPtr := ⟨regs.dx, regs.ax⟩

-- What is under way, innermost first: a call of the application inside the driver, the
-- call an exit makes to store the shim, or a callback of the application. `done` says that
-- the driver has performed the call.
inductive Frame where
  | call (regs : Regs) (done : Bool)
  | install (type : UInt16) (done : Bool)
  | callback
deriving DecidableEq

-- `accepted` is the last pointer and type the driver stored for the application.
structure Machine where
  recorder : Statics
  driver : Option (CbPtr × UInt16)
  stack : List Frame
  accepted : Option (FarPtr × UInt16)

def Machine.start : Machine := ⟨.start, none, [], none⟩

inductive Action where
  -- the application calls the driver through the recorder's handler
  | appCall (regs : Regs) (filename : Vector UInt8 128) (append append' : Append)
  -- the driver invokes the callback it holds
  | invoke (regs : Regs) (callargs : CallArgs) (append append' : Append)
  -- the driver performs the call it is in; `clear` is its choice on function 0Eh
  | perform (clear : Bool)
  | callbackReturn
  | driverReturn (regs : Regs) (append : Append)

-- Application code runs outside of all calls and in callbacks, else the driver does.
def Machine.appRuns (s : Machine) : Bool :=
  match s.stack with
  | [] => true
  | .callback :: _ => true
  | _ => false

def Machine.store (s : Machine) (regs : Regs) (clear : Bool) : Machine :=
  if regs.bh = 0x0B then
    { s with driver := some (.app regs.ptr, regs.cx), accepted := some (regs.ptr, regs.cx) }
  else if regs.bh = 0x0E ∧ clear then { s with driver := none }
  else s

def Machine.step (s : Machine) : Action → Option Machine
  | .appCall regs filename append append' =>
      if s.appRuns then
        some { s with
          recorder := recordFmpdrvCallEnter regs filename append append' s.recorder
          stack := .call regs false :: s.stack }
      else none
  | .invoke regs callargs append append' =>
      match s.driver with
      | none => none
      | some (cb, _) =>
          if s.appRuns then none
          else
            some { s with
              recorder :=
                if cb = .cbshim then recordCallbackEnter regs callargs append append' s.recorder
                else s.recorder
              stack := .callback :: s.stack }
  | .perform clear =>
      match s.stack with
      | .call regs false :: rest => some ({ s with stack := .call regs true :: rest }.store regs clear)
      | .install type false :: rest =>
          some { s with driver := some (.cbshim, type), stack := .install type true :: rest }
      | _ => none
  | .callbackReturn =>
      match s.stack with
      | .callback :: rest => some { s with stack := rest }
      | _ => none
  | .driverReturn regs append =>
      match s.stack with
      | .call _ true :: rest =>
          match recordFmpdrvCallExit regs append s.recorder with
          | (recorder, some type) =>
              some { s with recorder := recorder, stack := .install type false :: rest }
          | (recorder, none) => some { s with recorder := recorder, stack := rest }
      | .install _ true :: rest => some { s with stack := rest }
      | _ => none

def Step (s : Machine) (action : Action) (next : Machine) : Prop :=
  s.step action = some next

-- With no call in progress, the driver has the shim if it has anything, the shim goes to
-- the pointer accepted last, and the type is the one that came with it.
def HooksAccepted (s : Machine) : Prop :=
  s.stack = [] → ∀ cb type, s.driver = some (cb, type) →
    cb = .cbshim ∧ s.accepted = some (s.recorder.forwardcb, type)

def RegistersNonNull : Action → Prop
  | .appCall regs _ _ _ => regs.bh = 0x0B → regs.ptr ≠ ⟨0, 0⟩
  | _ => True

-- A registration that the driver has not stored yet.
def Frame.Registering : Frame → Prop
  | .call regs false => regs.bh = 0x0B
  | _ => False

-- No call is made while a registration is not stored yet, and no registration under another
-- type while the recorder has yet to get its shim stored.
def Settled (s : Machine) : Action → Prop
  | .appCall regs _ _ _ =>
      (∀ frame ∈ s.stack, ¬frame.Registering) ∧
        (regs.bh = 0x0B → ∀ type, .install type false ∈ s.stack → type = regs.cx)
  | _ => True

def SettledStep (s : Machine) (action : Action) (next : Machine) : Prop :=
  Step s action next ∧ Settled s action

-- All that a step can do.
inductive Moves (s : Machine) : Action → Machine → Prop
  | entered {regs : Regs} {filename : Vector UInt8 128} {append append' : Append} :
      s.appRuns = true →
        Moves s (.appCall regs filename append append')
          { s with
            recorder := recordFmpdrvCallEnter regs filename append append' s.recorder
            stack := .call regs false :: s.stack }
  | invoked {cb : CbPtr} {type : UInt16} {regs : Regs} {callargs : CallArgs}
      {append append' : Append} :
      s.driver = some (cb, type) → s.appRuns = false →
        Moves s (.invoke regs callargs append append')
          { s with
            recorder :=
              if cb = .cbshim then recordCallbackEnter regs callargs append append' s.recorder
              else s.recorder
            stack := .callback :: s.stack }
  | performed {regs : Regs} {rest : List Frame} {clear : Bool} :
      s.stack = .call regs false :: rest →
        Moves s (.perform clear) ({ s with stack := .call regs true :: rest }.store regs clear)
  | installed {type : UInt16} {rest : List Frame} {clear : Bool} :
      s.stack = .install type false :: rest →
        Moves s (.perform clear)
          { s with driver := some (.cbshim, type), stack := .install type true :: rest }
  | resumed {rest : List Frame} :
      s.stack = .callback :: rest → Moves s .callbackReturn { s with stack := rest }
  | exited {callRegs regs : Regs} {append : Append} {rest : List Frame} {recorder : Statics} :
      s.stack = .call callRegs true :: rest →
        recordFmpdrvCallExit regs append s.recorder = (recorder, none) →
          Moves s (.driverReturn regs append) { s with recorder := recorder, stack := rest }
  | exitedArmed {callRegs regs : Regs} {append : Append} {rest : List Frame} {recorder : Statics}
      {type : UInt16} :
      s.stack = .call callRegs true :: rest →
        recordFmpdrvCallExit regs append s.recorder = (recorder, some type) →
          Moves s (.driverReturn regs append)
            { s with recorder := recorder, stack := .install type false :: rest }
  | installReturned {type : UInt16} {regs : Regs} {append : Append} {rest : List Frame} :
      s.stack = .install type true :: rest →
        Moves s (.driverReturn regs append) { s with stack := rest }

theorem moves_of_step {s next : Machine} {action : Action} (step : Step s action next) :
    Moves s action next := by
  cases action with
  | appCall regs filename append append' =>
      simp only [Step, Machine.step] at step
      split at step
      · rename_i happ
        obtain rfl := Option.some.inj step
        exact .entered happ
      · cases step
  | invoke regs callargs append append' =>
      simp only [Step, Machine.step] at step
      split at step
      · cases step
      · rename_i cb type hdriver
        split at step
        · cases step
        · rename_i happ
          obtain rfl := Option.some.inj step
          exact .invoked hdriver (Bool.eq_false_iff.mpr happ)
  | perform clear =>
      simp only [Step, Machine.step] at step
      split at step
      · rename_i regs rest hstack
        obtain rfl := Option.some.inj step
        exact .performed hstack
      · rename_i type rest hstack
        obtain rfl := Option.some.inj step
        exact .installed hstack
      · cases step
  | callbackReturn =>
      simp only [Step, Machine.step] at step
      split at step
      · rename_i rest hstack
        obtain rfl := Option.some.inj step
        exact .resumed hstack
      · cases step
  | driverReturn regs append =>
      simp only [Step, Machine.step] at step
      split at step
      · rename_i callRegs rest hstack
        split at step
        · rename_i recorder type hexit
          obtain rfl := Option.some.inj step
          exact .exitedArmed hstack hexit
        · rename_i recorder hexit
          obtain rfl := Option.some.inj step
          exact .exited hstack hexit
      · rename_i type rest hstack
        obtain rfl := Option.some.inj step
        exact .installReturned hstack
      · cases step

end ReelMagic.Recorder
