import ReelMagic.Library.Runs
import ReelMagic.Recorder.Driver
import ReelMagic.Recorder.Log

namespace ReelMagic.Recorder

open Library

-- What has been entered and not left yet. `install` is the call that an exit makes to store the
-- shim. It goes past the handler.
inductive Open where
  | fmpdrvCall
  | rmdevsysCall
  | callback
  | install
deriving DecidableEq

-- `stack` has the innermost first.
structure Session where
  recorder : Statics
  stack : List Open

def Session.start : Session := ⟨.start, []⟩

-- What comes and goes. Calls and callbacks may come at any moment, as from an interrupt
-- handler, and what has come last goes first. `rawCallback` is a callback past the shim.
inductive Deed where
  | fmpdrvCall (regs : Regs) (filename : Vector UInt8 128)
  | fmpdrvReturn (regs : Regs)
  | rmdevsysCall (regs : Regs)
  | rmdevsysReturn (regs : Regs)
  | callback (regs : Regs) (callargs : CallArgs)
  | rawCallback
  | callbackReturn
  | installReturn

-- Every append succeeds.
def Session.step (s : Session) : Deed → Option Session
  | .fmpdrvCall regs filename =>
      some ⟨recordFmpdrvCallEnter regs filename .full .full s.recorder, .fmpdrvCall :: s.stack⟩
  | .fmpdrvReturn regs =>
      match s.stack with
      | .fmpdrvCall :: rest =>
          match recordFmpdrvCallExit regs .full s.recorder with
          | (recorder, some _) => some ⟨recorder, .install :: rest⟩
          | (recorder, none) => some ⟨recorder, rest⟩
      | _ => none
  | .rmdevsysCall regs =>
      some ⟨recordRmdevsysCallEnter regs .full s.recorder, .rmdevsysCall :: s.stack⟩
  | .rmdevsysReturn regs =>
      match s.stack with
      | .rmdevsysCall :: rest => some ⟨recordRmdevsysCallExit regs .full s.recorder, rest⟩
      | _ => none
  | .callback regs callargs =>
      some ⟨recordCallbackEnter regs callargs .full .full s.recorder, .callback :: s.stack⟩
  | .rawCallback => some ⟨s.recorder, .callback :: s.stack⟩
  | .callbackReturn =>
      match s.stack with
      | .callback :: rest => some ⟨s.recorder, rest⟩
      | _ => none
  | .installReturn =>
      match s.stack with
      | .install :: rest => some ⟨s.recorder, rest⟩
      | _ => none

def Session.Step (s : Session) (deed : Deed) (next : Session) : Prop := s.step deed = some next

-- What the recorder sees of it.
def Deed.events : Deed → List Event
  | .fmpdrvCall regs filename => [.fmpdrvCallEnter regs filename]
  | .fmpdrvReturn regs => [.fmpdrvCallExit regs]
  | .rmdevsysCall regs => [.rmdevsysCallEnter regs]
  | .rmdevsysReturn regs => [.rmdevsysCallExit regs]
  | .callback regs callargs => [.callbackEnter regs callargs]
  | .rawCallback => []
  | .callbackReturn => []
  | .installReturn => []

-- The two kinds of calls that are recorded at both ends.
inductive Kind where
  | fmpdrv
  | rmdevsys
deriving DecidableEq

def Open.kind : Open → Option Kind
  | .fmpdrvCall => some .fmpdrv
  | .rmdevsysCall => some .rmdevsys
  | .callback => none
  | .install => none

-- The recorded calls that are open, innermost first.
def Session.calls (s : Session) : List Kind := s.stack.filterMap Open.kind

def Event.enters : Event → Option Kind
  | .fmpdrvCallEnter _ _ => some .fmpdrv
  | .rmdevsysCallEnter _ => some .rmdevsys
  | _ => none

def Event.leaves : Event → Option Kind
  | .fmpdrvCallExit _ => some .fmpdrv
  | .rmdevsysCallExit _ => some .rmdevsys
  | _ => none

-- What a step makes of the calls that are open.
inductive Follows : List Kind → List Event → List Kind → Prop
  | entered {calls : List Kind} {event : Event} {kind : Kind} : event.enters = some kind →
      Follows calls [event] (kind :: calls)
  | left {calls : List Kind} {event : Event} {kind : Kind} : event.leaves = some kind →
      Follows (kind :: calls) [event] calls
  | callback {calls : List Kind} {regs : Regs} {callargs : CallArgs} :
      Follows calls [.callbackEnter regs callargs] calls
  | unseen {calls : List Kind} : Follows calls [] calls

theorem calls_cons {recorder : Statics} {frame : Open} {rest : List Open} {kind : Kind}
    (h : frame.kind = some kind) :
    Session.calls ⟨recorder, frame :: rest⟩ = kind :: Session.calls ⟨recorder, rest⟩ :=
  List.filterMap_cons_some h

theorem calls_cons_other {recorder : Statics} {frame : Open} {rest : List Open}
    (h : frame.kind = none) :
    Session.calls ⟨recorder, frame :: rest⟩ = Session.calls ⟨recorder, rest⟩ :=
  List.filterMap_cons_none h

theorem calls_of_stack_eq {s : Session} {stack : List Open} (h : s.stack = stack) :
    s.calls = Session.calls ⟨s.recorder, stack⟩ := by
  rw [← h]

theorem follows_of_step {s next : Session} {deed : Deed} (step : s.Step deed next) :
    Follows s.calls deed.events next.calls ∧
      next.recorder = deed.events.foldl (record .full .full) s.recorder := by
  cases deed with
  | fmpdrvCall regs filename =>
      obtain rfl := Option.some.inj step
      exact ⟨.entered rfl, rfl⟩
  | fmpdrvReturn regs =>
      simp only [Session.Step, Session.step] at step
      split at step
      · rename_i rest hstack
        have hcalls : s.calls = .fmpdrv :: rest.filterMap Open.kind :=
          (calls_of_stack_eq hstack).trans (calls_cons rfl)
        rw [hcalls]
        split at step
        · rename_i recorder type hexit
          obtain rfl := Option.some.inj step
          rw [calls_cons_other rfl]
          exact ⟨.left rfl, (congrArg Prod.fst hexit).symm⟩
        · rename_i recorder hexit
          obtain rfl := Option.some.inj step
          exact ⟨.left rfl, (congrArg Prod.fst hexit).symm⟩
      · cases step
  | rmdevsysCall regs =>
      obtain rfl := Option.some.inj step
      exact ⟨.entered rfl, rfl⟩
  | rmdevsysReturn regs =>
      simp only [Session.Step, Session.step] at step
      split at step
      · rename_i rest hstack
        obtain rfl := Option.some.inj step
        rw [calls_of_stack_eq hstack, calls_cons rfl]
        exact ⟨.left rfl, rfl⟩
      · cases step
  | callback regs callargs =>
      obtain rfl := Option.some.inj step
      rw [calls_cons_other rfl]
      exact ⟨.callback, rfl⟩
  | rawCallback =>
      obtain rfl := Option.some.inj step
      rw [calls_cons_other rfl]
      exact ⟨.unseen, rfl⟩
  | callbackReturn =>
      simp only [Session.Step, Session.step] at step
      split at step
      · rename_i rest hstack
        obtain rfl := Option.some.inj step
        rw [calls_of_stack_eq hstack, calls_cons_other rfl]
        exact ⟨.unseen, rfl⟩
      · cases step
  | installReturn =>
      simp only [Session.Step, Session.step] at step
      split at step
      · rename_i rest hstack
        obtain rfl := Option.some.inj step
        rw [calls_of_stack_eq hstack, calls_cons_other rfl]
        exact ⟨.unseen, rfl⟩
      · cases step

-- What the driver's machine has under way, as a session sees it.
def Frame.open : Frame → Open
  | .call _ _ => .fmpdrvCall
  | .install _ _ => .install
  | .callback => .callback

def Machine.session (s : Machine) : Session := ⟨s.recorder, s.stack.map Frame.open⟩

-- Every append that the action makes stores the whole of its record.
def Action.Appends : Action → Prop
  | .appCall _ _ append append' => append = .full ∧ append' = .full
  | .invoke _ _ append append' => append = .full ∧ append' = .full
  | .driverReturn _ append => append = .full
  | _ => True

def Machine.deed (s : Machine) : Action → Option Deed
  | .appCall regs filename _ _ => some (.fmpdrvCall regs filename)
  | .invoke regs callargs _ _ =>
      match s.driver with
      | some (.cbshim, _) => some (.callback regs callargs)
      | _ => some .rawCallback
  | .perform _ => none
  | .callbackReturn => some .callbackReturn
  | .driverReturn regs _ =>
      match s.stack with
      | .install _ _ :: _ => some .installReturn
      | _ => some (.fmpdrvReturn regs)

def AppendingStep (s : Machine) (action : Action) (next : Machine) : Prop :=
  Step s action next ∧ action.Appends

theorem session_store (s : Machine) (regs : Regs) (clear : Bool) :
    (s.store regs clear).session = s.session := by
  unfold Machine.store
  split
  · rfl
  · split
    · rfl
    · rfl

-- The driver's machine is one of those that make a session.
theorem session_step {s next : Machine} {action : Action} (step : AppendingStep s action next) :
    (∃ deed, s.deed action = some deed ∧ s.session.Step deed next.session) ∨
      (s.deed action = none ∧ next.session = s.session) := by
  obtain ⟨step, happends⟩ := step
  cases moves_of_step step with
  | entered _ =>
      obtain ⟨rfl, rfl⟩ := happends
      exact Or.inl ⟨_, rfl, rfl⟩
  | @invoked cb type regs callargs append append' hdriver _ =>
      obtain ⟨rfl, rfl⟩ := happends
      refine Or.inl ?_
      simp only [Machine.deed, hdriver]
      cases cb with
      | cbshim => exact ⟨_, rfl, rfl⟩
      | app ptr => exact ⟨_, rfl, rfl⟩
  | performed hstack =>
      refine Or.inr ⟨rfl, ?_⟩
      rw [session_store]
      simp only [Machine.session, hstack, List.map_cons, Frame.open]
  | installed hstack =>
      refine Or.inr ⟨rfl, ?_⟩
      simp only [Machine.session, hstack, List.map_cons, Frame.open]
  | resumed hstack =>
      refine Or.inl ⟨_, rfl, ?_⟩
      simp only [Session.Step, Session.step, Machine.session, hstack, List.map_cons, Frame.open]
  | exited hstack hexit =>
      obtain rfl := happends
      refine Or.inl ?_
      simp only [Machine.deed, hstack]
      refine ⟨_, rfl, ?_⟩
      simp only [Session.Step, Session.step, Machine.session, hstack, List.map_cons, Frame.open, hexit]
  | exitedArmed hstack hexit =>
      obtain rfl := happends
      refine Or.inl ?_
      simp only [Machine.deed, hstack]
      refine ⟨_, rfl, ?_⟩
      simp only [Session.Step, Session.step, Machine.session, hstack, List.map_cons, Frame.open, hexit]
  | installReturned hstack =>
      refine Or.inl ?_
      simp only [Machine.deed, hstack]
      refine ⟨_, rfl, ?_⟩
      simp only [Session.Step, Session.step, Machine.session, hstack, List.map_cons, Frame.open]

-- The events that an action has the recorder see.
def Machine.events (s : Machine) (action : Action) : List Event :=
  (s.deed action).elim [] Deed.events

theorem follows_of_appendingStep {s next : Machine} {action : Action}
    (step : AppendingStep s action next) :
    Follows s.session.calls (s.events action) next.session.calls ∧
      next.recorder = (s.events action).foldl (record .full .full) s.recorder := by
  rcases session_step step with ⟨deed, hdeed, hstep⟩ | ⟨hdeed, hsession⟩
  · rw [Machine.events, hdeed]
    exact follows_of_step hstep
  · have hrecorder : next.recorder = s.recorder := congrArg Session.recorder hsession
    rw [Machine.events, hdeed, hsession, hrecorder]
    exact ⟨.unseen, rfl⟩

end ReelMagic.Recorder
