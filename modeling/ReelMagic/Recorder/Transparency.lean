import ReelMagic.Recorder.Hook

namespace ReelMagic.Recorder

open Library

abbrev NULL : FarPtr := ⟨0, 0⟩

-- The driver without the recorder: the callback it holds, and the call it is in, if any.
structure Plain where
  driver : Option (FarPtr × UInt16)
  call : Option (Regs × Bool)

def Plain.start : Plain := ⟨none, none⟩

def Plain.store (p : Plain) (regs : Regs) (clear : Bool) : Plain :=
  if regs.bh = 0x0B then { p with driver := some (regs.ptr, regs.cx) }
  else if regs.bh = 0x0E ∧ clear then { p with driver := none }
  else p

-- The calls of the application, one after the other.
def Plain.step (p : Plain) : Action → Option Plain
  | .appCall regs _ _ _ => if p.call = none then some { p with call := some (regs, false) } else none
  | .perform clear =>
      match p.call with
      | some (regs, false) => some ({ p with call := some (regs, true) }.store regs clear)
      | _ => none
  | .driverReturn _ _ =>
      match p.call with
      | some (_, true) => some { p with call := none }
      | _ => none
  | _ => none

-- All that a step can do without the recorder.
inductive Plain.Moves (p : Plain) : Action → Plain → Prop
  | entered {regs : Regs} {filename : Vector UInt8 128} {append append' : Append} :
      p.call = none →
        Plain.Moves p (.appCall regs filename append append') { p with call := some (regs, false) }
  | performed {regs : Regs} {clear : Bool} :
      p.call = some (regs, false) →
        Plain.Moves p (.perform clear) ({ p with call := some (regs, true) }.store regs clear)
  | exited {callRegs regs : Regs} {append : Append} :
      p.call = some (callRegs, true) →
        Plain.Moves p (.driverReturn regs append) { p with call := none }

theorem Plain.moves_of_step {p next : Plain} {action : Action} (step : p.step action = some next) :
    p.Moves action next := by
  cases action with
  | appCall regs filename append append' =>
      simp only [Plain.step] at step
      split at step
      · rename_i hcall
        obtain rfl := Option.some.inj step
        exact .entered hcall
      · cases step
  | perform clear =>
      simp only [Plain.step] at step
      split at step
      · rename_i regs hcall
        obtain rfl := Option.some.inj step
        exact .performed hcall
      · cases step
  | driverReturn regs append =>
      simp only [Plain.step] at step
      split at step
      · rename_i callRegs hcall
        obtain rfl := Option.some.inj step
        exact .exited hcall
      · cases step
  | invoke regs callargs append append' => cases step
  | callbackReturn => cases step

-- Where control goes when a callback falls due. The driver calls no NULL pointer.
def Plain.reached (p : Plain) : Option FarPtr :=
  match p.driver with
  | some (ptr, _) => if ptr = NULL then none else some ptr
  | none => none

-- With the recorder it may go through the shim, which jumps to `forwardcb` whatever it is.
def Machine.reached (s : Machine) : Option FarPtr :=
  match s.driver with
  | some (.app ptr, _) => if ptr = NULL then none else some ptr
  | some (.cbshim, _) => some s.recorder.forwardcb
  | none => none

def Machine.callback (s : Machine) (regs : Regs) (callargs : CallArgs) (append append' : Append) :
    Machine :=
  match s.driver with
  | some (.cbshim, _) =>
      { s with recorder := recordCallbackEnter regs callargs append append' s.recorder }
  | _ => s

-- The same application and driver, without the recorder and with it.
structure Both where
  plain : Plain
  recorded : Machine

def Both.start : Both := ⟨.start, .start⟩

-- A step of both, a step of the call that the recorder makes, or a callback that falls due, with
-- the addresses that are reached without the recorder and with it.
inductive Turn where
  | both (action : Action)
  | recorder (action : Action)
  | due (regs : Regs) (callargs : CallArgs) (append append' : Append) (plain recorded : Option FarPtr)

inductive Turns (b : Both) : Turn → Both → Prop
  | both {action : Action} {plain : Plain} {recorded : Machine} :
      b.plain.step action = some plain → b.recorded.step action = some recorded →
        Turns b (.both action) ⟨plain, recorded⟩
  | perform {type : UInt16} {done clear : Bool} {rest : List Frame} {recorded : Machine} :
      b.recorded.stack = .install type done :: rest →
        b.recorded.step (.perform clear) = some recorded →
          Turns b (.recorder (.perform clear)) ⟨b.plain, recorded⟩
  | driverReturn {type : UInt16} {done : Bool} {rest : List Frame} {regs : Regs} {append : Append}
      {recorded : Machine} :
      b.recorded.stack = .install type done :: rest →
        b.recorded.step (.driverReturn regs append) = some recorded →
          Turns b (.recorder (.driverReturn regs append)) ⟨b.plain, recorded⟩
  | due {regs : Regs} {callargs : CallArgs} {append append' : Append} :
      Turns b (.due regs callargs append append' b.plain.reached b.recorded.reached)
        ⟨b.plain, b.recorded.callback regs callargs append append'⟩

def SameReached : Turn → Prop
  | .due _ _ _ _ plain recorded => plain = recorded
  | _ => True

-- No callback falls due where the application has registered NULL and the recorder has had its
-- shim stored for it.
def NotForNull (b : Both) : Turn → Prop
  | .due _ _ _ _ _ _ =>
      ∀ type type', b.plain.driver = some (NULL, type) → b.recorded.driver ≠ some (.cbshim, type')
  | _ => True

-- What the driver holds in the two runs.
inductive Held (forwardcb : FarPtr) : Option (FarPtr × UInt16) → Option (CbPtr × UInt16) → Prop
  | none : Held forwardcb none none
  | app {ptr : FarPtr} {type type' : UInt16} :
      Held forwardcb (some (ptr, type)) (some (.app ptr, type'))
  | cbshim {type type' : UInt16} : Held forwardcb (some (forwardcb, type)) (some (.cbshim, type'))

-- The phases of a call. A registration is noted, stored, and then followed by a call of the
-- recorder's own.
inductive Linked (hook : Hook) (plain : Option (FarPtr × UInt16)) (driver : Option (CbPtr × UInt16)) :
    Option (Regs × Bool) → List Frame → Prop
  | idle : hook.installOnNextExit = false → Held hook.forwardcb plain driver →
      Linked hook plain driver none []
  | registering {regs : Regs} : regs.bh = 0x0B → hook.installOnNextExit = true →
      hook.actualCb = regs.ptr → Held hook.forwardcb plain driver →
        Linked hook plain driver (some (regs, false)) [.call regs false]
  | calling {regs : Regs} : regs.bh ≠ 0x0B → hook.installOnNextExit = false →
      Held hook.forwardcb plain driver →
        Linked hook plain driver (some (regs, false)) [.call regs false]
  | registered {regs : Regs} {type type' : UInt16} : hook.installOnNextExit = true →
      plain = some (hook.actualCb, type) → driver = some (.app hook.actualCb, type') →
        Linked hook plain driver (some (regs, true)) [.call regs true]
  | called {regs : Regs} : hook.installOnNextExit = false → Held hook.forwardcb plain driver →
      Linked hook plain driver (some (regs, true)) [.call regs true]
  | installing {type type' type'' : UInt16} : hook.installOnNextExit = false →
      plain = some (hook.forwardcb, type') → driver = some (.app hook.forwardcb, type'') →
        Linked hook plain driver none [.install type false]
  | installed {type : UInt16} : hook.installOnNextExit = false → Held hook.forwardcb plain driver →
      Linked hook plain driver none [.install type true]

def Both.Linked (b : Both) : Prop :=
  Recorder.Linked b.recorded.recorder.hook b.plain.driver b.recorded.driver b.plain.call
    b.recorded.stack

theorem Linked.held {hook : Hook} {plain : Option (FarPtr × UInt16)}
    {driver : Option (CbPtr × UInt16)} {call : Option (Regs × Bool)} {stack : List Frame}
    (h : Linked hook plain driver call stack) : Held hook.forwardcb plain driver := by
  cases h with
  | idle _ hheld => exact hheld
  | registering _ _ _ hheld => exact hheld
  | calling _ _ hheld => exact hheld
  | registered _ hplain hdriver =>
      rw [hplain, hdriver]
      exact .app
  | called _ hheld => exact hheld
  | installing _ hplain hdriver =>
      rw [hplain, hdriver]
      exact .app
  | installed _ hheld => exact hheld

section

variable {hook : Hook} {plain : Option (FarPtr × UInt16)} {driver : Option (CbPtr × UInt16)}
  {call : Option (Regs × Bool)} {regs : Regs} {type : UInt16} {stack rest : List Frame}

theorem linked_appCall (h : Linked hook plain driver none []) :
    Linked (if regs.bh = 0x0B then ⟨true, regs.ptr, regs.cx, hook.forwardcb⟩ else hook) plain driver
      (some (regs, false)) [.call regs false] := by
  cases h with
  | idle hflag hheld =>
      by_cases hbh : regs.bh = 0x0B
      · rw [if_pos hbh]
        exact .registering hbh rfl rfl hheld
      · rw [if_neg hbh]
        exact .calling hbh hflag hheld

-- Both drivers store what the application registers.
theorem linked_store (h : Linked hook plain driver (some (regs, false)) [.call regs false])
    (hbh : regs.bh = 0x0B) :
    Linked hook (some (regs.ptr, regs.cx)) (some (.app regs.ptr, regs.cx)) (some (regs, true))
      [.call regs true] := by
  cases h with
  | registering _ hflag hptr _ =>
      rw [← hptr]
      exact .registered hflag rfl rfl
  | calling hother => exact absurd hbh hother

-- Any other call leaves both callbacks alone, or takes both away.
theorem linked_perform {plain' : Option (FarPtr × UInt16)} {driver' : Option (CbPtr × UInt16)}
    (h : Linked hook plain driver (some (regs, false)) [.call regs false]) (hbh : regs.bh ≠ 0x0B)
    (hdriver : plain' = plain ∧ driver' = driver ∨ plain' = none ∧ driver' = none) :
    Linked hook plain' driver' (some (regs, true)) [.call regs true] := by
  cases h with
  | registering hregister => exact absurd hregister hbh
  | calling _ hflag hheld =>
      rcases hdriver with ⟨rfl, rfl⟩ | ⟨rfl, rfl⟩
      · exact .called hflag hheld
      · exact .called hflag .none

theorem linked_exit_armed (h : Linked hook plain driver (some (regs, true)) [.call regs true])
    (hflag : hook.installOnNextExit = true) :
    Linked ⟨false, hook.actualCb, hook.actualCbType, hook.actualCb⟩ plain driver none
      [.install type false] := by
  cases h with
  | registered _ hplain hdriver => exact .installing rfl hplain hdriver
  | called hplain => exact Bool.noConfusion (hplain.symm.trans hflag)

theorem linked_exit (h : Linked hook plain driver (some (regs, true)) [.call regs true])
    (hflag : hook.installOnNextExit = false) : Linked hook plain driver none [] := by
  cases h with
  | registered harmed => exact Bool.noConfusion (hflag.symm.trans harmed)
  | called _ hheld => exact .idle hflag hheld

-- The recorder's own call takes the place of a pointer that it forwards to.
theorem linked_install {type' : UInt16} (h : Linked hook plain driver call (.install type false :: rest)) :
    Linked hook plain (some (.cbshim, type')) call (.install type true :: rest) := by
  cases h with
  | installing hflag hplain _ =>
      rw [hplain]
      exact .installed hflag .cbshim

theorem linked_install_return (h : Linked hook plain driver call (.install type true :: rest)) :
    Linked hook plain driver call rest := by
  cases h with
  | installed hflag hheld => exact .idle hflag hheld

-- A call of the application is the only thing under way.
theorem Linked.stack_eq_call {done : Bool} (h : Linked hook plain driver (some (regs, done)) stack) :
    stack = [.call regs done] := by
  cases h with
  | registering | calling | registered | called => rfl

theorem Linked.callback_notMem (h : Linked hook plain driver call stack) : .callback ∉ stack := by
  cases h with
  | idle => exact List.not_mem_nil
  | registering | calling | registered | called | installing | installed => simp

end

theorem Both.stack_eq_nil {b : Both} (h : b.Linked) (happ : b.recorded.appRuns = true) :
    b.recorded.stack = [] := by
  have hnot := Recorder.Linked.callback_notMem h
  unfold Machine.appRuns at happ
  split at happ
  · assumption
  · rename_i rest hstack
    rw [hstack] at hnot
    exact absurd List.mem_cons_self hnot
  · cases happ

-- The same call of the application on both sides.
theorem linked_both {b : Both} {plain : Plain} {recorded : Machine} {action : Action}
    (h : b.Linked) (hplain : b.plain.step action = some plain)
    (hrecorded : b.recorded.step action = some recorded) : Both.Linked ⟨plain, recorded⟩ := by
  have hmoves := moves_of_step hrecorded
  have hlinked := h
  unfold Both.Linked at h ⊢
  cases Plain.moves_of_step hplain with
  | entered hcall =>
      cases hmoves with
      | entered happ =>
          have hstack := Both.stack_eq_nil hlinked happ
          rw [hcall, hstack] at h
          dsimp only
          rw [recordFmpdrvCallEnter_hook, hstack]
          exact linked_appCall h
  | @performed regs clear hcall =>
      rw [hcall] at h
      have hstack := h.stack_eq_call
      rw [hstack] at h
      cases hmoves with
      | @performed regs' rest _ hstack' =>
          obtain ⟨hframe, rfl⟩ := List.cons.inj (hstack.symm.trans hstack')
          obtain ⟨rfl, _⟩ := Frame.call.inj hframe
          by_cases hbh : regs.bh = 0x0B
          · rw [Plain.store, Machine.store, if_pos hbh, if_pos hbh]
            exact linked_store h hbh
          · rw [Plain.store, Machine.store, if_neg hbh, if_neg hbh]
            split
            · exact linked_perform h hbh (Or.inr ⟨rfl, rfl⟩)
            · exact linked_perform h hbh (Or.inl ⟨rfl, rfl⟩)
      | installed hstack' => cases hstack.symm.trans hstack'
  | exited hcall =>
      rw [hcall] at h
      have hstack := h.stack_eq_call
      rw [hstack] at h
      cases hmoves with
      | exited hstack' hexit =>
          obtain ⟨_, rfl⟩ := List.cons.inj (hstack.symm.trans hstack')
          rcases recordFmpdrvCallExit_hook hexit with ⟨_, hinstall, _⟩ | ⟨hflag, _, hhook⟩
          · cases hinstall
          · dsimp only
            rw [hhook]
            exact linked_exit h hflag
      | exitedArmed hstack' hexit =>
          obtain ⟨_, rfl⟩ := List.cons.inj (hstack.symm.trans hstack')
          rcases recordFmpdrvCallExit_hook hexit with ⟨hflag, hinstall, hhook⟩ | ⟨_, hinstall, _⟩
          · dsimp only
            rw [hhook]
            exact linked_exit_armed h hflag
          · cases hinstall
      | installReturned hstack' => cases hstack.symm.trans hstack'

theorem linked_start : Both.start.Linked := .idle rfl .none

theorem linked_step {b next : Both} {turn : Turn} (h : b.Linked) (hturn : Turns b turn next) :
    next.Linked := by
  cases hturn with
  | both hplain hrecorded => exact linked_both h hplain hrecorded
  | perform hstack hrecorded =>
      have hmoves := moves_of_step hrecorded
      unfold Both.Linked at h ⊢
      rw [hstack] at h
      cases hmoves with
      | performed hstack' => cases hstack.symm.trans hstack'
      | installed hstack' =>
          obtain ⟨hframe, rfl⟩ := List.cons.inj (hstack.symm.trans hstack')
          obtain ⟨rfl, rfl⟩ := Frame.install.inj hframe
          exact linked_install h
  | driverReturn hstack hrecorded =>
      have hmoves := moves_of_step hrecorded
      unfold Both.Linked at h ⊢
      cases hmoves with
      | exited hstack' => cases hstack.symm.trans hstack'
      | exitedArmed hstack' => cases hstack.symm.trans hstack'
      | installReturned hstack' =>
          rw [hstack'] at h
          exact linked_install_return h
  | @due regs callargs append append' =>
      unfold Both.Linked at h ⊢
      unfold Machine.callback
      split
      · dsimp only
        rw [recordCallbackEnter_hook]
        exact h
      · exact h

-- What falls due reaches the same address unless the shim stands for NULL.
theorem Held.reached_eq_iff {b : Both} (h : Held b.recorded.recorder.forwardcb b.plain.driver b.recorded.driver) :
    b.plain.reached = b.recorded.reached ↔
      ∀ type type', b.plain.driver = some (NULL, type) → b.recorded.driver ≠ some (.cbshim, type') := by
  unfold Plain.reached Machine.reached
  generalize b.plain.driver = plain at h ⊢
  generalize b.recorded.driver = driver at h ⊢
  cases h with
  | none => simp
  | app => simp
  | cbshim =>
      by_cases hnull : b.recorded.recorder.forwardcb = NULL
      · simp [hnull]
      · simp [hnull]

-- Control reaches the same addresses with the recorder and without it exactly as long as no
-- callback falls due where the shim stands for NULL.
theorem callbacks_reach_iff (turns : List Turn) :
    Run.Always Both.start Turns turns (fun _ _ turn _ => SameReached turn) ↔
      Run.Always Both.start Turns turns (fun _ b turn _ => NotForNull b turn) := by
  refine Run.always_congr ?_
  intro before b turn next run hturn
  have hlinked : b.Linked := by
    refine run.invariant (fun _ b => b.Linked) linked_start ?_
    intro _ b turn next h hturn
    exact linked_step h hturn
  cases hturn with
  | both => exact Iff.rfl
  | perform => exact Iff.rfl
  | driverReturn => exact Iff.rfl
  | due => exact Held.reached_eq_iff hlinked.held

section Examples

-- The application registers NULL, and the recorder has its shim stored at the exit.
def nullRegistration : List Turn :=
  [.both (appCallOf 0 0x0B00 1 0), .both (.perform false), .both plainReturn,
    .recorder (.perform false), .recorder plainReturn]

def dueOf (plain recorded : Option FarPtr) : Turn :=
  .due ⟨0, 0, 0, 0⟩ ⟨0, 0, 0, 0⟩ .full .full plain recorded

-- The driver, which would call nothing, calls the shim, and the shim jumps to 0000h:0000h.
theorem null_registration_jumps :
    ¬∀ turns, Run.Always Both.start Turns turns fun _ _ turn _ => SameReached turn := by
  intro h
  have entered : Run Both.start Turns (nullRegistration.take 1) _ := .snoc .nil (.both rfl rfl)
  have stored : Run Both.start Turns (nullRegistration.take 2) _ := .snoc entered (.both rfl rfl)
  have left : Run Both.start Turns (nullRegistration.take 3) _ := .snoc stored (.both rfl rfl)
  have installed : Run Both.start Turns (nullRegistration.take 4) _ :=
    .snoc left (.perform rfl rfl)
  have run : Run Both.start Turns nullRegistration _ := .snoc installed (.driverReturn rfl rfl)
  have hsame := (h (nullRegistration ++ [dueOf none (some NULL)])).last run .due
  cases hsame

end Examples

end ReelMagic.Recorder
