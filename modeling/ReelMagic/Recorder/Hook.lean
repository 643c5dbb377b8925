import ReelMagic.Recorder.Driver

namespace ReelMagic.Recorder

open Library

-- The static variables that the registration of callbacks is about.
structure Hook where
  installOnNextExit : Bool
  actualCb : FarPtr
  actualCbType : UInt16
  forwardcb : FarPtr

def Statics.hook (s : Statics) : Hook :=
  ⟨s.installCbRecorderOnNextExit, s.actualCb, s.actualCbType, s.forwardcb⟩

@[simp] theorem writeEntryBufToLog_hook (words : Nat) (append : Append) (s : Statics) :
    (writeEntryBufToLog words append s).hook = s.hook := by
  cases append <;> rfl

theorem recordFmpdrvCallEnter_hook (regs : Regs) (filename : Vector UInt8 128)
    (append append' : Append) (s : Statics) :
    (recordFmpdrvCallEnter regs filename append append' s).hook =
      if regs.bh = 0x0B then ⟨true, regs.ptr, regs.cx, s.hook.forwardcb⟩ else s.hook := by
  have hwrite := writeEntryBufToLog_hook 5 append (setEntryBuf 0x0000 regs s)
  unfold recordFmpdrvCallEnter
  dsimp only
  split
  · rename_i h
    have hbh : regs.bh ≠ 0x0B := by rw [Regs.bh, h]; decide
    rw [if_neg hbh, writeEntryBufToLog_hook]
    exact hwrite
  · rename_i h
    have hbh : regs.bh = 0x0B := h
    rw [if_pos hbh]
    exact congrArg (fun hook : Hook => Hook.mk true regs.ptr regs.cx hook.forwardcb) hwrite
  · rename_i h
    have hbh : regs.bh ≠ 0x0B := h
    rw [if_neg hbh]
    exact hwrite

-- The exit asks for the shim to be installed exactly when it finds the flag set.
theorem recordFmpdrvCallExit_hook {regs : Regs} {append : Append} {s recorder : Statics}
    {install : Option UInt16} (h : recordFmpdrvCallExit regs append s = (recorder, install)) :
    (s.hook.installOnNextExit = true ∧ install = some s.hook.actualCbType ∧
      recorder.hook = ⟨false, s.hook.actualCb, s.hook.actualCbType, s.hook.actualCb⟩) ∨
    (s.hook.installOnNextExit = false ∧ install = none ∧ recorder.hook = s.hook) := by
  have hwrite := writeEntryBufToLog_hook 5 append (setEntryBuf 0xFFFF regs s)
  have hflag := congrArg Hook.installOnNextExit hwrite
  unfold recordFmpdrvCallExit at h
  dsimp only at h
  split at h
  · rename_i ht
    obtain ⟨rfl, rfl⟩ := Prod.mk.inj h
    refine Or.inl ⟨hflag.symm.trans ht, congrArg some (congrArg Hook.actualCbType hwrite), ?_⟩
    exact congrArg (fun hook : Hook => Hook.mk false hook.actualCb hook.actualCbType hook.actualCb)
      hwrite
  · rename_i hf
    obtain ⟨rfl, rfl⟩ := Prod.mk.inj h
    exact Or.inr ⟨hflag.symm.trans (Bool.eq_false_iff.mpr hf), rfl, hwrite⟩

theorem recordCallbackEnter_hook (regs : Regs) (callargs : CallArgs) (append append' : Append)
    (s : Statics) : (recordCallbackEnter regs callargs append append' s).hook = s.hook := by
  have hwrite := writeEntryBufToLog_hook 5 append (setEntryBuf 0x0B00 regs s)
  unfold recordCallbackEnter
  rw [writeEntryBufToLog_hook]
  exact hwrite

-- The calls under way. Callbacks play no part in what is pending.
def Frame.isCall : Frame → Bool
  | .callback => false
  | _ => true

def Machine.calls (s : Machine) : List Frame := s.stack.filter Frame.isCall

def NoneRegistering (calls : List Frame) : Prop := ∀ frame ∈ calls, ¬frame.Registering

-- Whatever installation is pending is of this type.
def InstallsAs (type : UInt16) (calls : List Frame) : Prop :=
  ∀ other, .install other false ∈ calls → other = type

-- The shim stands for the pointer accepted last, or its installation is pending.
def Installed (hook : Hook) (driver : Option (CbPtr × UInt16))
    (accepted : Option (FarPtr × UInt16)) (calls : List Frame) : Prop :=
  match accepted with
  | none => driver = none ∧ ∀ type, .install type false ∉ calls
  | some (ptr, type) =>
      hook.forwardcb = ptr ∧ InstallsAs type calls ∧
        (driver = none ∨ driver = some (.cbshim, type) ∨ .install type false ∈ calls)

-- A registration goes through three phases: the recorder has noted it, the driver has
-- stored it, and the recorder has seen to its shim.
inductive Hooked (hook : Hook) (driver : Option (CbPtr × UInt16))
    (accepted : Option (FarPtr × UInt16)) : List Frame → Prop
  | registering {regs : Regs} {rest : List Frame} :
      regs.bh = 0x0B → NoneRegistering rest → InstallsAs regs.cx rest →
        hook.installOnNextExit = true → hook.actualCb = regs.ptr → hook.actualCbType = regs.cx →
          Hooked hook driver accepted (.call regs false :: rest)
  | registered {regs : Regs} {done : Bool} {rest : List Frame} :
      NoneRegistering (.call regs done :: rest) → InstallsAs hook.actualCbType rest →
        hook.installOnNextExit = true → accepted = some (hook.actualCb, hook.actualCbType) →
          Hooked hook driver accepted (.call regs done :: rest)
  | settled {calls : List Frame} :
      NoneRegistering calls → hook.installOnNextExit = false →
        Installed hook driver accepted calls → Hooked hook driver accepted calls

section

variable {hook : Hook} {driver : Option (CbPtr × UInt16)} {accepted : Option (FarPtr × UInt16)}
  {regs : Regs} {rest calls : List Frame} {type : UInt16} {done : Bool}

theorem installsAs_call : InstallsAs type (.call regs done :: rest) ↔ InstallsAs type rest := by
  simp [InstallsAs]

theorem noneRegistering_cons {frame : Frame} :
    NoneRegistering (frame :: rest) ↔ ¬frame.Registering ∧ NoneRegistering rest :=
  List.forall_mem_cons

-- Only the pending installations of the calls matter, and a callback may be taken away.
theorem Installed.mono {driver' : Option (CbPtr × UInt16)}
    (h : Installed hook driver accepted calls)
    (hsame : ∀ type, .install type false ∈ rest ↔ .install type false ∈ calls)
    (hdriver : driver' = driver ∨ driver' = none) : Installed hook driver' accepted rest := by
  cases accepted with
  | none =>
      obtain ⟨hempty, hno⟩ := h
      refine ⟨?_, fun type hmem => hno type ((hsame type).mp hmem)⟩
      rcases hdriver with rfl | rfl
      · exact hempty
      · rfl
  | some accepted =>
      obtain ⟨hptr, hinstalls, hshim⟩ := h
      refine ⟨hptr, fun other hmem => hinstalls other ((hsame other).mp hmem), ?_⟩
      rcases hdriver with rfl | rfl
      · rcases hshim with hshim | hshim | hshim
        · exact Or.inl hshim
        · exact Or.inr (Or.inl hshim)
        · exact Or.inr (Or.inr ((hsame _).mpr hshim))
      · exact Or.inl rfl

theorem hooked_appCall (h : Hooked hook driver accepted calls) (hnone : NoneRegistering calls)
    (hinstalls : regs.bh = 0x0B → InstallsAs regs.cx calls) :
    Hooked (if regs.bh = 0x0B then ⟨true, regs.ptr, regs.cx, hook.forwardcb⟩ else hook) driver
      accepted (.call regs false :: calls) := by
  by_cases hbh : regs.bh = 0x0B
  · rw [if_pos hbh]
    exact .registering hbh hnone (hinstalls hbh) rfl rfl rfl
  · rw [if_neg hbh]
    have hnone' : NoneRegistering (.call regs false :: calls) := noneRegistering_cons.mpr ⟨hbh, hnone⟩
    cases h with
    | registering hbh' => exact absurd hbh' (noneRegistering_cons.mp hnone).1
    | registered _ hrest hflag haccepted =>
        exact .registered hnone' (installsAs_call.mpr hrest) hflag haccepted
    | settled _ hflag hinstalled =>
        exact .settled hnone' hflag (hinstalled.mono (by simp) (Or.inl rfl))

-- The driver stores what the application registers.
theorem hooked_store (h : Hooked hook driver accepted (.call regs false :: rest))
    (hbh : regs.bh = 0x0B) :
    Hooked hook (some (.app regs.ptr, regs.cx)) (some (regs.ptr, regs.cx))
      (.call regs true :: rest) := by
  have hnot : ¬NoneRegistering (.call regs false :: rest) :=
    fun hnone => (noneRegistering_cons.mp hnone).1 hbh
  cases h with
  | registering _ hnone hinstalls hflag hptr htype =>
      refine .registered (noneRegistering_cons.mpr ⟨id, hnone⟩) ?_ hflag ?_
      · rw [htype]
        exact hinstalls
      · rw [hptr, htype]
  | registered hnone => exact absurd hnone hnot
  | settled hnone => exact absurd hnone hnot

-- Any other call leaves the callback alone or takes it away.
theorem hooked_perform {driver' : Option (CbPtr × UInt16)}
    (h : Hooked hook driver accepted (.call regs false :: rest)) (hbh : regs.bh ≠ 0x0B)
    (hdriver : driver' = driver ∨ driver' = none) :
    Hooked hook driver' accepted (.call regs true :: rest) := by
  cases h with
  | registering hbh' => exact absurd hbh' hbh
  | registered hnone hrest hflag haccepted =>
      exact .registered (noneRegistering_cons.mpr ⟨id, (noneRegistering_cons.mp hnone).2⟩) hrest
        hflag haccepted
  | settled hnone hflag hinstalled =>
      exact .settled (noneRegistering_cons.mpr ⟨id, (noneRegistering_cons.mp hnone).2⟩) hflag
        (hinstalled.mono (by simp) hdriver)

theorem hooked_install (h : Hooked hook driver accepted (.install type false :: rest)) :
    Hooked hook (some (.cbshim, type)) accepted (.install type true :: rest) := by
  cases h with
  | settled hnone hflag hinstalled =>
      refine .settled (noneRegistering_cons.mpr ⟨id, (noneRegistering_cons.mp hnone).2⟩) hflag ?_
      cases accepted with
      | none => exact absurd List.mem_cons_self (hinstalled.2 type)
      | some accepted =>
          obtain ⟨hptr, hinstalls, _⟩ := hinstalled
          refine ⟨hptr, fun other hmem => hinstalls other ?_, Or.inr (Or.inl ?_)⟩
          · have hrest : .install other false ∈ rest := by simpa using hmem
            exact List.mem_cons_of_mem _ hrest
          · rw [hinstalls type List.mem_cons_self]

-- The exit that finds the flag set belongs to the innermost call, and nothing else is
-- pending by then.
theorem hooked_exit_armed (h : Hooked hook driver accepted (.call regs true :: rest))
    (hflag : hook.installOnNextExit = true) :
    Hooked ⟨false, hook.actualCb, hook.actualCbType, hook.actualCb⟩ driver accepted
      (.install hook.actualCbType false :: rest) := by
  cases h with
  | registered hnone hrest _ haccepted =>
      refine .settled (noneRegistering_cons.mpr ⟨id, (noneRegistering_cons.mp hnone).2⟩) rfl ?_
      rw [haccepted]
      refine ⟨rfl, ?_, Or.inr (Or.inr List.mem_cons_self)⟩
      intro other hmem
      rcases List.mem_cons.mp hmem with h | h
      · exact (Frame.install.inj h).1
      · exact hrest other h
  | settled _ hplain => exact Bool.noConfusion (hplain.symm.trans hflag)

theorem hooked_exit_plain (h : Hooked hook driver accepted (.call regs true :: rest))
    (hflag : hook.installOnNextExit = false) : Hooked hook driver accepted rest := by
  cases h with
  | registered _ _ harmed => exact Bool.noConfusion (hflag.symm.trans harmed)
  | settled hnone _ hinstalled =>
      exact .settled (noneRegistering_cons.mp hnone).2 hflag (hinstalled.mono (by simp) (Or.inl rfl))

theorem hooked_install_return (h : Hooked hook driver accepted (.install type true :: rest)) :
    Hooked hook driver accepted rest := by
  cases h with
  | settled hnone hflag hinstalled =>
      exact .settled (noneRegistering_cons.mp hnone).2 hflag (hinstalled.mono (by simp) (Or.inl rfl))

end

theorem calls_subset {s : Machine} {frame : Frame} (h : frame ∈ s.calls) : frame ∈ s.stack :=
  (List.mem_filter.mp h).1

theorem calls_of_stack {s : Machine} {frame : Frame} {rest : List Frame}
    (h : s.stack = frame :: rest) (hcall : frame.isCall = true) :
    s.calls = frame :: rest.filter Frame.isCall := by
  rw [Machine.calls, h, List.filter_cons_of_pos hcall]

def Machine.Hooked (s : Machine) : Prop :=
  Recorder.Hooked s.recorder.hook s.driver s.accepted s.calls

theorem hooked_step {s next : Machine} {action : Action} (h : s.Hooked)
    (step : SettledStep s action next) : next.Hooked := by
  obtain ⟨step, hsettled⟩ := step
  unfold Machine.Hooked at h ⊢
  cases moves_of_step step with
  | @entered regs filename append append' _ =>
      obtain ⟨hnone, hinstalls⟩ := hsettled
      rw [recordFmpdrvCallEnter_hook]
      exact hooked_appCall h (fun frame hmem => hnone frame (calls_subset hmem))
        (fun hbh type hmem => hinstalls hbh type (calls_subset hmem))
  | @invoked cb _ regs callargs append append' _ _ =>
      have hhook : (if cb = .cbshim then recordCallbackEnter regs callargs append append' s.recorder
          else s.recorder).hook = s.recorder.hook := by
        split
        · exact recordCallbackEnter_hook regs callargs append append' s.recorder
        · rfl
      rw [hhook]
      exact h
  | @performed regs _ _ hstack =>
      rw [calls_of_stack hstack rfl] at h
      by_cases hbh : regs.bh = 0x0B
      · rw [Machine.store, if_pos hbh]
        exact hooked_store h hbh
      · rw [Machine.store, if_neg hbh]
        split
        · exact hooked_perform h hbh (Or.inr rfl)
        · exact hooked_perform h hbh (Or.inl rfl)
  | installed hstack =>
      rw [calls_of_stack hstack rfl] at h
      exact hooked_install h
  | resumed hstack =>
      rw [Machine.calls, hstack] at h
      exact h
  | exited hstack hexit =>
      rw [calls_of_stack hstack rfl] at h
      rcases recordFmpdrvCallExit_hook hexit with ⟨_, hinstall, _⟩ | ⟨hflag, _, hhook⟩
      · cases hinstall
      · rw [hhook]
        exact hooked_exit_plain h hflag
  | exitedArmed hstack hexit =>
      rw [calls_of_stack hstack rfl] at h
      rcases recordFmpdrvCallExit_hook hexit with ⟨hflag, hinstall, hhook⟩ | ⟨_, hinstall, _⟩
      · rw [hhook, Option.some.inj hinstall]
        exact hooked_exit_armed h hflag
      · cases hinstall
  | installReturned hstack =>
      rw [calls_of_stack hstack rfl] at h
      exact hooked_install_return h

theorem hooked_start : Machine.start.Hooked :=
  .settled (fun _ hmem => absurd hmem List.not_mem_nil) rfl ⟨rfl, fun _ => List.not_mem_nil⟩

-- With no call in progress only a settled registration is left.
theorem Machine.Hooked.hooksAccepted {s : Machine} (h : s.Hooked) : HooksAccepted s := by
  intro hstack cb type hdriver
  have hcalls : s.calls = [] := by rw [Machine.calls, hstack]; rfl
  rw [Machine.Hooked, hcalls, hdriver] at h
  generalize s.accepted = accepted at h ⊢
  cases h with
  | settled _ _ hinstalled =>
      cases accepted with
      | none => cases hinstalled.1
      | some accepted =>
          obtain ⟨hptr, _, hshim⟩ := hinstalled
          rcases hshim with hshim | hshim | hshim
          · cases hshim
          · obtain ⟨rfl, rfl⟩ := Prod.mk.inj (Option.some.inj hshim)
            exact ⟨rfl, congrArg (fun ptr => some (ptr, accepted.2)) hptr.symm⟩
          · exact absurd hshim List.not_mem_nil

-- In a run whose calls keep out of unfinished registrations, the driver ends up with the
-- shim, aimed at the pointer it accepted last, under the type given with it.
theorem hooks_accepted {actions : List Action} {s : Machine}
    (run : Run Machine.start SettledStep actions s) : HooksAccepted s := by
  have h : s.Hooked := by
    refine run.invariant (fun _ s => s.Hooked) hooked_start ?_
    intro _ s action next h step
    exact hooked_step h step
  exact h.hooksAccepted

section Examples

def appCallOf (ax bx cx dx : UInt16) : Action :=
  .appCall ⟨ax, bx, cx, dx⟩ (Vector.replicate 128 0) .full .full

def plainReturn : Action := .driverReturn ⟨0, 0, 0, 0⟩ .full

-- A registration of 1000h:0010h, and the installation of the shim at its exit.
def registration : List Action :=
  [appCallOf 0x0010 0x0B00 1 0x1000, .perform false, plainReturn, .perform false, plainReturn]

-- The application plays a handle. The driver invokes the callback meanwhile, and from there the
-- application registers 1000h:0020h in its place.
def registrationInCallback : List Action :=
  [appCallOf 1 0x0301 0 0, .invoke ⟨0, 0, 0, 0⟩ ⟨0, 0, 0, 0⟩ .full .full,
    appCallOf 0x0020 0x0B00 1 0x1000, .perform false, plainReturn, .perform false, plainReturn,
    .callbackReturn, .perform false, plainReturn]

-- Without calls of the application there is nothing to settle.
theorem settledRun_append {actions later : List Action} {s next : Machine}
    (run : Run Machine.start SettledStep actions s) (hsettled : ∀ action ∈ later, ∀ s, Settled s action)
    (h : later.foldlM Machine.step s = some next) :
    Run Machine.start SettledStep (actions ++ later) next := by
  induction later generalizing actions s with
  | nil =>
      obtain rfl := Option.some.inj h
      rw [List.append_nil]
      exact run
  | cons action later ih =>
      obtain ⟨hfirst, hlater⟩ := List.forall_mem_cons.mp hsettled
      rw [List.foldlM_cons] at h
      obtain ⟨s', hstep, hrest⟩ := Option.bind_eq_some_iff.mp h
      have hrun := ih (run.snoc ⟨hstep, hfirst s⟩) hlater hrest
      rw [List.append_assoc] at hrun
      exact hrun

theorem hooks_accepted_registration :
    ∃ s, Run Machine.start SettledStep (registration ++ registrationInCallback) s ∧
      s.stack = [] ∧ s.driver = some (.cbshim, 1) ∧ s.accepted = some (⟨0x1000, 0x0020⟩, 1) ∧
        HooksAccepted s := by
  have called : Run Machine.start SettledStep (registration.take 1) _ :=
    .snoc .nil ⟨rfl, fun _ hmem => absurd hmem List.not_mem_nil,
      fun _ _ hmem => absurd hmem List.not_mem_nil⟩
  have registered : Run Machine.start SettledStep registration _ :=
    settledRun_append called (by simp [plainReturn, Settled]) rfl
  have played : Run Machine.start SettledStep (registration ++ registrationInCallback.take 1) _ :=
    .snoc registered ⟨rfl, fun _ hmem => absurd hmem List.not_mem_nil,
      fun _ _ hmem => absurd hmem List.not_mem_nil⟩
  have invoked : Run Machine.start SettledStep (registration ++ registrationInCallback.take 2) _ :=
    .snoc played ⟨rfl, trivial⟩
  have hplaying : Regs.bh ⟨1, 0x0301, 0, 0⟩ ≠ 0x0B := by decide
  have hpending : ∀ type, .install type false ∉ [Frame.callback, .call ⟨1, 0x0301, 0, 0⟩ false] := by
    simp
  have reentered : Run Machine.start SettledStep (registration ++ registrationInCallback.take 3) _ :=
    .snoc invoked ⟨rfl, List.forall_mem_cons.mpr ⟨id, List.forall_mem_singleton.mpr hplaying⟩,
      fun _ type hmem => absurd hmem (hpending type)⟩
  have run : Run Machine.start SettledStep (registration ++ registrationInCallback.take 3 ++
      registrationInCallback.drop 3) _ :=
    settledRun_append reentered (by simp [registrationInCallback, plainReturn, Settled]) rfl
  exact ⟨_, run, rfl, rfl, rfl, hooks_accepted run⟩

-- 1000h:0020h is registered next. Before it is stored, the driver invokes the callback, and
-- the application makes another call from there.
def nestedRegistration : List Action :=
  registration ++
    [appCallOf 0x0020 0x0B00 1 0x1000,
      .invoke ⟨0, 0, 0, 0⟩ ⟨0, 0, 0, 0⟩ .full .full,
      appCallOf 0 0x0200 0 0, .perform false, plainReturn, .perform false, plainReturn,
      .callbackReturn, .perform false, plainReturn]

-- The exit of that other call takes the flag, so the driver is left with the raw pointer.
theorem nested_call_loses_hook :
    ¬∀ actions s, (∀ action ∈ actions, RegistersNonNull action) →
      Run Machine.start Step actions s → HooksAccepted s := by
  intro h
  obtain ⟨s, hs⟩ : ∃ s, nestedRegistration.foldlM Machine.step .start = some s := ⟨_, rfl⟩
  have hstack : some s.stack = some [] := (congrArg (Option.map Machine.stack) hs).symm.trans rfl
  have hdriver : some s.driver = some (some (.app ⟨0x1000, 0x0020⟩, 1)) :=
    (congrArg (Option.map Machine.driver) hs).symm.trans rfl
  have hnonNull : ∀ action ∈ nestedRegistration, RegistersNonNull action := by
    have hbh : Regs.bh ⟨0, 0x0200, 0, 0⟩ ≠ 0x0B := by decide
    simp [nestedRegistration, registration, appCallOf, plainReturn, RegistersNonNull, Regs.ptr, hbh]
  have hooked := h nestedRegistration s hnonNull (Run.of_foldlM _ hs)
  have hcb := (hooked (Option.some.inj hstack) _ _ (Option.some.inj hdriver)).1
  exact CbPtr.noConfusion hcb

end Examples

end ReelMagic.Recorder
