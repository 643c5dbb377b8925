import ReelMagic.Streamer.Exchange
import ReelMagic.Streamer.Soundness

namespace ReelMagic.Streamer

open Library
open ReelMagic.Recorder (FarPtr Regs)

section

variable {layout : Layout} {p p₁ : Program} {w : World} {effects : List Effect}

-- Nothing that is listed is taken back.
abbrev Grown (p q : Program) : Prop := p.effects <+: q.effects

abbrev GrownAt (p : Program) (stop : Stop) : Prop := Grown p stop.program

theorem grown_emit (effects : List Effect) (p : Program) : Grown p (p.emit effects) :=
  List.prefix_append _ _

theorem grown_returned {regs : Regs} {result : Regs × Program} (h : Returned Grown p regs result) :
    Grown p result.2 := by
  obtain ⟨answer, script, q, _, hq, rfl⟩ := h
  exact List.IsPrefix.trans hq (grown_emit [.int80 regs answer.regs] q)

theorem grown_respected {int80 : Regs → Program → Except Stop (Regs × Program)}
    (hint80 : ∀ regs p, Ends (GrownAt p) (fun result => Grown p result.2) (int80 regs p)) :
    Respected int80 Grown GrownAt where
  refl := fun _ => List.prefix_rfl
  trans := fun hpq hqr => hpq.trans hqr
  after := fun hpq hstop => hpq.trans hstop
  wild := fun _ => List.prefix_rfl
  logfi := fun _ p _ => grown_emit _ p
  world := fun _ _ => List.prefix_rfl
  dos := fun _ p => grown_emit _ p
  call := by
    intro command handle subfunc param1 param2 p
    unfold Program.rmCallFmpdrv
    split
    · exact (grown_emit _ p).trans (grown_emit _ (p.logfi .unreachable))
    have hentered : Grown p (p.logfi (.sdk (.enterCallFmpdrv command handle subfunc param1
        param2))).logfAddindent := grown_emit _ p
    refine Ends.bind (Ends.imp (hint80 _ _) (fun _ hstop => hentered.trans hstop) fun _ hr => hr) ?_
    rintro ⟨reply, q⟩ hq
    obtain ⟨statics, hdelindent⟩ := q.logfDelindent_eq
    show Grown p (q.logfDelindent.logfi _)
    rw [hdelindent]
    exact (hentered.trans hq).trans (grown_emit _ _)
  entered := fun _ p _ hstop => (grown_emit _ p).trans hstop
  callback := fun _ p q hq => ((grown_emit _ p).trans hq).trans (grown_emit _ q)

theorem grown_counted (p : Program) : Grown p p.counted := by
  unfold Program.counted Program.printDot
  split
  · split
    · exact grown_emit _ p
    · exact grown_emit _ p
  · exact List.prefix_rfl

theorem grown_nested (layout : Layout) :
    Nested layout (fun _ => Grown) (fun _ => GrownAt) (fun _ => Grown) (fun _ => GrownAt) where
  refl := fun _ _ => List.prefix_rfl
  trans := fun hpq hqr => hpq.trans hqr
  after := fun hpq hstop => hpq.trans hstop
  unanswered := fun _ _ _ => List.prefix_rfl
  refused := fun _ _ _ _ => List.prefix_rfl
  script := fun _ _ _ _ _ => List.prefix_rfl
  respected := fun _ hint80 =>
    grown_respected fun regs p => (hint80 regs p).mono fun _ => grown_returned
  served := fun {_ p q} request hq =>
    (((grown_emit [.enter request] p).trans (grown_counted _)).trans hq).trans (grown_emit [.leave] q)
  broken := fun {_ p _} request hstop =>
    ((grown_emit [.enter request] p).trans (grown_counted _)).trans hstop

theorem grown_inner (layout : Layout) : Respected (Program.int80 layout 0) Grown GrownAt :=
  grown_respected fun regs p => ((grown_nested layout).int80 0 regs p).mono fun _ => grown_returned

-- A pointer that points to none of the data of the program comes from the driver.
abbrev Misled (stop : Stop) : Prop :=
  stop.reason = .wildPointer → ¬KeepsPointers stop.program.effects

theorem ends_misled {α : Type} {returns : α → Prop} {x : Except Stop α}
    (h : Ends (·.reason ≠ .wildPointer) returns x) : Ends Misled returns x :=
  h.imp (fun _ hstop hwild => absurd hwild hstop) fun _ hr => hr

-- The driver is asked for the pointer, and it is the one that is noted.
theorem did_rmGetPtr {handle : UInt8} {reply : Regs} {ptr : FarPtr} (hsynced : Synced layout p)
    (hptr : ptr = ⟨reply.dx, reply.ax⟩)
    (hcalled : Called p (callRegs 0xA handle 0x208 0 0) reply p₁)
    (hkeeps : KeepsPointers p₁.effects) :
    Did layout p p.world [.int80 (callRegs 0xA handle 0x208 0 0)] p₁ ∧
      ptr = (p₁.world.slot208 handle).far layout := by
  have htold : told p₁.effects = told p.effects := by
    have hkept := hcalled.told
    rw [keep_callRegs, if_neg fun h => absurd h.1 (by decide)] at hkept
    exact hkept
  have hgot := hcalled.givesBack hkeeps (callRegs_command 0xA handle 0x208 0 0) rfl
  rw [callRegs_handle, hsynced] at hgot
  refine ⟨⟨hcalled.world, hcalled.ops, ?_⟩, ?_⟩
  · intro _ number
    rw [htold, show p₁.world = p.world from hcalled.world]
    exact hsynced number
  · rw [hptr, show p₁.world = p.world from hcalled.world]
    exact hgot

-- A whole callback. Where the driver gives back another pointer than it was told to keep, all
-- that is said of what follows is that it has done so.
theorem did_myCallback (request : Request) {calls : List Call} (hsynced : Synced layout p)
    (h : myCallback request.args.arg0 request.args.arg1 request.args.arg2 request.args.arg3
      request.dos p.world = some (w, calls)) :
    Ends Misled
      (fun p' => KeepsPointers p'.effects → Did layout p w
        (.int80 (callRegs 0xA request.args.arg1.toUInt8 0x208 0 0) :: callsOps layout calls) p')
      (p.myCallback (Program.int80 layout 0) layout request) := by
  have hcounted : Did layout p p.world [] p.counted := did_counted p
  have hentered := (hcounted.logfi (.callbackCount p.counted.callbackCount)).logfi
    (.enterMyCallback request.args)
  unfold Program.myCallback
  refine Ends.bind (ends_misled (ends_rmGetPtr request.args.arg1.toUInt8 _)) ?_
  rintro ⟨ptr, p₁⟩ ⟨reply, hptr, hcalled⟩
  by_cases hkeeps : KeepsPointers p₁.effects
  · obtain ⟨hasked, hslot⟩ := did_rmGetPtr (hentered.synced hsynced) hptr hcalled hkeeps
    have hready := hentered.trans hasked
    rw [hentered.world] at hready
    have hworld : p₁.world = p.world := hready.world
    rw [← hworld] at h
    refine Ends.bind (ends_misled (performs_runCommand request (congrArg FarPtr.off hslot) h)) ?_
    intro p₂ hdid _
    exact (hready.trans hdid).logfi (.exitMyCallback request.args)
  · -- another pointer has come back, which stays listed whatever the callback does with it
    refine Ends.bind (Ends.imp ((grown_inner layout).runCommand layout request ptr.off p₁)
      (fun _ hstop _ h => hkeeps (h.of_le hstop)) fun _ hr => hr) ?_
    intro p₂ hp₂ hkept
    exact absurd (hkept.of_le (List.IsPrefix.trans hp₂ (grown_emit _ p₂))) hkeeps

-- As long as the driver gives back what it was told to keep, what the callbacks have done is a
-- run of the callback.
def Faithful (layout : Layout) (p : Program) : Prop :=
  KeepsPointers p.effects → Sound layout p ∧ Synced layout p

theorem Faithful.of_eq (h : Faithful layout p) (hworld : p₁.world = p.world)
    (heffects : p₁.effects = p.effects) : Faithful layout p₁ := by
  unfold Faithful Sound Synced Program.ops at h ⊢
  rw [hworld, heffects]
  exact h

theorem Faithful.quiet (h : Faithful layout p) (hquiet : ∀ effect ∈ effects, effect.IsQuiet)
    (hops : effects.filterMap Effect.op = []) : Faithful layout (p.emit effects) := by
  intro hkeeps
  obtain ⟨⟨events, hserves, hreached⟩, hsynced⟩ := h hkeeps.of_append
  have hdid : Did layout p p.world _ (p.emit effects) := did_emit hquiet rfl
  refine ⟨⟨events, ?_, hreached⟩, hdid.synced hsynced⟩
  rw [hdid.ops, hops, List.append_nil]
  exact hserves

theorem Faithful.lines (h : Faithful layout p) (indent : Nat) (line : Line) :
    Faithful layout (p.emit (p.lineEffects indent line)) := by
  obtain ⟨hops, hquiet⟩ := lineEffects_told indent line p
  exact h.quiet hquiet hops

theorem Faithful.logfi (h : Faithful layout p) (line : Line) : Faithful layout (p.logfi line) :=
  h.lines _ line

-- A call of the driver other than one that tells it to keep a pointer.
theorem Faithful.call (h : Faithful layout p) {command handle : UInt8} {subfunc : UInt16}
    (hset : ¬(command = 0x9 ∧ subfunc = 0x208)) (param1 param2 : UInt16) (reply : Regs) :
    Faithful layout (p.emit [.int80 (callRegs command handle subfunc param1 param2) reply]) := by
  intro hkeeps
  obtain ⟨⟨events, hserves, hreached⟩, hsynced⟩ := h hkeeps.of_append
  have hquiet : (Effect.int80 (callRegs command handle subfunc param1 param2) reply).IsQuiet := by
    intro kept
    rw [keep_callRegs, if_neg hset]
  have hdid : Did layout p p.world _ (p.emit [.int80 (callRegs command handle subfunc param1
    param2) reply]) := did_emit (List.forall_mem_singleton.mpr hquiet) rfl
  refine ⟨⟨events, ?_, hreached⟩, hdid.synced hsynced⟩
  rw [hdid.ops]
  exact hserves.call _

-- A callback of the driver is one more event of the run.
theorem faithful_serve (request : Request) (h : Faithful layout p) :
    Ends Misled (Faithful layout) (p.serve (Program.int80 layout 0) layout request) := by
  by_cases hkeeps : KeepsPointers p.effects
  · obtain ⟨⟨events, hserves, hreached⟩, hsynced⟩ := h hkeeps
    obtain ⟨w, calls, hcallback⟩ := callback_defined hreached request.args.arg0 request.args.arg1
      request.args.arg2 request.args.arg3 request.dos
    have hquiet : (Effect.enter request).IsQuiet := fun _ => rfl
    have hentered : Did layout p p.world [.enter request] (p.emit [.enter request]) :=
      did_emit (p := p) (List.forall_mem_singleton.mpr hquiet) rfl
    unfold Program.serve
    split
    · exact fun h => Reason.noConfusion h
    refine Ends.bind (did_myCallback request (hentered.synced hsynced) hcallback) ?_
    intro p' hdid hkept
    have hquiet : Effect.leave.IsQuiet := fun _ => rfl
    have hleft : Did layout p' p'.world [.leave] (p'.emit [.leave]) :=
      did_emit (p := p') (List.forall_mem_singleton.mpr hquiet) rfl
    have hcalled := hentered.trans (hdid hkept.of_append)
    have hserved := hcalled.trans hleft
    rw [hcalled.world] at hserved
    refine ⟨⟨events ++ [⟨request.args.arg0, request.args.arg1, request.args.arg2,
      request.args.arg3, request.dos, calls⟩], ?_, ?_⟩, hserved.synced hsynced⟩
    · rw [hserved.ops]
      exact hserves.callback ⟨request.args.arg0, request.args.arg1, request.args.arg2,
        request.args.arg3, request.dos, calls⟩
    · rw [hserved.world]
      exact hreached.snoc hcallback
  · -- the driver has given back another pointer before, and that stays listed
    refine Ends.imp ((grown_nested layout).serve 0 request p) ?_ ?_
    · intro stop hstop _ hkept
      exact hkeeps (hkept.of_le hstop)
    · intro q hq hkept
      exact absurd (hkept.of_le hq) hkeeps

-- A call of the driver that is made outside of the callback, with the callbacks during it.
theorem faithful_rmCallFmpdrv {command handle : UInt8} {subfunc param1 param2 : UInt16}
    (hset : ¬(command = 0x9 ∧ subfunc = 0x208)) (h : Faithful layout p) :
    Ends Misled (fun result => Faithful layout result.2)
      (p.rmCallFmpdrv (Program.int80 layout 1) command handle subfunc param1 param2) := by
  unfold Program.rmCallFmpdrv
  split
  · exact fun h => Reason.noConfusion h
  have hentered : Faithful layout (p.logfi (.sdk (.enterCallFmpdrv command handle subfunc param1
      param2))).logfAddindent := (h.logfi _).of_eq rfl rfl
  generalize (p.logfi (.sdk (.enterCallFmpdrv command handle subfunc param1 param2))).logfAddindent =
    q at hentered
  have hint80 : Ends Misled (fun result => Faithful layout result.2)
      (Program.int80 layout 1 (callRegs command handle subfunc param1 param2) q) := by
    unfold Program.int80
    split
    · exact fun h => Reason.noConfusion h
    rename_i answer script _
    have hanswered : Faithful layout { q with script := script } := hentered.of_eq rfl rfl
    refine Ends.bind (Ends.foldlM (fun r request hr => faithful_serve request hr) _ hanswered
      answer.requests) ?_
    intro r hr
    exact hr.call hset param1 param2 answer.regs
  refine Ends.bind hint80 ?_
  rintro ⟨reply, r⟩ hr
  obtain ⟨statics, hdelindent⟩ := r.logfDelindent_eq
  have hreturned : Faithful layout { r with statics := statics } := hr.of_eq rfl rfl
  show Faithful layout (r.logfDelindent.logfi _)
  rw [hdelindent]
  exact hreturned.logfi _

end

-- What passes while the driver calls the callback is what the events of a run of the callback
-- say, whatever the program does besides. `my_callback` goes through the pointer that it gets from
-- the driver, and relies on it to be the one that the driver was told to keep: that the program
-- never goes through another one, and that the events are a run, is said of such drivers. They
-- do not call back while a callback is under way.
theorem session_serves (layout : Layout) (statics : Statics) (script : List Answer)
    (steps : List MainStep) :
    Ends (fun stop => stop.reason = .wildPointer → ¬KeepsPointers stop.program.effects)
      (fun p => KeepsPointers p.effects →
        ∃ events, Serves layout p.ops events ∧ Reached events p.world)
      (steps.foldlM (MainStep.run layout 1) (.start statics script)) := by
  have hstart : Faithful layout (.start statics script) :=
    fun _ => ⟨⟨[], .nil, .nil⟩, fun _ => rfl⟩
  have hinv : Ends Misled (Faithful layout)
      (steps.foldlM (MainStep.run layout 1) (.start statics script)) := by
    refine Ends.foldlM ?_ _ hstart steps
    intro p step h
    cases step with
    | call made =>
        refine Ends.bind (faithful_rmCallFmpdrv made.leavesPointer h) ?_
        rintro ⟨rv, q⟩ hq
        exact hq
    | log line plain => exact h.logfi line
    | print line plain => exact h.lines 0 line
    | register cbfunc => exact h.of_eq rfl rfl
    | mute val => exact h.of_eq rfl rfl
    | close => exact h.of_eq rfl rfl
    | play => exact h.quiet (List.forall_mem_singleton.mpr fun _ => rfl) rfl
  exact hinv.mono fun p h hkeeps => (h hkeeps).1

-- The program opens a stream and plays it. The driver has the callback open the file, and calls it
-- with a command that does nothing, for which it gives back the pointer to `_hds[0]`.
def openedScript : List Answer :=
  [⟨[⟨⟨4, 1, 0, 0⟩, openShortFile.reply⟩], ⟨1, 0, 0, 0⟩⟩, ⟨[], ⟨0, 0, 0, 0⟩⟩, ⟨[], ⟨0, 0, 0, 0⟩⟩,
    ⟨[], ⟨0, 0, 0, 0⟩⟩, ⟨[⟨⟨3, 1, 0, 0⟩, ⟨none, none⟩⟩], ⟨0, 0, 0, 0⟩⟩, ⟨[], ⟨0x0400, 0, 0, 0x1000⟩⟩]

def openedSteps : List MainStep := [.register 0x0100, .call sampleOpen, .call samplePlay]

def mutedStatics : Statics := ⟨0x80, 0, true, true, true, 0, false⟩

def openedOps : List Op :=
  [.enter ⟨⟨4, 1, 0, 0⟩, openShortFile.reply⟩, .int80 (callRegs 0xA 1 0x208 0 0),
    .dos (.dosOpen openShortFile.reply.opened), .int80 (callRegs 0x9 1 0x208 0x0400 0x1000),
    .int80 (callRegs 0x9 1 0x302 1 0), .leave, .int80 (callRegs 1 0 0x0002 0x0010 0x1000),
    .enter ⟨⟨3, 1, 0, 0⟩, ⟨none, none⟩⟩, .int80 (callRegs 0xA 1 0x208 0 0), .leave,
    .int80 (callRegs 3 1 1 0 0)]

theorem session_serves_opened :
    ∃ p, openedSteps.foldlM (MainStep.run sampleLayout 1) (.start mutedStatics openedScript) = .ok p ∧
      KeepsPointers p.effects ∧ p.ops = openedOps ∧
        ∃ events, Serves sampleLayout openedOps events ∧ Reached events p.world := by
  obtain ⟨steps, hsteps⟩ : ∃ steps, steps = openedSteps := ⟨_, rfl⟩
  have hends := session_serves sampleLayout mutedStatics openedScript steps
  have hrun : (openedSteps.foldlM (MainStep.run sampleLayout 1)
      (.start mutedStatics openedScript)).toOption.map
        (fun p => (decide (KeepsPointers p.effects), p.ops)) = some (true, openedOps) := by
    decide +kernel
  rw [hsteps] at hends
  obtain ⟨p, hp, hkept, hserves⟩ := hends.exists_of_toOption hrun
  obtain ⟨hkeeps, hops⟩ := Prod.mk.inj hkept
  have hevents := hserves (of_decide_eq_true hkeeps)
  rw [hops] at hevents
  exact ⟨p, hp, of_decide_eq_true hkeeps, hops, hevents⟩

end ReelMagic.Streamer
