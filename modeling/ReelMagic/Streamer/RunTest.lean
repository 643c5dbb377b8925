import ReelMagic.Library.Registers
import ReelMagic.Streamer.Steps

namespace ReelMagic.Streamer

open Library Library.Registers
open ReelMagic.Recorder (Regs)
open ReelMagic.Rmsdk (RMCBMODE_STACK)

-- The INT 80h's that are not made in a callback, with what they return.
def outermost : Nat → List Effect → List (Regs × Regs)
  | _, [] => []
  | level, .enter _ :: effects => outermost (level + 1) effects
  | level, .leave :: effects => outermost (level - 1) effects
  | 0, .int80 regs reply :: effects => (regs, reply) :: outermost 0 effects
  | level, _ :: effects => outermost level effects

def Program.mainCalls (p : Program) : List (Regs × Regs) := outermost 0 p.effects

-- Effects that have none of these INT 80h's among them, where they stand inside of that many
-- callbacks or more: with every callback in them over, or with some of them still under way.
def Quiet (base : Nat) (effects : List Effect) : Prop :=
  ∀ level rest, outermost (level + base) (effects ++ rest) = outermost (level + base) rest

def Bare (base : Nat) (effects : List Effect) : Prop :=
  ∀ level, outermost (level + base) effects = []

-- These INT 80h's have been made so far, and no callback is under way.
def Made (calls : List (Regs × Regs)) (p : Program) : Prop :=
  ∀ rest, outermost 0 (p.effects ++ rest) = calls ++ outermost 0 rest

-- A later state, with none of these INT 80h's on the way to it, and a stop on such a way.
structure Later (base : Nat) (p q : Program) : Prop where
  effects : ∃ effects, q.effects = p.effects ++ effects ∧ Quiet base effects
  fmpdrvInt : q.statics.fmpdrvInt = p.statics.fmpdrvInt
  script : q.script.length ≤ p.script.length

structure Broken (base : Nat) (p : Program) (stop : Stop) : Prop where
  effects : ∃ effects, stop.program.effects = p.effects ++ effects ∧ Bare base effects
  aborted : stop.reason = .aborted → p.statics.fmpdrvInt ≠ 0x80
  noReply : stop.reason = .noReply → stop.program.script = []

-- One INT 80h has been made, with callbacks and lines before it returned and lines after it.
structure Answered (p : Program) (regs reply : Regs) (q : Program) : Prop where
  effects : ∃ before after, q.effects = p.effects ++ (before ++ .int80 regs reply :: after) ∧
    Quiet 0 before ∧ Quiet 0 after
  fmpdrvInt : q.statics.fmpdrvInt = p.statics.fmpdrvInt
  script : q.script.length < p.script.length

section

variable {base : Nat} {p q r : Program} {stop : Stop} {effects later : List Effect}
  {calls : List (Regs × Regs)} {regs reply : Regs}

theorem Made.mainCalls (h : Made calls p) : p.mainCalls = calls := by
  have hall := h []
  rw [List.append_nil] at hall
  exact hall.trans (List.append_nil _)

theorem quiet_nil : Quiet base [] := fun _ _ => rfl

theorem Quiet.append (h : Quiet base effects) (h' : Quiet base later) :
    Quiet base (effects ++ later) := by
  intro level rest
  rw [List.append_assoc, h, h']

theorem Quiet.bare (h : Quiet base effects) (h' : Bare base later) : Bare base (effects ++ later) := by
  intro level
  rw [h, h']

theorem bare_nil : Bare base [] := by
  intro level
  cases level + base <;> rfl

-- What is quiet everywhere is so inside of callbacks.
theorem Quiet.inner (h : Quiet 0 effects) : Quiet 1 effects := fun level rest => h (level + 1) rest

theorem quiet_lineEffects (indent : Nat) (line : Line) (p : Program) :
    Quiet base (p.lineEffects indent line) := by
  intro level rest
  unfold Program.lineEffects
  cases p.statics.muted <;> cases p.statics.stdouton <;> cases p.statics.logout <;>
    cases level + base <;> rfl

theorem quiet_dos (calls : List Call) : Quiet base (calls.map .dos) := by
  intro level rest
  induction calls with
  | nil => rfl
  | cons call calls ih =>
      rw [← ih]
      cases level + base <;> rfl

theorem quiet_putchars (chars : List UInt8) : Quiet base (chars.map .putchar) := by
  intro level rest
  induction chars with
  | nil => rfl
  | cons c chars ih =>
      rw [← ih]
      cases level + base <;> rfl

-- An INT 80h that is made in a callback does not count.
theorem quiet_int80 (regs reply : Regs) : Quiet 1 [.int80 regs reply] := fun _ _ => rfl

theorem Quiet.enclosed (h : Quiet 1 effects) (request : Request) :
    Quiet 0 (.enter request :: (effects ++ [.leave])) := by
  intro level rest
  rw [List.cons_append, List.append_assoc]
  have hinner := h level ([.leave] ++ rest)
  cases level <;> exact hinner

theorem Bare.entered (h : Bare 1 effects) (request : Request) : Bare 0 (.enter request :: effects) := by
  intro level
  have hinner := h level
  cases level <;> exact hinner

theorem Later.refl (p : Program) : Later base p p :=
  ⟨⟨[], (List.append_nil _).symm, quiet_nil⟩, rfl, Nat.le_refl _⟩

theorem Later.trans (h : Later base p q) (h' : Later base q r) : Later base p r := by
  obtain ⟨effects, heffects, hquiet⟩ := h.effects
  obtain ⟨later, hlater, hquiet'⟩ := h'.effects
  refine ⟨⟨effects ++ later, ?_, hquiet.append hquiet'⟩, h'.fmpdrvInt.trans h.fmpdrvInt,
    Nat.le_trans h'.script h.script⟩
  rw [hlater, heffects, List.append_assoc]

theorem Later.after (h : Later base p q) (h' : Broken base q stop) : Broken base p stop := by
  obtain ⟨effects, heffects, hquiet⟩ := h.effects
  obtain ⟨later, hlater, hbare⟩ := h'.effects
  refine ⟨⟨effects ++ later, ?_, hquiet.bare hbare⟩, ?_, h'.noReply⟩
  · rw [hlater, heffects, List.append_assoc]
  · rw [← h.fmpdrvInt]
    exact h'.aborted

theorem Later.inner (h : Later 0 p q) : Later 1 p q := by
  obtain ⟨effects, heffects, hquiet⟩ := h.effects
  exact ⟨⟨effects, heffects, hquiet.inner⟩, h.fmpdrvInt, h.script⟩

theorem Broken.inner (h : Broken 0 p stop) : Broken 1 p stop := by
  obtain ⟨effects, heffects, hbare⟩ := h.effects
  exact ⟨⟨effects, heffects, fun level => hbare (level + 1)⟩, h.aborted, h.noReply⟩

theorem Later.made (h : Later 0 p q) (hmade : Made calls p) : Made calls q := by
  obtain ⟨effects, heffects, hquiet⟩ := h.effects
  intro rest
  rw [heffects, List.append_assoc, hmade]
  exact congrArg (calls ++ ·) (hquiet 0 rest)

theorem Broken.mainCalls (h : Broken 0 p stop) (hmade : Made calls p) :
    stop.program.mainCalls = calls := by
  obtain ⟨effects, heffects, hbare⟩ := h.effects
  rw [Program.mainCalls, heffects, hmade, show outermost 0 effects = [] from hbare 0, List.append_nil]

theorem later_emit (h : Quiet base effects) (p : Program) : Later base p (p.emit effects) :=
  ⟨⟨effects, rfl, h⟩, rfl, Nat.le_refl _⟩

theorem later_logfi (line : Line) (p : Program) : Later base p (p.logfi line) :=
  later_emit (quiet_lineEffects _ line p) p

-- What is kept in the other variables of the program is of no concern here.
theorem Later.of_eq (h : Later base p q) (heffects : r.effects = q.effects)
    (hint : r.statics.fmpdrvInt = q.statics.fmpdrvInt) (hscript : r.script = q.script) :
    Later base p r := by
  refine ⟨?_, hint.trans h.fmpdrvInt, ?_⟩
  · rw [heffects]
    exact h.effects
  · rw [hscript]
    exact h.script

theorem Later.logfi (h : Later base p q) (line : Line) : Later base p (q.logfi line) :=
  h.trans (later_logfi line q)

theorem Later.broken {reason : Reason} (h : Later base p q)
    (haborted : reason = .aborted → p.statics.fmpdrvInt ≠ 0x80)
    (hnoReply : reason = .noReply → q.script = []) : Broken base p ⟨reason, q⟩ := by
  obtain ⟨effects, heffects, hquiet⟩ := h.effects
  refine ⟨⟨effects, heffects, ?_⟩, haborted, hnoReply⟩
  have hbare : Bare base (effects ++ []) := hquiet.bare bare_nil
  rw [List.append_nil] at hbare
  exact hbare

theorem Answered.inner (h : Answered p regs reply q) : Later 1 p q := by
  obtain ⟨before, after, heffects, hbefore, hafter⟩ := h.effects
  have hquiet : Quiet 1 (before ++ .int80 regs reply :: after) :=
    hbefore.inner.append ((quiet_int80 regs reply).append hafter.inner)
  exact ⟨⟨_, heffects, hquiet⟩, h.fmpdrvInt, Nat.le_of_lt h.script⟩

theorem Answered.made (h : Answered p regs reply q) (hmade : Made calls p) :
    Made (calls ++ [(regs, reply)]) q := by
  obtain ⟨before, after, heffects, hbefore, hafter⟩ := h.effects
  intro rest
  have hreturned : outermost 0 (.int80 regs reply :: (after ++ rest)) =
      (regs, reply) :: outermost 0 rest := congrArg ((regs, reply) :: ·) (hafter 0 rest)
  rw [heffects, List.append_assoc, hmade, List.append_assoc, List.append_assoc]
  exact congrArg (calls ++ ·) ((hbefore 0 _).trans hreturned)

theorem later_logfDelindent (p : Program) : Later base p p.logfDelindent := by
  unfold Program.logfDelindent
  split
  · exact (Later.refl p).of_eq rfl rfl rfl
  · exact Later.refl p

theorem later_script {answer : Answer} {script : List Answer} (h : p.script = answer :: script) :
    Later base p { p with script } := by
  refine ⟨⟨[], (List.append_nil _).symm, quiet_nil⟩, rfl, ?_⟩
  rw [h]
  exact Nat.le_succ _

theorem answered_of_later (hbefore : Later 0 p r) (hscript : r.script.length < p.script.length)
    (hafter : Later 0 (r.emit [.int80 regs reply]) q) : Answered p regs reply q := by
  obtain ⟨before, hr, hquiet⟩ := hbefore.effects
  obtain ⟨after, hq, hquiet'⟩ := hafter.effects
  refine ⟨⟨before, after, ?_, hquiet, hquiet'⟩, hafter.fmpdrvInt.trans hbefore.fmpdrvInt,
    Nat.lt_of_le_of_lt hafter.script hscript⟩
  rw [hq]
  show r.effects ++ [.int80 regs reply] ++ after = _
  rw [hr, List.append_assoc, List.append_assoc]
  rfl

-- A call of the driver is one INT 80h, whatever happens during it.
theorem answered_rmCallFmpdrv {int80 : Regs → Program → Except Stop (Regs × Program)}
    (hint80 : ∀ regs p, Ends (Broken 0 p) (Returned (Later 0) p regs) (int80 regs p))
    (command handle : UInt8) (subfunc param1 param2 : UInt16) (p : Program) :
    Ends (Broken 0 p)
      (fun result => p.statics.fmpdrvInt = 0x80 ∧
        ∃ reply : Regs, result.1 = reply.dx.toUInt32 <<< 16 ||| reply.ax.toUInt32 ∧
          Answered p (callRegs command handle subfunc param1 param2) reply result.2)
      (p.rmCallFmpdrv int80 command handle subfunc param1 param2) := by
  unfold Program.rmCallFmpdrv
  split
  · rename_i hint
    have haborted : Later 0 p (p.logfAbort .unreachable) :=
      ((later_logfi .unreachable p).logfi .aborting).of_eq rfl rfl rfl
    exact haborted.broken (fun _ => hint) nofun
  rename_i hint
  have hentered : Later 0 p (p.logfi (.sdk (.enterCallFmpdrv command handle subfunc param1
      param2))).logfAddindent := (later_logfi _ p).of_eq rfl rfl rfl
  refine Ends.bind (Ends.imp (hint80 _ _) (fun _ hstop => hentered.after hstop) fun _ hr => hr) ?_
  rintro ⟨reply, q⟩ ⟨answer, script, r, hscript, hr, hreturned⟩
  obtain ⟨rfl, rfl⟩ := Prod.mk.inj hreturned
  have hcallbacks : Later 0 p r := (hentered.trans (later_script hscript)).trans hr
  have hless : r.script.length < p.script.length := by
    have hleft : p.script = answer :: script := hscript
    rw [hleft]
    exact Nat.lt_succ_of_le hr.script
  exact ⟨not_not.mp hint, answer.regs, rfl,
    answered_of_later hcallbacks hless ((later_logfDelindent _).logfi _)⟩

theorem later_counted (p : Program) : Later base p p.counted := by
  unfold Program.counted Program.printDot
  split
  · split
    · exact (later_emit (quiet_putchars [0x0D, 0x0A, 0x2E]) p).of_eq rfl rfl rfl
    · exact (later_emit (quiet_putchars [0x2E]) p).of_eq rfl rfl rfl
  · exact (Later.refl p).of_eq rfl rfl rfl

theorem later_respected {int80 : Regs → Program → Except Stop (Regs × Program)}
    (hint80 : ∀ regs p, Ends (Broken 0 p) (Returned (Later 0) p regs) (int80 regs p)) :
    Respected int80 (Later 1) (Broken 1) where
  refl := Later.refl
  trans := Later.trans
  after := Later.after
  wild := fun p => (Later.refl p).broken nofun nofun
  logfi := fun line p _ => later_logfi line p
  world := fun _ p => (Later.refl p).of_eq rfl rfl rfl
  dos := fun calls p => later_emit (quiet_dos calls) p
  call := by
    intro command handle subfunc param1 param2 p
    refine Ends.imp (answered_rmCallFmpdrv hint80 command handle subfunc param1 param2 p) ?_ ?_
    · intro stop hstop
      exact hstop.inner
    · rintro result ⟨_, reply, _, hanswered⟩
      exact hanswered.inner
  entered := fun _ p _ hstop => (later_logfi _ p).after hstop
  callback := fun _ p _ hq => ((later_logfi _ p).trans hq).logfi _

theorem later_nested (layout : Layout) :
    Nested layout (fun _ => Later 0) (fun _ => Broken 0) (fun _ => Later 1) (fun _ => Broken 1) where
  refl := fun _ => Later.refl
  trans := Later.trans
  after := Later.after
  unanswered := fun _ p hscript => (Later.refl p).broken nofun fun _ => hscript
  refused := by
    intro depth reason p hreason
    refine (Later.refl p).broken ?_ ?_
    · rintro rfl
      exact absurd hreason (by decide)
    · rintro rfl
      exact absurd hreason (by decide)
  script := fun _ _ _ _ hscript => later_script hscript
  respected := fun _ hint80 => later_respected hint80
  served := by
    -- what is done in a callback stands between `enter` and `leave`
    intro depth p q request hq
    have hcounted : Later 1 (p.emit [.enter request]) (p.emit [.enter request]).counted :=
      later_counted _
    have hinner := hcounted.trans hq
    obtain ⟨effects, heffects, hquiet⟩ := hinner.effects
    refine ⟨⟨.enter request :: (effects ++ [.leave]), ?_, hquiet.enclosed request⟩,
      hinner.fmpdrvInt, hinner.script⟩
    show q.effects ++ [.leave] = _
    rw [heffects]
    show p.effects ++ [.enter request] ++ effects ++ [.leave] = _
    rw [List.append_assoc, List.append_assoc]
    rfl
  broken := by
    intro depth p stop request hstop
    have hcounted : Later 1 (p.emit [.enter request]) (p.emit [.enter request]).counted :=
      later_counted _
    have hinner := hcounted.after hstop
    obtain ⟨effects, heffects, hbare⟩ := hinner.effects
    refine ⟨⟨.enter request :: effects, ?_, hbare.entered request⟩, hinner.aborted, hinner.noReply⟩
    rw [heffects]
    show p.effects ++ [.enter request] ++ effects = _
    rw [List.append_assoc]
    rfl

end

-- The calls up to the one that opens the file.
def openingCalls (layout : Layout) (reset registered key opened : Regs) : List (Regs × Regs) :=
  [(callRegs 0xE 0 0 0 0, reset),
    (callRegs 0xB 0 RMCBMODE_STACK layout.code.marshallStackCallback.off
      layout.code.marshallStackCallback.seg, registered),
    (callRegs 0x9 0 0x210 0x4041 0x4004, key),
    (callRegs 1 0 0x0002 layout.filename layout.dataSeg, opened)]

-- The calls from the one that asks for the types of the streams up to the one that plays them.
def playingCalls (handle : UInt8) (types zorder got played : Regs) : List (Regs × Regs) :=
  [(callRegs 0xA handle 0x202 0 0, types), (callRegs 0x9 handle 0x40E 4 0, zorder),
    (callRegs 0xA handle 0x208 0 0, got), (callRegs 0x3 handle 1 0 0, played)]

def statusCall (handle : UInt8) (reply : Regs) : Regs × Regs := (callRegs 0xA handle 0x204 0 0, reply)

-- The calls of a whole test. The stream is played on the handle that is opened, polled up to the
-- first status in which it does not play any more, and closed. It stays open when its types
-- cannot be told.
inductive TestCalls (layout : Layout) : List (Regs × Regs) → Exit → Prop
  | openFailed {reset registered key opened : Regs} : opened.ax.toUInt8 = 0 →
      TestCalls layout (openingCalls layout reset registered key opened) .aborted
  | unreadable {reset registered key opened types : Regs} : opened.ax.toUInt8 ≠ 0 → types.ax = 0 →
      TestCalls layout
        (openingCalls layout reset registered key opened ++
          [(callRegs 0xA opened.ax.toUInt8 0x202 0 0, types)]) .aborted
  | played {reset registered key opened types zorder got played done closed : Regs}
      {playing : List Regs} :
      opened.ax.toUInt8 ≠ 0 → types.ax ≠ 0 → (∀ reply ∈ playing, reply.ax &&& 3 = 0) →
        done.ax &&& 3 ≠ 0 →
          TestCalls layout
            (openingCalls layout reset registered key opened ++
              playingCalls opened.ax.toUInt8 types zorder got played ++
              (playing ++ [done]).map (statusCall opened.ax.toUInt8) ++
              [(callRegs 2 opened.ax.toUInt8 0 0 0, closed)]) .returned

-- The calls with which a test begins.
def TestBegins (layout : Layout) (calls : List (Regs × Regs)) : Prop :=
  ∃ more exit, TestCalls layout (calls ++ more) exit

-- A test that has made these calls and is not over, and one that is stopped before it is.
structure Testing (calls : List (Regs × Regs)) (p : Program) : Prop where
  made : Made calls p
  fmpdrvInt : p.statics.fmpdrvInt = 0x80

structure Halted (layout : Layout) (stop : Stop) : Prop where
  aborted : stop.reason ≠ .aborted
  noReply : stop.reason = .noReply → stop.program.script = []
  begins : TestBegins layout stop.program.mainCalls

section

variable {layout : Layout} {p q : Program} {calls earlier : List (Regs × Regs)}

theorem TestBegins.of_le (h : TestBegins layout calls) (hle : earlier <+: calls) :
    TestBegins layout earlier := by
  obtain ⟨later, rfl⟩ := hle
  obtain ⟨more, exit, hcalls⟩ := h
  rw [List.append_assoc] at hcalls
  exact ⟨later ++ more, exit, hcalls⟩

theorem begins_opening (layout : Layout) (reset registered key opened : Regs) :
    TestBegins layout (openingCalls layout reset registered key opened) := by
  by_cases hopened : opened.ax.toUInt8 = 0
  · refine ⟨[], .aborted, ?_⟩
    rw [List.append_nil]
    exact .openFailed hopened
  · have hcalls : TestCalls layout (openingCalls layout reset registered key opened ++
        [(callRegs 0xA opened.ax.toUInt8 0x202 0 0, ⟨0, 0, 0, 0⟩)]) .aborted := .unreadable hopened rfl
    exact ⟨_, .aborted, hcalls⟩

theorem begins_playing {opened types : Regs} (hopened : opened.ax.toUInt8 ≠ 0) (htypes : types.ax ≠ 0)
    (reset registered key zorder got played : Regs) {playing : List Regs}
    (hplaying : ∀ reply ∈ playing, reply.ax &&& 3 = 0) {done : Regs} (hdone : done.ax &&& 3 ≠ 0) :
    TestBegins layout (openingCalls layout reset registered key opened ++
      playingCalls opened.ax.toUInt8 types zorder got played ++
        (playing ++ [done]).map (statusCall opened.ax.toUInt8)) := by
  have hcalls : TestCalls layout (openingCalls layout reset registered key opened ++
      playingCalls opened.ax.toUInt8 types zorder got played ++
        (playing ++ [done]).map (statusCall opened.ax.toUInt8) ++
          [(callRegs 2 opened.ax.toUInt8 0 0 0, ⟨0, 0, 0, 0⟩)]) .returned :=
    .played hopened htypes hplaying hdone
  exact ⟨_, .returned, hcalls⟩

theorem Testing.later (h : Testing calls p) (hlater : Later 0 p q) : Testing calls q :=
  ⟨hlater.made h.made, hlater.fmpdrvInt.trans h.fmpdrvInt⟩

theorem testing_rmCallFmpdrv (depth : Nat) (command handle : UInt8) (subfunc param1 param2 : UInt16)
    (h : Testing calls p) (hbegins : TestBegins layout calls) :
    Ends (Halted layout)
      (fun result => ∃ reply : Regs, result.1 = reply.dx.toUInt32 <<< 16 ||| reply.ax.toUInt32 ∧
        Testing (calls ++ [(callRegs command handle subfunc param1 param2, reply)]) result.2 ∧
          result.2.script.length < p.script.length)
      (p.rmCallFmpdrv (Program.int80 layout depth) command handle subfunc param1 param2) := by
  refine Ends.imp (answered_rmCallFmpdrv ((later_nested layout).int80 depth) command handle subfunc
    param1 param2 p) ?_ ?_
  · intro stop hstop
    refine ⟨fun haborted => hstop.aborted haborted h.fmpdrvInt, hstop.noReply, ?_⟩
    rw [hstop.mainCalls h.made]
    exact hbegins
  · rintro result ⟨_, reply, hrv, hanswered⟩
    exact ⟨reply, hrv, ⟨hanswered.made h.made, hanswered.fmpdrvInt.trans h.fmpdrvInt⟩,
      hanswered.script⟩

theorem testing_rmSet (depth : Nat) (handle : UInt8) (type param1 param2 : UInt16)
    (h : Testing calls p) (hbegins : TestBegins layout calls) :
    Ends (Halted layout)
      (fun q => ∃ reply, Testing (calls ++ [(callRegs 0x9 handle type param1 param2, reply)]) q)
      (p.rmSet (Program.int80 layout depth) handle type param1 param2) := by
  refine Ends.bind (testing_rmCallFmpdrv depth 0x9 handle type param1 param2 h hbegins) ?_
  rintro ⟨rv, q⟩ ⟨reply, _, hq, _⟩
  exact ⟨reply, hq⟩

-- The loop takes an answer off the script with every poll, so that it has as many as it needs.
theorem testing_pollWhilePlaying (depth : Nat) (handle : UInt8) {polls : Nat}
    (h : Testing calls p) (hpolls : p.script.length < polls)
    (hbegins : ∀ playing : List Regs, (∀ reply ∈ playing, reply.ax &&& 3 = 0) →
      TestBegins layout (calls ++ playing.map (statusCall handle))) :
    Ends (Halted layout)
      (fun q => ∃ playing done, (∀ reply ∈ playing, reply.ax &&& 3 = 0) ∧ done.ax &&& 3 ≠ 0 ∧
        Testing (calls ++ (playing ++ [done]).map (statusCall handle)) q)
      (p.pollWhilePlaying (Program.int80 layout depth) handle polls) := by
  induction polls generalizing p calls with
  | zero => exact absurd hpolls (Nat.not_lt_zero _)
  | succ polls ih =>
      have hbegun : TestBegins layout calls := by
        have hnone := hbegins [] fun _ hmem => absurd hmem List.not_mem_nil
        rw [List.map_nil, List.append_nil] at hnone
        exact hnone
      refine Ends.bind (testing_rmCallFmpdrv depth 0xA handle 0x204 0 0 h hbegun) ?_
      rintro ⟨rv, q⟩ ⟨reply, hrv, hq, hless⟩
      have hstatus : rv.toUInt16 = reply.ax := by
        rw [show rv = _ from hrv, dword_toUInt16]
      have hleft : q.script.length < polls := Nat.lt_of_lt_of_le hless (Nat.le_of_lt_succ hpolls)
      dsimp only
      rw [hstatus]
      split
      · rename_i hplaying
        refine Ends.mono (ih hq hleft ?_) ?_
        · intro playing hall
          have hbegun := hbegins (reply :: playing) (List.forall_mem_cons.mpr ⟨hplaying, hall⟩)
          rw [List.append_assoc]
          exact hbegun
        · rintro r ⟨playing, done, hall, hdone, hr⟩
          refine ⟨reply :: playing, done, List.forall_mem_cons.mpr ⟨hplaying, hall⟩, hdone, ?_⟩
          rw [List.append_assoc] at hr
          exact hr
      · rename_i hdone
        exact ⟨[], reply, fun _ hmem => absurd hmem List.not_mem_nil, hdone, hq⟩

theorem later_logf (line : Line) (p : Program) : Later 0 p (p.logf line) :=
  later_emit (quiet_lineEffects 0 line p) p

theorem later_logfAbort (line : Line) (p : Program) : Later 0 p (p.logfAbort line) :=
  ((later_logfi line p).logfi .aborting).of_eq rfl rfl rfl

theorem later_setPlaying (p : Program) : Later 0 p p.setPlaying := by
  have hplay : Quiet 0 [Effect.play] := by
    intro level rest
    cases level <;> rfl
  exact (later_emit hplay p).of_eq rfl rfl rfl

theorem testing_rmRegisterDriverCallback (depth : Nat) (h : Testing calls p)
    (hbegins : TestBegins layout calls) :
    Ends (Halted layout)
      (fun q => ∃ reply, Testing
        (calls ++ [(callRegs 0xB 0 RMCBMODE_STACK layout.code.marshallStackCallback.off
          layout.code.marshallStackCallback.seg, reply)]) q)
      (p.rmRegisterDriverCallback (Program.int80 layout depth) layout layout.myCallback
        RMCBMODE_STACK) := by
  unfold Program.rmRegisterDriverCallback
  rw [if_neg layout.myCallback_ne_null]
  dsimp only
  rw [if_pos rfl]
  have hregistered := h.later ((Later.refl p).of_eq (r := { p with
    statics := { p.statics with driverCbFunc := layout.myCallback } }) rfl rfl rfl)
  refine Ends.bind (testing_rmCallFmpdrv depth 0xB 0 RMCBMODE_STACK _ _ hregistered hbegins) ?_
  rintro ⟨rv, q⟩ ⟨reply, _, hq, _⟩
  exact ⟨reply, hq⟩

-- With the driver at INT 80h.
theorem testing_runTest (depth : Nat) (h : Testing [] p) :
    Ends (Halted layout) (fun result => TestCalls layout result.2.mainCalls result.1)
      (Program.runTest layout depth p) := by
  have hopening := begins_opening layout
  unfold Program.runTest
  refine Ends.bind (testing_rmCallFmpdrv depth 0xE 0 0 0 0 h
    ((hopening ⟨0, 0, 0, 0⟩ ⟨0, 0, 0, 0⟩ ⟨0, 0, 0, 0⟩ ⟨0, 0, 0, 0⟩).of_le ⟨_, rfl⟩)) ?_
  rintro ⟨_, p₁⟩ ⟨reset, _, h₁, _⟩
  refine Ends.bind (testing_rmRegisterDriverCallback depth h₁
    ((hopening reset ⟨0, 0, 0, 0⟩ ⟨0, 0, 0, 0⟩ ⟨0, 0, 0, 0⟩).of_le ⟨_, rfl⟩)) ?_
  rintro p₂ ⟨registered, h₂⟩
  refine Ends.bind (testing_rmSet depth 0 0x210 0x4041 0x4004 h₂
    ((hopening reset registered ⟨0, 0, 0, 0⟩ ⟨0, 0, 0, 0⟩).of_le ⟨_, rfl⟩)) ?_
  rintro p₃ ⟨key, h₃⟩
  refine Ends.bind (testing_rmCallFmpdrv depth 1 0 0x0002 layout.filename layout.dataSeg h₃
    ((hopening reset registered key ⟨0, 0, 0, 0⟩).of_le ⟨_, rfl⟩)) ?_
  rintro ⟨rv, p₄⟩ ⟨opened, hrv, h₄, _⟩
  have hhandle : rv.toUInt8 = opened.ax.toUInt8 := by
    rw [show rv = _ from hrv, dword_toUInt8]
  dsimp only
  rw [hhandle]
  split
  · rename_i hfailed
    have hmade := (h₄.later (later_logfAbort .openFailed p₄)).made
    show TestCalls layout (p₄.logfAbort .openFailed).mainCalls .aborted
    rw [hmade.mainCalls]
    exact .openFailed hfailed
  rename_i hopened
  refine Ends.bind (testing_rmCallFmpdrv depth 0xA opened.ax.toUInt8 0x202 0 0 h₄
    ((hopening reset registered key opened).of_le ⟨[], rfl⟩)) ?_
  rintro ⟨rv, p₅⟩ ⟨types, hrv, h₅, _⟩
  have htypes : rv.toUInt16 = types.ax := by
    rw [show rv = _ from hrv, dword_toUInt16]
  dsimp only
  rw [htypes]
  split
  · rename_i hunreadable
    have hmade := (h₅.later (later_logfAbort .errorReadingFile p₅)).made
    show TestCalls layout (p₅.logfAbort .errorReadingFile).mainCalls .aborted
    rw [hmade.mainCalls]
    exact .unreadable hopened hunreadable
  rename_i hreadable
  have hnone : ∀ reply ∈ ([] : List Regs), reply.ax &&& 3 = 0 :=
    fun _ hmem => absurd hmem List.not_mem_nil
  -- the calls up to the first poll, with whatever the driver returns
  have hplaying : ∀ zorder got played : Regs, ∀ playing : List Regs,
      (∀ reply ∈ playing, reply.ax &&& 3 = 0) →
        TestBegins layout (openingCalls layout reset registered key opened ++
          playingCalls opened.ax.toUInt8 types zorder got played ++
            playing.map (statusCall opened.ax.toUInt8)) := by
    intro zorder got played playing hall
    have hdone : (⟨1, 0, 0, 0⟩ : Regs).ax &&& 3 ≠ 0 := by decide
    refine (begins_playing hopened hreadable reset registered key zorder got played hall hdone).of_le ?_
    rw [List.map_append, ← List.append_assoc]
    exact List.prefix_append _ _
  have hdetected := h₅.later (later_logf
    (.streamsDetected (types.ax &&& 2 ≠ 0) (types.ax &&& 1 ≠ 0)) p₅)
  refine Ends.bind (testing_rmSet depth opened.ax.toUInt8 0x40E 4 0 hdetected
    ((hplaying ⟨0, 0, 0, 0⟩ ⟨0, 0, 0, 0⟩ ⟨0, 0, 0, 0⟩ [] hnone).of_le ⟨_, rfl⟩)) ?_
  rintro p₆ ⟨zorder, h₆⟩
  refine Ends.bind (testing_rmCallFmpdrv depth 0xA opened.ax.toUInt8 0x208 0 0 h₆
    ((hplaying zorder ⟨0, 0, 0, 0⟩ ⟨0, 0, 0, 0⟩ [] hnone).of_le ⟨_, rfl⟩)) ?_
  rintro ⟨_, p₇⟩ ⟨got, _, h₇, _⟩
  have hmuted := h₇.later ((Later.refl p₇).of_eq (r := p₇.logfSetmute true) rfl rfl rfl)
  refine Ends.bind (testing_rmCallFmpdrv depth 0x3 opened.ax.toUInt8 1 0 0
    (hmuted.later (later_setPlaying _))
    ((hplaying zorder got ⟨0, 0, 0, 0⟩ [] hnone).of_le ⟨_, rfl⟩)) ?_
  rintro ⟨_, p₈⟩ ⟨played, _, h₈, _⟩
  refine Ends.bind (testing_pollWhilePlaying depth opened.ax.toUInt8 h₈ (Nat.lt_succ_self _)
    (hplaying zorder got played)) ?_
  rintro p₉ ⟨playing, done, hall, hdone, h₉⟩
  refine Ends.bind (testing_rmCallFmpdrv depth 2 opened.ax.toUInt8 0 0 0 h₉
    (begins_playing hopened hreadable reset registered key zorder got played hall hdone)) ?_
  rintro ⟨_, p₁₀⟩ ⟨closed, _, h₁₀, _⟩
  have hspeaking := h₁₀.later ((Later.refl p₁₀).of_eq (r := p₁₀.logfSetmute false) rfl rfl rfl)
  have hmade := (hspeaking.later (later_logfi (.callbackCount p₁₀.callbackCount) _)).made
  show TestCalls layout
    ((p₁₀.logfSetmute false).logfi (.callbackCount p₁₀.callbackCount)).mainCalls .returned
  rw [hmade.mainCalls]
  exact .played hopened hreadable hall hdone

end

-- A computation that takes the steps of a program one after another.
def Stepwise {α : Type} (layout : Layout) (depth : Nat) (p : Program) (out : α → Program)
    (x : Except Stop α) : Prop :=
  ∃ steps : List MainStep, steps.foldlM (MainStep.run layout depth) p = x.map out

section

variable {α β : Type} {layout : Layout} {depth : Nat} {p q : Program} {out : α → Program}
  {out' : β → Program}

theorem Stepwise.bind {x : Except Stop α} {f : α → Except Stop β}
    (hx : Stepwise layout depth p out x)
    (hf : ∀ a, x = .ok a → Stepwise layout depth (out a) out' (f a)) :
    Stepwise layout depth p out' (x.bind f) := by
  obtain ⟨steps, hsteps⟩ := hx
  cases x with
  | error stop => exact ⟨steps, hsteps⟩
  | ok a =>
      obtain ⟨later, hlater⟩ := hf a rfl
      refine ⟨steps ++ later, ?_⟩
      rw [List.foldlM_append, hsteps]
      exact hlater

theorem Stepwise.after {x : Except Stop α} (step : MainStep)
    (hstep : MainStep.run layout depth p step = .ok q) (hx : Stepwise layout depth q out x) :
    Stepwise layout depth p out x := by
  obtain ⟨steps, hsteps⟩ := hx
  refine ⟨step :: steps, ?_⟩
  rw [List.foldlM_cons, hstep]
  exact hsteps

theorem stepwise_ok {x : Except Stop α} (hx : x.map out = .ok p) : Stepwise layout depth p out x :=
  ⟨[], hx.symm⟩

theorem stepwise_rmCallFmpdrv (command handle : UInt8) (subfunc param1 param2 : UInt16)
    (hset : ¬(command = 0x9 ∧ subfunc = 0x208)) (p : Program) :
    Stepwise layout depth p Prod.snd
      (p.rmCallFmpdrv (Program.int80 layout depth) command handle subfunc param1 param2) := by
  refine ⟨[.call ⟨command, handle, subfunc, param1, param2, hset⟩], ?_⟩
  rw [List.foldlM_cons, MainStep.run]
  cases p.rmCallFmpdrv (Program.int80 layout depth) command handle subfunc param1 param2 <;> rfl

theorem stepwise_rmSet (handle : UInt8) {type : UInt16} (htype : type ≠ 0x208)
    (param1 param2 : UInt16) (p : Program) :
    Stepwise layout depth p id (p.rmSet (Program.int80 layout depth) handle type param1 param2) :=
  Stepwise.bind (stepwise_rmCallFmpdrv 0x9 handle type param1 param2 (fun h => htype h.2) p)
    fun _ _ => stepwise_ok rfl

theorem stepwise_rmGet (handle : UInt8) (type : UInt16) (p : Program) :
    Stepwise layout depth p Prod.snd (p.rmGet (Program.int80 layout depth) handle type) :=
  stepwise_rmCallFmpdrv 0xA handle type 0 0 (fun h => absurd h.1 (by decide)) p

theorem stepwise_logfAbort {x : Except Stop α} {line : Line} (hline : line.label = .other)
    (hx : Stepwise layout depth (p.logfAbort line) out x) : Stepwise layout depth p out x :=
  .after (.log line hline) rfl (.after (.log .aborting rfl) rfl (.after .close rfl hx))

theorem stepwise_rmRegisterDriverCallback (p : Program) :
    Stepwise layout depth p id (p.rmRegisterDriverCallback (Program.int80 layout depth) layout
      layout.myCallback RMCBMODE_STACK) := by
  unfold Program.rmRegisterDriverCallback
  rw [if_neg layout.myCallback_ne_null]
  dsimp only
  rw [if_pos rfl]
  refine .after (.register layout.myCallback) rfl ?_
  exact Stepwise.bind (stepwise_rmCallFmpdrv 0xB 0 RMCBMODE_STACK _ _
    (fun h => absurd h.1 (by decide)) _) fun _ _ => stepwise_ok rfl

theorem stepwise_pollWhilePlaying (handle : UInt8) (polls : Nat) (p : Program)
    (hpolls : p.script.length < polls) :
    Stepwise layout depth p id (p.pollWhilePlaying (Program.int80 layout depth) handle polls) := by
  induction polls generalizing p with
  | zero => exact absurd hpolls (Nat.not_lt_zero _)
  | succ polls ih =>
      have hfewer : Ends (Broken 0 p) (fun result => result.2.script.length < p.script.length)
          (p.rmGet (Program.int80 layout depth) handle 0x204) :=
        (answered_rmCallFmpdrv ((later_nested layout).int80 depth) 0xA handle 0x204 0 0 p).mono
          fun _ ⟨_, _, _, hanswered⟩ => hanswered.script
      refine Stepwise.bind (stepwise_rmGet handle 0x204 p) ?_
      rintro ⟨status, q⟩ hget
      rw [hget] at hfewer
      have hless : q.script.length < p.script.length := hfewer
      dsimp only
      split
      · exact ih q (Nat.lt_of_lt_of_le hless (Nat.le_of_lt_succ hpolls))
      · exact stepwise_ok rfl

-- `run_test` is one of the programs that take such steps.
theorem runTest_stepwise (layout : Layout) (depth : Nat) (p : Program) :
    Stepwise layout depth p Prod.snd (Program.runTest layout depth p) := by
  have hother : ∀ {command : UInt8} {subfunc : UInt16}, command ≠ 0x9 →
      ¬(command = 0x9 ∧ subfunc = 0x208) := fun hcommand h => hcommand h.1
  unfold Program.runTest
  refine Stepwise.bind (stepwise_rmCallFmpdrv 0xE 0 0 0 0 (hother (by decide)) p) ?_
  rintro ⟨_, p₁⟩ _
  refine Stepwise.bind (stepwise_rmRegisterDriverCallback p₁) ?_
  intro p₂ _
  refine Stepwise.bind (stepwise_rmSet 0 (by decide) 0x4041 0x4004 p₂) ?_
  intro p₃ _
  refine Stepwise.bind (stepwise_rmCallFmpdrv 1 0 0x0002 layout.filename layout.dataSeg
    (hother (by decide)) p₃) ?_
  rintro ⟨rv, p₄⟩ _
  dsimp only
  split
  · exact stepwise_logfAbort rfl (stepwise_ok rfl)
  refine Stepwise.bind (stepwise_rmGet rv.toUInt8 0x202 p₄) ?_
  rintro ⟨types, p₅⟩ _
  dsimp only
  split
  · exact stepwise_logfAbort rfl (stepwise_ok rfl)
  refine .after (.print (.streamsDetected (types.toUInt16 &&& 2 ≠ 0) (types.toUInt16 &&& 1 ≠ 0)) rfl)
    rfl ?_
  refine Stepwise.bind (stepwise_rmSet rv.toUInt8 (by decide) 4 0 _) ?_
  intro p₆ _
  refine Stepwise.bind (stepwise_rmGet rv.toUInt8 0x208 p₆) ?_
  rintro ⟨_, p₇⟩ _
  refine .after (.mute true) rfl (.after .play rfl ?_)
  refine Stepwise.bind (stepwise_rmCallFmpdrv 0x3 rv.toUInt8 1 0 0 (hother (by decide)) _) ?_
  rintro ⟨_, p₈⟩ _
  refine Stepwise.bind (stepwise_pollWhilePlaying rv.toUInt8 _ p₈ (Nat.lt_succ_self _)) ?_
  intro p₉ _
  refine Stepwise.bind (stepwise_rmCallFmpdrv 2 rv.toUInt8 0 0 0 (hother (by decide)) p₉) ?_
  rintro ⟨_, p₁₀⟩ _
  refine .after (.mute false) rfl (.after (.log (.callbackCount p₁₀.callbackCount) rfl) rfl ?_)
  exact stepwise_ok rfl

-- So it ends as all of them do.
theorem runTest_ends {stops : Stop → Prop} {returns : Program → Prop}
    (h : ∀ steps : List MainStep, Ends stops returns (steps.foldlM (MainStep.run layout depth) p)) :
    Ends stops (fun result => returns result.2) (Program.runTest layout depth p) := by
  obtain ⟨steps, hsteps⟩ := runTest_stepwise layout depth p
  have hends := h steps
  rw [hsteps] at hends
  exact hends.of_map

end

-- Whatever the driver answers, and however deep the callbacks during its calls are in one
-- another, `run_test` makes the calls of a test. Where it is stopped, it has made the first of them:
-- none, if the driver is at another interrupt, and all that there are answers for, if that is
-- why it stops.
theorem test_calls (layout : Layout) (depth : Nat) (statics : Statics) (script : List Answer) :
    Ends
      (fun stop => (stop.reason = .aborted ↔ statics.fmpdrvInt ≠ 0x80) ∧
        (stop.reason = .aborted → stop.program.mainCalls = []) ∧
          (stop.reason = .noReply → stop.program.script = []) ∧
            TestBegins layout stop.program.mainCalls)
      (fun result => statics.fmpdrvInt = 0x80 ∧ TestCalls layout result.2.mainCalls result.1)
      (Program.runTest layout depth (.start statics script)) := by
  by_cases hint : statics.fmpdrvInt = 0x80
  · have hstart : Testing [] (Program.start statics script) := ⟨fun _ => rfl, hint⟩
    refine Ends.imp (testing_runTest depth hstart) ?_ ?_
    · intro stop hstop
      exact ⟨⟨fun h => absurd h hstop.aborted, fun h => absurd hint h⟩,
        fun h => absurd h hstop.aborted, hstop.noReply, hstop.begins⟩
    · intro result hcalls
      exact ⟨hint, hcalls⟩
  · -- the first call of the driver is where it ends
    have hcall : (Program.start statics script).rmCallFmpdrv (Program.int80 layout depth) 0xE 0 0 0 0 =
        .error ⟨.aborted, (Program.start statics script).logfAbort .unreachable⟩ := if_pos hint
    have haborted : Program.runTest layout depth (.start statics script) =
        .error ⟨.aborted, (Program.start statics script).logfAbort .unreachable⟩ := by
      unfold Program.runTest
      dsimp only
      rw [hcall]
      rfl
    have hnone : ((Program.start statics script).logfAbort .unreachable).mainCalls = [] := by
      have hmade : Made [] (Program.start statics script) := fun _ => rfl
      exact ((later_logfAbort .unreachable _).made hmade).mainCalls
    have hbegins : TestBegins layout [] :=
      (begins_opening layout ⟨0, 0, 0, 0⟩ ⟨0, 0, 0, 0⟩ ⟨0, 0, 0, 0⟩ ⟨0, 0, 0, 0⟩).of_le
        List.nil_prefix
    rw [haborted]
    refine ⟨⟨fun _ => hint, fun _ => rfl⟩, fun _ => hnone, nofun, ?_⟩
    show TestBegins layout ((Program.start statics script).logfAbort .unreachable).mainCalls
    rw [hnone]
    exact hbegins

end ReelMagic.Streamer
