import ReelMagic.Streamer.Steps

namespace ReelMagic.Streamer

open Library
open ReelMagic.Recorder (CallArgs FarPtr Regs)

def Effect.logged : Effect → Option (Nat × Line)
  | .logfile indent line => some (indent, line)
  | _ => none

-- The log file, line by line behind its indentation.
def Program.log (p : Program) : List (Nat × Line) := p.effects.filterMap Effect.logged

def Statics.Silent (statics : Statics) : Prop := statics.muted = true ∨ statics.logout = false

-- Matched lines, of which those of a call of the driver are the deeper ones.
abbrev Matched (base : Nat) (lines : List (Nat × Line)) (names : List LogBracket) : Prop :=
  Run [] (Matching Line.label LogBracket.weight base) lines names

-- What has been logged since this state is matched by itself, at its indentation, up to the
-- brackets that are open yet.
def LogsOn (p : Program) (log : List (Nat × Line)) (names : List LogBracket) : Prop :=
  ∃ lines, log = p.log ++ lines ∧ Matched p.statics.indentCount.toNat lines names ∧
    (p.statics.Silent → lines = [])

-- The count of the indentation stays an `int` while calls of the driver go this much deeper.
def Statics.Fits (statics : Statics) (limit : Nat) : Prop :=
  statics.indentCount.toNat + limit < 0x8000

-- Between two states, with calls of the driver up to `limit` deep, and from a state to a stop.
def Balanced (limit : Nat) (p q : Program) : Prop :=
  p.statics.Fits limit → q.statics = p.statics ∧ LogsOn p q.log []

def BalancedAt (limit : Nat) (p : Program) (stop : Stop) : Prop :=
  p.statics.Fits limit → ∃ names, LogsOn p stop.program.log names

section

variable {limit : Nat} {p q r : Program} {stop : Stop} {names : List LogBracket}
  {log : List (Nat × Line)}

theorem log_emit (effects : List Effect) (p : Program) :
    (p.emit effects).log = p.log ++ effects.filterMap Effect.logged :=
  List.filterMap_append ..

theorem LogsOn.refl (p : Program) : LogsOn p p.log [] :=
  ⟨[], (List.append_nil _).symm, .nil, fun _ => rfl⟩

theorem LogsOn.trans (h : LogsOn p q.log []) (hstatics : q.statics = p.statics)
    (h' : LogsOn q log names) : LogsOn p log names := by
  obtain ⟨lines, hlog, hrun, hsilent⟩ := h
  obtain ⟨lines', hlog', hrun', hsilent'⟩ := h'
  rw [hstatics] at hrun' hsilent'
  refine ⟨lines ++ lines', ?_, hrun.append hrun', ?_⟩
  · rw [hlog', hlog, List.append_assoc]
  · intro hp
    rw [hsilent hp, hsilent' hp, List.append_nil]

theorem Balanced.of_quiet (hstatics : q.statics = p.statics) (hlog : q.log = p.log) :
    Balanced limit p q := by
  refine fun _ => ⟨hstatics, ?_⟩
  rw [hlog]
  exact LogsOn.refl p

theorem Balanced.refl (p : Program) : Balanced limit p p := .of_quiet rfl rfl

theorem Balanced.trans (h : Balanced limit p q) (h' : Balanced limit q r) : Balanced limit p r := by
  intro hfits
  obtain ⟨hstatics, hlogs⟩ := h hfits
  obtain ⟨hstatics', hlogs'⟩ := h' (by rw [hstatics]; exact hfits)
  exact ⟨hstatics'.trans hstatics, hlogs.trans hstatics hlogs'⟩

theorem Balanced.after (h : Balanced limit p q) (h' : BalancedAt limit q stop) :
    BalancedAt limit p stop := by
  intro hfits
  obtain ⟨hstatics, hlogs⟩ := h hfits
  obtain ⟨names, hlogs'⟩ := h' (by rw [hstatics]; exact hfits)
  exact ⟨names, hlogs.trans hstatics hlogs'⟩

theorem balancedAt_refl (reason : Reason) (p : Program) : BalancedAt limit p ⟨reason, p⟩ :=
  fun _ => ⟨[], LogsOn.refl p⟩

theorem indent_eq (h : p.statics.Fits limit) : p.statics.indent = p.statics.indentCount.toNat := by
  have hlt : p.statics.indentCount.toNat < 0x8000 := Nat.lt_of_le_of_lt (Nat.le_add_right _ _) h
  exact if_pos (UInt16.lt_iff_toNat_lt.mpr hlt)

-- The lines of the log file that are there for a line that is logged.
def Program.logLines (indent : Nat) (line : Line) (p : Program) : List (Nat × Line) :=
  if p.statics.muted = false ∧ p.statics.logout = true then [(indent, line)] else []

theorem log_lines (indent : Nat) (line : Line) (p : Program) :
    (p.emit (p.lineEffects indent line)).log = p.log ++ p.logLines indent line := by
  rw [log_emit]
  unfold Program.lineEffects Program.logLines
  cases p.statics.muted <;> cases p.statics.stdouton <;> cases p.statics.logout <;> rfl

theorem logLines_of_silent {indent : Nat} {line : Line} (h : p.statics.Silent) :
    p.logLines indent line = [] := by
  unfold Program.logLines
  rcases h with h | h
  · rw [h]
    rfl
  · rw [h, if_neg (by simp)]

theorem logLines_of_not_silent {indent : Nat} {line : Line} (h : ¬p.statics.Silent) :
    p.logLines indent line = [(indent, line)] := by
  obtain ⟨hmuted, hlogout⟩ := not_or.mp h
  unfold Program.logLines
  rw [if_pos]
  exact ⟨Bool.eq_false_of_not_eq_true hmuted, Bool.eq_true_of_not_eq_false hlogout⟩

-- A line that is no bracket, where the log is.
theorem logsOn_line {line : Line} (hline : line.label = .other) {indent : Nat}
    (hindent : indent = p.statics.indentCount.toNat) :
    LogsOn p (p.emit (p.lineEffects indent line)).log [] := by
  refine ⟨p.logLines indent line, log_lines indent line p, ?_, logLines_of_silent⟩
  by_cases h : p.statics.Silent
  · rw [logLines_of_silent h]
    exact .nil
  · rw [logLines_of_not_silent h, hindent]
    exact Run.snoc .nil (.other hline)

theorem balanced_logfi {line : Line} (hline : line.label = .other) (p : Program) :
    Balanced limit p (p.logfi line) :=
  fun hfits => ⟨rfl, logsOn_line hline (indent_eq hfits)⟩

theorem balanced_emit {effects : List Effect} (h : effects.filterMap Effect.logged = [])
    (p : Program) : Balanced limit p (p.emit effects) := by
  refine .of_quiet rfl ?_
  rw [log_emit, h, List.append_nil]

-- Behind the line that opens a bracket, where the indentation is deeper by its weight.
structure Entered (p : Program) (first : Line) (name : LogBracket) (q : Program) : Prop where
  label : first.label = .opening name
  log : q.log = p.log ++ p.logLines p.statics.indentCount.toNat first
  indent : q.statics.indentCount.toNat = p.statics.indentCount.toNat + name.weight
  silent : q.statics.Silent ↔ p.statics.Silent

theorem Entered.opened {first : Line} {name : LogBracket} (h : Entered p first name q)
    (hlogs : LogsOn q log names) : ∃ names, LogsOn p log names := by
  obtain ⟨lines, hlog, hrun, hsilent⟩ := hlogs
  rw [h.log, List.append_assoc] at hlog
  rw [h.indent] at hrun
  by_cases hp : p.statics.Silent
  · rw [logLines_of_silent hp, hsilent (h.silent.mpr hp)] at hlog
    exact ⟨[], [], hlog, .nil, fun _ => rfl⟩
  · rw [logLines_of_not_silent hp] at hlog
    exact ⟨names ++ [name], _, hlog, Matching.opened h.label hrun, fun hs => absurd hs hp⟩

-- The line that closes the bracket is behind what is matched by itself.
theorem Entered.enclosed {first last : Line} {name : LogBracket} (h : Entered p first name q)
    (hlast : last.label = .closing name) (hlogs : LogsOn q r.log []) (hstatics : r.statics = p.statics)
    (hfits : p.statics.Fits limit) : LogsOn p (r.logfi last).log [] := by
  obtain ⟨lines, hlog, hrun, hsilent⟩ := hlogs
  rw [h.indent] at hrun
  have hindent : r.statics.indent = p.statics.indentCount.toNat := by
    rw [hstatics]
    exact indent_eq hfits
  refine ⟨p.logLines p.statics.indentCount.toNat first ++ lines ++
    p.logLines p.statics.indentCount.toNat last, ?_, ?_, ?_⟩
  · rw [Program.logfi, log_lines, hlog, h.log, hindent]
    simp only [Program.logLines, hstatics, List.append_assoc]
  · by_cases hp : p.statics.Silent
    · rw [logLines_of_silent hp, logLines_of_silent hp, hsilent (h.silent.mpr hp)]
      exact .nil
    · rw [logLines_of_not_silent hp, logLines_of_not_silent hp]
      exact Matching.enclose h.label hlast hrun
  · intro hp
    rw [logLines_of_silent hp, logLines_of_silent hp, hsilent (h.silent.mpr hp)]
    rfl

theorem toNat_add_one {i : UInt16} (h : i.toNat + 1 < 0x8000) : (i + 1).toNat = i.toNat + 1 := by
  rw [UInt16.toNat_add]
  show (i.toNat + 1) % 65536 = i.toNat + 1
  omega

theorem entered_call (command handle : UInt8) (subfunc param1 param2 : UInt16)
    (hfits : p.statics.Fits (limit + 1)) :
    Entered p (.sdk (.enterCallFmpdrv command handle subfunc param1 param2))
      (.call command handle subfunc param1 param2)
      (p.logfi (.sdk (.enterCallFmpdrv command handle subfunc param1 param2))).logfAddindent where
  label := rfl
  log := by
    rw [← indent_eq hfits]
    exact log_lines _ _ p
  indent := by
    have hlt : p.statics.indentCount.toNat + (limit + 1) < 0x8000 := hfits
    exact toNat_add_one (show p.statics.indentCount.toNat + 1 < 0x8000 by omega)
  silent := Iff.rfl

theorem entered_callback (args : CallArgs) (hfits : p.statics.Fits limit) :
    Entered p (.enterMyCallback args) (.callback args) (p.logfi (.enterMyCallback args)) where
  label := rfl
  log := by
    rw [← indent_eq hfits]
    exact log_lines _ _ p
  indent := rfl
  silent := Iff.rfl

theorem fits_addindent {line : Line} (hfits : p.statics.Fits (limit + 1)) :
    (p.logfi line).logfAddindent.statics.Fits limit := by
  have hfits' : p.statics.indentCount.toNat + (limit + 1) < 0x8000 := hfits
  have hindent : (p.statics.indentCount + 1).toNat = p.statics.indentCount.toNat + 1 :=
    toNat_add_one (by omega)
  show (p.statics.indentCount + 1).toNat + limit < 0x8000
  omega

-- The indentation comes back to what it was.
theorem statics_delindent {line : Line} (hfits : p.statics.Fits (limit + 1))
    (hstatics : q.statics = (p.logfi line).logfAddindent.statics) :
    q.logfDelindent.statics = p.statics := by
  have hfits' : p.statics.indentCount.toNat + (limit + 1) < 0x8000 := hfits
  have hcount : q.statics.indentCount = p.statics.indentCount + 1 := by
    rw [hstatics]
    rfl
  have hne : q.statics.indentCount ≠ 0 := by
    rw [hcount, ← UInt16.toNat_inj.ne, toNat_add_one (by omega)]
    exact Nat.succ_ne_zero _
  unfold Program.logfDelindent
  rw [if_pos hne]
  show { q.statics with indentCount := q.statics.indentCount - 1 } = p.statics
  rw [hcount, UInt16.add_sub_cancel, hstatics]
  rfl

theorem balancedAt_abort (line : Line) (hline : line.label = .other) (p : Program) :
    BalancedAt limit p ⟨.aborted, p.logfAbort line⟩ := by
  have hlogged : Balanced limit p ((p.logfi line).logfi .aborting) :=
    (balanced_logfi hline p).trans (balanced_logfi rfl _)
  exact fun hfits => ⟨[], (hlogged hfits).2⟩

-- A call of the driver is logged around what is logged during it.
theorem balanced_rmCallFmpdrv {int80 : Regs → Program → Except Stop (Regs × Program)}
    (hint80 : ∀ regs p, Ends (BalancedAt limit p) (fun result => Balanced limit p result.2)
      (int80 regs p))
    (command handle : UInt8) (subfunc param1 param2 : UInt16) (p : Program) :
    Ends (BalancedAt (limit + 1) p) (fun result => Balanced (limit + 1) p result.2)
      (p.rmCallFmpdrv int80 command handle subfunc param1 param2) := by
  unfold Program.rmCallFmpdrv
  split
  · exact balancedAt_abort .unreachable rfl p
  refine Ends.bind (Ends.imp (hint80 _ _) ?_ fun _ hr => hr) ?_
  · intro stop hstop hfits
    obtain ⟨names, hlogs⟩ := hstop (fits_addindent hfits)
    exact (entered_call command handle subfunc param1 param2 hfits).opened hlogs
  · rintro ⟨reply, q⟩ hq hfits
    obtain ⟨hstatics, hlogs⟩ := hq (fits_addindent hfits)
    have hrestored := statics_delindent hfits hstatics
    have hlog : q.logfDelindent.log = q.log := by
      obtain ⟨statics, hdelindent⟩ := q.logfDelindent_eq
      rw [hdelindent]
      rfl
    rw [← hlog] at hlogs
    exact ⟨hrestored,
      (entered_call command handle subfunc param1 param2 hfits).enclosed rfl hlogs hrestored hfits⟩

theorem balanced_respected {int80 : Regs → Program → Except Stop (Regs × Program)}
    (hint80 : ∀ regs p, Ends (BalancedAt limit p) (fun result => Balanced limit p result.2)
      (int80 regs p)) :
    Respected int80 (Balanced (limit + 1)) (BalancedAt (limit + 1)) where
  refl := Balanced.refl
  trans := Balanced.trans
  after := Balanced.after
  wild := balancedAt_refl .wildPointer
  logfi := fun _ p hline => balanced_logfi hline p
  world := fun _ _ => .of_quiet rfl rfl
  dos := fun calls p => balanced_emit (by simp [List.filterMap_map, Effect.logged]) p
  call := balanced_rmCallFmpdrv hint80
  entered := by
    intro args p stop hstop hfits
    obtain ⟨names, hlogs⟩ := hstop hfits
    exact (entered_callback args hfits).opened hlogs
  callback := by
    intro args p q hq hfits
    obtain ⟨hstatics, hlogs⟩ := hq hfits
    exact ⟨hstatics, (entered_callback args hfits).enclosed rfl hlogs hstatics hfits⟩

theorem balanced_printDot (p : Program) : Balanced limit p p.printDot := by
  unfold Program.printDot
  split
  · split
    · exact .of_quiet rfl ((log_emit _ _).trans (List.append_nil _))
    · exact .of_quiet rfl ((log_emit _ _).trans (List.append_nil _))
  · exact Balanced.refl p

theorem balanced_enter (request : Request) (p : Program) :
    Balanced limit p (p.emit [.enter request]).counted := by
  have hentered : Balanced limit p { p.emit [.enter request] with
      callbackCount := p.callbackCount + 1 } :=
    .of_quiet rfl ((log_emit [.enter request] p).trans (List.append_nil _))
  exact hentered.trans (balanced_printDot _)

theorem balanced_returned {p : Program} {regs : Regs} {result : Regs × Program}
    (h : Returned (Balanced limit) p regs result) : Balanced limit p result.2 := by
  obtain ⟨answer, script, q, _, hq, rfl⟩ := h
  have hlisted : Balanced limit q (q.emit [.int80 regs answer.regs]) := balanced_emit rfl q
  exact Balanced.trans (.of_quiet rfl rfl) (hq.trans hlisted)

-- With callbacks up to `depth` deep, calls of the driver are as deep inside of an INT 80h.
theorem balanced_nested (layout : Layout) :
    Nested layout Balanced BalancedAt (fun depth => Balanced (depth + 1))
      (fun depth => BalancedAt (depth + 1)) where
  refl := fun _ => Balanced.refl
  trans := Balanced.trans
  after := Balanced.after
  unanswered := fun _ p _ => balancedAt_refl .noReply p
  refused := fun _ _ p _ => balancedAt_refl _ p
  script := fun _ _ _ _ _ => .of_quiet rfl rfl
  respected := fun _ hint80 =>
    balanced_respected fun regs p => (hint80 regs p).mono fun _ => balanced_returned
  served := fun request hq => ((balanced_enter request _).trans hq).trans (balanced_emit rfl _)
  broken := fun request hstop => (balanced_enter request _).after hstop

theorem balanced_call (layout : Layout) (depth : Nat) (command handle : UInt8)
    (subfunc param1 param2 : UInt16) (p : Program) :
    Ends (BalancedAt (depth + 1) p) (fun result => Balanced (depth + 1) p result.2)
      (p.rmCallFmpdrv (Program.int80 layout depth) command handle subfunc param1 param2) :=
  balanced_rmCallFmpdrv (fun regs q =>
    ((balanced_nested layout).int80 depth regs q).mono fun _ => balanced_returned) _ _ _ _ _ p

end

-- The log file of the program: every line that says that a call of the driver or a callback is
-- over names the last one that was begun and is not over, and every line is indented by the number
-- of calls of the driver around it. At the end of every step none of them is left. Callbacks may
-- come in callbacks, as deep as the indentation can be counted.
theorem session_log_matched (layout : Layout) (depth : Nat) (hdepth : depth + 1 < 0x8000)
    (statics : Statics) (script : List Answer) (steps : List MainStep) :
    Ends (fun stop => ∃ names, Matched 0 stop.program.log names) (fun p => Matched 0 p.log [])
      (steps.foldlM (MainStep.run layout depth)
        (.start { statics with indentCount := 0 } script)) := by
  have hinv : Ends (fun stop => ∃ names, Matched 0 stop.program.log names)
      (fun p => p.statics.indentCount = 0 ∧ Matched 0 p.log [])
      (steps.foldlM (MainStep.run layout depth)
        (.start { statics with indentCount := 0 } script)) := by
    refine Ends.foldlM ?_ _ ⟨rfl, .nil⟩ steps
    rintro p step ⟨hindent, hrun⟩
    have hfits : p.statics.Fits (depth + 1) := by
      rw [Statics.Fits, hindent]
      show 0 + (depth + 1) < 0x8000
      omega
    -- what has been logged before goes on with what a step logs
    have hlater : ∀ {log names}, LogsOn p log names → Matched 0 log names := by
      rintro log names ⟨lines, hlog, hlines, _⟩
      rw [hindent] at hlines
      rw [hlog]
      exact hrun.append hlines
    cases step with
    | call made =>
        refine Ends.bind (Ends.imp (balanced_call layout depth made.command made.handle made.subfunc
          made.param1 made.param2 p) ?_ fun _ hr => hr) ?_
        · intro stop hstop
          obtain ⟨names, hlogs⟩ := hstop hfits
          exact ⟨names, hlater hlogs⟩
        · rintro ⟨rv, q⟩ hq
          obtain ⟨hstatics, hlogs⟩ := hq hfits
          exact ⟨hstatics ▸ hindent, hlater hlogs⟩
    | log line plain => exact ⟨hindent, hlater (balanced_logfi plain p hfits).2⟩
    | print line plain => exact ⟨hindent, hlater (logsOn_line plain (by rw [hindent]; rfl))⟩
    | register cbfunc => exact ⟨hindent, hrun⟩
    | mute val => exact ⟨hindent, hrun⟩
    | close => exact ⟨hindent, hrun⟩
    | play =>
        have hplayed : Balanced (depth + 1) p (p.emit [.play]) := balanced_emit rfl p
        exact ⟨hindent, hlater (hplayed hfits).2⟩
  exact hinv.mono fun _ h => h.2

-- The driver has the callback open a file, and calls it once more when the callback asks for the
-- pointer. The file cannot be opened.
def nestedScript : List Answer :=
  [⟨[⟨⟨4, 1, 0, 0⟩, ⟨none, none⟩⟩], ⟨1, 0, 0, 0⟩⟩, ⟨[⟨⟨9, 1, 0, 0⟩, ⟨none, none⟩⟩], ⟨0, 0, 0, 0⟩⟩,
    ⟨[], ⟨0, 0, 0, 0⟩⟩]

def nestedSteps : List MainStep := [.register 0x0100, .call sampleOpen]

def loggedStatics : Statics := ⟨0x80, 0, false, false, true, 0, false⟩

def nestedLog : List (Nat × Line) :=
  [(0, .sdk (.enterCallFmpdrv 1 0 2 0x0010 0x1000)), (1, .callbackCount 1),
    (1, .enterMyCallback ⟨4, 1, 0, 0⟩), (1, .sdk (.enterCallFmpdrv 0xA 1 0x208 0 0)),
    (2, .callbackCount 2), (2, .enterMyCallback ⟨9, 1, 0, 0⟩),
    (2, .sdk (.enterCallFmpdrv 0xA 1 0x208 0 0)), (2, .sdk (.exitCallFmpdrv 0xA 1 0x208 0 0 0 0)),
    (2, .exitMyCallback ⟨9, 1, 0, 0⟩), (1, .sdk (.exitCallFmpdrv 0xA 1 0x208 0 0 0 0)),
    (1, .openingHandle), (1, .openFileFailed), (1, .exitMyCallback ⟨4, 1, 0, 0⟩),
    (0, .sdk (.exitCallFmpdrv 1 0 2 0x0010 0x1000 0 1))]

theorem session_log_matched_nested :
    ∃ p, nestedSteps.foldlM (MainStep.run sampleLayout 2)
        (.start { loggedStatics with indentCount := 0 } nestedScript) = .ok p ∧
      p.log = nestedLog ∧ Matched 0 nestedLog [] := by
  obtain ⟨steps, hsteps⟩ : ∃ steps, steps = nestedSteps := ⟨_, rfl⟩
  have hends := session_log_matched sampleLayout 2 (by decide) loggedStatics nestedScript steps
  have hrun : (nestedSteps.foldlM (MainStep.run sampleLayout 2)
      (.start { loggedStatics with indentCount := 0 } nestedScript)).toOption.map Program.log =
        some nestedLog := by
    decide +kernel
  rw [hsteps] at hends
  obtain ⟨p, hp, hlog, hmatched⟩ := hends.exists_of_toOption hrun
  rw [hlog] at hmatched
  exact ⟨p, hp, hlog, hmatched⟩

end ReelMagic.Streamer
