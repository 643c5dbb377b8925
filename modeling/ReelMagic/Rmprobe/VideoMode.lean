import ReelMagic.Library.Runs
import ReelMagic.Rmprobe.Runs

namespace ReelMagic.Rmprobe

open Library Library.CString
open ReelMagic.Recorder (Regs)

-- AL as the video BIOS leaves it.
def LineEvent.mode (event : LineEvent) : UInt8 :=
  (event.issued.map fun issued => issued.reply.ax.toUInt8).headD 0

-- `stored` is the mode that was returned to the most recent STORVGAMODE, `latest` the mode that
-- was returned to the most recent STORVGAMODE or LOADVGAMODE.
structure Modes where
  stored : Option UInt8
  latest : UInt8

def Modes.after (modes : Modes) (event : LineEvent) : Modes :=
  match parse event.linebuf with
  | some .storvgamode => ⟨some event.mode, event.mode⟩
  | some .loadvgamode => { modes with latest := event.mode }
  | _ => modes

def modes (events : List LineEvent) : Modes := events.foldl .after ⟨none, 0⟩

-- LOADVGAMODE calls function 0 of the video BIOS with the stored mode, if there is one.
def ModeRestored (before : List LineEvent) (event : LineEvent) : Prop :=
  parse event.linebuf = some .loadvgamode → ∀ mode ∈ (modes before).stored,
    event.issued.map (fun issued => (issued.num, issued.regs.ax)) = [(0x10, mode.toUInt16)]

-- No LOADVGAMODE has come between, or the mode was the same after it.
def StoredIsLatest (before : List LineEvent) (event : LineEvent) : Prop :=
  parse event.linebuf = some .loadvgamode → ∀ mode ∈ (modes before).stored,
    (modes before).latest = mode

section

variable {layout : Layout} {w w' : World} {events : List LineEvent} {event : LineEvent}

theorem modes_append (events : List LineEvent) (event : LineEvent) :
    modes (events ++ [event]) = (modes events).after event := by
  rw [modes, List.foldl_append]
  rfl

theorem Does.lastVgaMode_after {modes : Modes} (hdoes : Does layout event.linebuf w.fmpDriverInt w.vars
    (parse event.linebuf) event.issued event.rv w'.vars) (h : w.vars.lastVgaMode = modes.latest) :
    w'.vars.lastVgaMode = (modes.after event).latest := by
  obtain ⟨linebuf, issued, rv⟩ := event
  unfold Modes.after
  generalize w'.vars = vars' at hdoes ⊢
  dsimp only at hdoes ⊢
  generalize parse linebuf = command at hdoes
  cases hdoes with
  | storvgamode => rfl
  | loadvgamode => rfl
  | _ => exact h

-- `_last_vga_mode` is what was returned last, to either of the two commands.
theorem lastVgaMode_eq (run : Run w.started (LineStep layout) events w') :
    w'.vars.lastVgaMode = (modes events).latest := by
  refine Run.invariant (fun events w => w.vars.lastVgaMode = (modes events).latest) run rfl ?_
  intro events w event w' h hstep
  rw [modes_append]
  exact hstep.does.lastVgaMode_after h

theorem Does.loadvgamode_issued {linebuf : List UInt8} {int : UInt8} {vars vars' : Vars}
    {issued : List Interrupt} {rv : Int}
    (h : Does layout linebuf int vars (some .loadvgamode) issued rv vars') :
    issued.map (fun issued => (issued.num, issued.regs.ax)) = [(0x10, vars.lastVgaMode.toUInt16)] := by
  cases h with
  | loadvgamode =>
      have hax : (0 : UInt8).toUInt16 <<< 8 ||| vars.lastVgaMode.toUInt16 = vars.lastVgaMode.toUInt16 :=
        UInt16.zero_or
      rw [List.map_singleton, vbiosCall, hax]

end

-- LOADVGAMODE restores the stored mode in exactly the runs in which at each LOADVGAMODE the mode
-- returned last is the stored one.
theorem mode_restored_iff (layout : Layout) (w : World) (events : List LineEvent) :
    (Run.Always w.started (LineStep layout) events fun before _ event _ => ModeRestored before event) ↔
      Run.Always w.started (LineStep layout) events fun before _ event _ =>
        StoredIsLatest before event := by
  refine Run.always_congr ?_
  intro before w₁ event w₂ run hstep
  have hdoes := hstep.does
  constructor
  · intro hrestores hparse mode hmode
    have hrestored := hrestores hparse mode hmode
    rw [hparse] at hdoes
    rw [hdoes.loadvgamode_issued] at hrestored
    have hax := (Prod.mk.inj (List.cons.inj hrestored).1).2
    rw [← lastVgaMode_eq run, ← UInt8.toUInt8_toUInt16 w₁.vars.lastVgaMode, hax,
      UInt8.toUInt8_toUInt16]
  · intro hlatest hparse mode hmode
    rw [hparse] at hdoes
    rw [hdoes.loadvgamode_issued, lastVgaMode_eq run, hlatest hparse mode hmode]

-- The second LOADVGAMODE takes what the BIOS left in AL after the first for the mode.
theorem second_restore_differs :
    ¬∀ (layout : Layout) (w : World) (events : List LineEvent), Run.Always w.started (LineStep layout)
      events fun before _ event _ => ModeRestored before event := by
  intro h
  obtain ⟨w₁, w₂, w₃, step₁, step₂, step₃⟩ : ∃ w₁ w₂ w₃,
      LineStep sampleLayout (World.start [⟨0x5003, 0, 0, 0⟩, ⟨0x0030, 0, 0, 0⟩, ⟨0, 0, 0, 0⟩]).started
        ⟨ascii "STORVGAMODE\n", [vbiosCall 0xF 0 0 0 0 (ascii "STORVGAMODE\n") ⟨0x5003, 0, 0, 0⟩], 1⟩
        w₁ ∧
      LineStep sampleLayout w₁
        ⟨ascii "LOADVGAMODE\n", [vbiosCall 0 3 0 0 0 (ascii "LOADVGAMODE\n") ⟨0x0030, 0, 0, 0⟩], 1⟩ w₂ ∧
      LineStep sampleLayout w₂
        ⟨ascii "LOADVGAMODE\n", [vbiosCall 0 0x30 0 0 0 (ascii "LOADVGAMODE\n") ⟨0, 0, 0, 0⟩], 1⟩ w₃ :=
    ⟨_, _, _, ⟨rfl, rfl, rfl, rfl, rfl⟩, ⟨rfl, rfl, rfl, rfl, rfl⟩, ⟨rfl, rfl, rfl, rfl, rfl⟩⟩
  have run := Run.snoc (Run.snoc Run.nil step₁) step₂
  have hrestored := Run.Always.last (h _ _ _) run step₃
  exact absurd (hrestored rfl 3 rfl) (by decide)

end ReelMagic.Rmprobe
