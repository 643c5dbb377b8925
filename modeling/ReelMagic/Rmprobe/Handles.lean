import ReelMagic.Library.Runs
import ReelMagic.Rmprobe.Runs

namespace ReelMagic.Rmprobe

open Library Library.CString Library.Registers
open ReelMagic.Recorder (Regs)

-- The low byte of what the call of a line returned.
def LineEvent.lowByte (event : LineEvent) : UInt8 :=
  (event.issued.map fun issued => (returned issued.reply).toUInt8).headD 0

-- `callrm` is the low byte of what the most recent CALLRM returned, `call` that of the most recent
-- CALLRM, CALLRMS or CALLVBIOS, and `slot` what `callrm` was at the successful STORHANDs.
structure History where
  callrm : UInt8
  call : UInt8
  slot : Fin 5 → UInt8

def History.after (h : History) (event : LineEvent) : History :=
  match parse event.linebuf with
  | some (.callrm _ _ _ _ _) => { h with callrm := event.lowByte, call := event.lowByte }
  | some (.callrmHand _ _ _ _ _) => { h with callrm := event.lowByte, call := event.lowByte }
  | some (.callrmPtr _ _ _ _) => { h with callrm := event.lowByte, call := event.lowByte }
  | some (.callrms _ _ _ _) => { h with call := event.lowByte }
  | some (.callvbios _ _ _ _ _) => { h with call := event.lowByte }
  | some (.storhand slot) =>
      if hslot : slot.toNat < 5 then
        if event.rv = 1 then { h with slot := Function.update h.slot ⟨slot.toNat, hslot⟩ h.callrm }
        else h
      else h
  | _ => h

def history (events : List LineEvent) : History := events.foldl .after ⟨0, 0, fun _ => 0⟩

-- The handle that a driver call carries.
def Interrupt.handle (issued : Interrupt) : UInt8 := issued.regs.bx.toUInt8

-- What HANDn is to mean, at one line.
def HandsDenote (before : List LineEvent) (event : LineEvent) (w' : World) : Prop :=
  match parse event.linebuf with
  | some (.storhand slot) => ∀ hslot : slot.toNat < 5,
      (event.rv = -1 ↔ (history before).callrm = 0) ∧
        (event.rv = 1 → w'.vars.hand ⟨slot.toNat, hslot⟩ = (history before).callrm)
  | some (.callrmHand _ slot _ _ _) => ∀ hslot : slot.toNat < 5, ∀ issued ∈ event.issued,
      issued.handle = (history before).slot ⟨slot.toNat, hslot⟩
  | some (.waitplayHand slot _) => ∀ hslot : slot.toNat < 5, ∀ issued ∈ event.issued,
      issued.handle = (history before).slot ⟨slot.toNat, hslot⟩
  | _ => True

-- No CALLRMS and no CALLVBIOS has come between, or it returned the same byte.
def CallrmIsLatest (before : List LineEvent) (event : LineEvent) : Prop :=
  ∀ slot, parse event.linebuf = some (.storhand slot) → slot.toNat < 5 →
    (history before).call = (history before).callrm

section

variable {layout : Layout} {w w' : World} {events : List LineEvent} {event : LineEvent}

theorem history_append (events : List LineEvent) (event : LineEvent) :
    history (events ++ [event]) = (history events).after event := by
  rw [history, List.foldl_append]
  rfl

theorem returned_toUInt8 (reply : Regs) : (returned reply).toUInt8 = reply.ax.toUInt32.toUInt8 := by
  rw [← UInt8.toNat_inj, UInt32.toNat_toUInt8, UInt32.toNat_toUInt8, returned, toNat_dword,
    UInt16.toNat_toUInt32]
  omega

theorem handle_driverCall (int command mediaHandle : UInt8) (subfunc param1 param2 : UInt16)
    (linebuf : List UInt8) (reply : Regs) :
    (driverCall int command mediaHandle subfunc param1 param2 linebuf reply).handle = mediaHandle :=
  word_toUInt8 command mediaHandle

-- A line keeps `_last_call_rv` at what the most recent call returned.
theorem Does.lastHandle_after {h : History} (hdoes : Does layout event.linebuf w.fmpDriverInt w.vars
    (parse event.linebuf) event.issued event.rv w'.vars) (hcall : w.vars.lastHandle = h.call) :
    w'.vars.lastHandle = (h.after event).call := by
  obtain ⟨linebuf, issued, rv⟩ := event
  unfold History.after
  generalize w'.vars = vars' at hdoes ⊢
  dsimp only at hdoes ⊢
  generalize parse linebuf = command at hdoes
  cases hdoes with
  | callrm => rfl
  | callrmHand => rfl
  | callrmPtr => rfl
  | callrms => exact (returned_toUInt8 _).symm
  | callvbios => exact (returned_toUInt8 _).symm
  | storhandBad hslot =>
      simp only [dif_neg hslot]
      exact hcall
  | storhandFailed hslot _ =>
      simp only [dif_pos hslot, if_neg (show ¬(-1 : Int) = 1 by decide)]
      exact hcall
  | storhand hslot _ =>
      simp only [dif_pos hslot, if_true]
      exact hcall
  | _ => exact hcall

-- A slot is set where STORHAND sets it, to what was returned last.
theorem Does.hand_after {h : History} (hdoes : Does layout event.linebuf w.fmpDriverInt w.vars
    (parse event.linebuf) event.issued event.rv w'.vars) (hhand : w.vars.hand = h.slot)
    (hlast : ∀ slot, parse event.linebuf = some (.storhand slot) → slot.toNat < 5 →
      w.vars.lastHandle = h.callrm) :
    w'.vars.hand = (h.after event).slot := by
  obtain ⟨linebuf, issued, rv⟩ := event
  unfold History.after
  generalize w'.vars = vars' at hdoes ⊢
  dsimp only at hdoes hlast ⊢
  generalize parse linebuf = command at hdoes hlast
  cases hdoes with
  | storhandBad hslot =>
      simp only [dif_neg hslot]
      exact hhand
  | storhandFailed hslot _ =>
      simp only [dif_pos hslot, if_neg (show ¬(-1 : Int) = 1 by decide)]
      exact hhand
  | storhand hslot _ =>
      simp only [dif_pos hslot, if_true]
      rw [hhand, hlast _ rfl hslot]
  | _ => exact hhand

theorem Does.storhand_cases {linebuf : List UInt8} {int : UInt8} {vars vars' : Vars} {slot : UInt16}
    {issued : List Interrupt} {rv : Int}
    (h : Does layout linebuf int vars (some (.storhand slot)) issued rv vars') (hslot : slot.toNat < 5) :
    (rv = -1 ∧ vars.lastHandle = 0) ∨
      (rv = 1 ∧ vars.lastHandle ≠ 0 ∧ vars'.hand ⟨slot.toNat, hslot⟩ = vars.lastHandle) := by
  cases h with
  | storhandBad hnot => exact absurd hslot hnot
  | storhandFailed _ hzero => exact Or.inl ⟨rfl, hzero⟩
  | storhand _ hnonzero => exact Or.inr ⟨rfl, hnonzero, Function.update_self _ _ _⟩

theorem Does.callrmHand_handle {linebuf : List UInt8} {int : UInt8} {vars vars' : Vars}
    {command slot subfunc param1 param2 : UInt16} {issued : List Interrupt} {rv : Int}
    (h : Does layout linebuf int vars (some (.callrmHand command slot subfunc param1 param2)) issued rv
      vars') (hslot : slot.toNat < 5) :
    ∀ interrupt ∈ issued, interrupt.handle = vars.hand ⟨slot.toNat, hslot⟩ := by
  cases h with
  | callrmHand _ =>
      intro interrupt hmem
      rw [List.mem_singleton.mp hmem]
      exact handle_driverCall _ _ _ _ _ _ _ _

theorem Does.waitplayHand_handle {linebuf : List UInt8} {int : UInt8} {vars vars' : Vars}
    {slot sleepInterval : UInt16} {issued : List Interrupt} {rv : Int}
    (h : Does layout linebuf int vars (some (.waitplayHand slot sleepInterval)) issued rv vars')
    (hslot : slot.toNat < 5) :
    ∀ interrupt ∈ issued, interrupt.handle = vars.hand ⟨slot.toNat, hslot⟩ := by
  cases h with
  | waitplayHand _ _ =>
      intro interrupt hmem
      obtain ⟨reply, _, rfl⟩ := List.mem_map.mp hmem
      exact handle_driverCall _ _ _ _ _ _ _ _

-- The register `_last_call_rv` is that of the most recent call of any kind.
theorem lastHandle_eq (run : Run w.started (LineStep layout) events w') :
    w'.vars.lastHandle = (history events).call := by
  refine Run.invariant (fun events w => w.vars.lastHandle = (history events).call) run rfl ?_
  intro events w event w' hcall hstep
  rw [history_append]
  exact hstep.does.lastHandle_after hcall

-- The slots hold what they are to mean, where only CALLRM was between.
theorem hand_eq (run : Run w.started (LineStep layout) events w')
    (h : Run.Always w.started (LineStep layout) events fun before _ event _ =>
      CallrmIsLatest before event) :
    w'.vars.hand = (history events).slot := by
  have hinvariant := Run.invariant_of_always
    (fun events w => w.vars.lastHandle = (history events).call ∧ w.vars.hand = (history events).slot)
    run h ⟨rfl, rfl⟩ ?_
  · exact hinvariant.2
  · rintro events w event w' ⟨hcall, hhand⟩ hstep hlatest
    rw [history_append]
    refine ⟨hstep.does.lastHandle_after hcall, hstep.does.hand_after hhand ?_⟩
    intro slot hparse hslot
    rw [hcall, hlatest slot hparse hslot]

-- At a STORHAND the two descriptions of the byte that is stored have to agree.
theorem callrmIsLatest_of_handsDenote {before : List LineEvent} (run : Run w.started (LineStep layout) before w')
    {w'' : World} (hstep : LineStep layout w' event w'') (h : HandsDenote before event w'') :
    CallrmIsLatest before event := by
  intro slot hparse hslot
  have hcall := lastHandle_eq run
  have hdoes := hstep.does
  unfold HandsDenote at h
  rw [hparse] at h hdoes
  obtain ⟨hfail, hstore⟩ := h hslot
  rcases hdoes.storhand_cases hslot with ⟨hrv, hzero⟩ | ⟨hrv, _, hhand⟩
  · rw [← hcall, hzero, hfail.mp hrv]
  · rw [← hcall, ← hhand, hstore hrv]

theorem handsDenote_of_callrmIsLatest {before : List LineEvent} (run : Run w.started (LineStep layout) before w')
    {w'' : World} (hstep : LineStep layout w' event w'')
    (hbefore : Run.Always w.started (LineStep layout) before fun before _ event _ =>
      CallrmIsLatest before event)
    (h : CallrmIsLatest before event) : HandsDenote before event w'' := by
  have hcall := lastHandle_eq run
  have hhand := hand_eq run hbefore
  have hdoes := hstep.does
  unfold HandsDenote
  split
  · rename_i slot hparse
    intro hslot
    rw [hparse] at hdoes
    rw [← h slot hparse hslot, ← hcall]
    rcases hdoes.storhand_cases hslot with ⟨hrv, hzero⟩ | ⟨hrv, hnonzero, hstored⟩
    · rw [hrv]
      exact ⟨⟨fun _ => hzero, fun _ => rfl⟩, nofun⟩
    · rw [hrv]
      exact ⟨⟨nofun, fun hzero => absurd hzero hnonzero⟩, fun _ => hstored⟩
  · rename_i command slot subfunc param1 param2 hparse
    intro hslot issued hmem
    rw [hparse] at hdoes
    rw [hdoes.callrmHand_handle hslot issued hmem, hhand]
  · rename_i slot sleepInterval hparse
    intro hslot issued hmem
    rw [hparse] at hdoes
    rw [hdoes.waitplayHand_handle hslot issued hmem, hhand]
  · trivial

end

-- HANDn denotes the result of the last CALLRM in exactly the runs in which at each STORHAND the
-- most recent call was a CALLRM, or returned the same low byte.
theorem hands_denote_iff (layout : Layout) (w : World) (events : List LineEvent) :
    (Run.Always w.started (LineStep layout) events fun before _ event w' =>
      HandsDenote before event w') ↔
    Run.Always w.started (LineStep layout) events fun before _ event _ =>
      CallrmIsLatest before event := by
  constructor
  · intro h before event after w₁ w₂ heq run hstep
    exact callrmIsLatest_of_handsDenote run hstep (h before event after w₁ w₂ heq run hstep)
  · intro h before event after w₁ w₂ heq run hstep
    have hlatest := h before event after w₁ w₂ heq run hstep
    rw [heq] at h
    exact handsDenote_of_callrmIsLatest run hstep h.of_append hlatest

-- The mode that the video BIOS returns is stored for the handle that the driver returned.
theorem mode_stored_as_handle :
    ¬∀ (layout : Layout) (w : World) (events : List LineEvent), Run.Always w.started (LineStep layout) events
      fun before _ event w' => HandsDenote before event w' := by
  intro h
  obtain ⟨w₁, w₂, w₃, step₁, step₂, step₃⟩ : ∃ w₁ w₂ w₃,
      LineStep sampleLayout (World.start [⟨3, 0, 0, 0⟩, ⟨0x5013, 0, 0, 0⟩]).started
        ⟨ascii "CALLRM 1 0 0 0 0\n",
          [driverCall 0 1 0 0 0 0 (ascii "CALLRM 1 0 0 0 0\n") ⟨3, 0, 0, 0⟩], 1⟩ w₁ ∧
      LineStep sampleLayout w₁
        ⟨ascii "CALLVBIOS F 0 0 0 0\n",
          [vbiosCall 0xF 0 0 0 0 (ascii "CALLVBIOS F 0 0 0 0\n") ⟨0x5013, 0, 0, 0⟩], 1⟩ w₂ ∧
      LineStep sampleLayout w₂ ⟨ascii "STORHAND 0\n", [], 1⟩ w₃ :=
    ⟨_, _, _, ⟨rfl, rfl, rfl, rfl, rfl⟩, ⟨rfl, rfl, rfl, rfl, rfl⟩, ⟨rfl, rfl, rfl, rfl, rfl⟩⟩
  have run := Run.snoc (Run.snoc Run.nil step₁) step₂
  have hdenote := Run.Always.last (h _ _ _) run step₃
  exact absurd (callrmIsLatest_of_handsDenote run step₃ hdenote 0 rfl (by decide)) (by decide)

end ReelMagic.Rmprobe
