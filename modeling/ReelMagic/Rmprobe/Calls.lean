import ReelMagic.Rmprobe.Meaning
import ReelMagic.Rmprobe.Spelling

namespace ReelMagic.Rmprobe

open Library.CString Library.Registers Library.Scanf
open ReelMagic.Recorder (Regs)

-- `DX:AX` is what the pointer stands for. A name is where it is written, and ends with a NUL
-- where its closing quote was.
def PointsTo (layout : Layout) (linebuf : List UInt8) (issued : Interrupt) : PtrForm → Prop
  | .quoted name => ∃ before after, QUOTE ∉ before ∧
      linebuf = before ++ QUOTE :: name ++ QUOTE :: after ∧ issued.regs.dx = layout.ds ∧
      issued.regs.ax = layout.linebuf + UInt16.ofNat (before.length + 1) ∧
      issued.linebuf = before ++ QUOTE :: name ++ 0 :: after
  | .cbfunc => issued.regs.dx = layout.driverCallbackShim.seg ∧
      issued.regs.ax = layout.driverCallbackShim.off
  | .strbuf => issued.regs.dx = layout.ds ∧ issued.regs.ax = layout.strbuf
  | .null => issued.regs.dx = 0 ∧ issued.regs.ax = 0

-- The interrupt carries the numbers of the call.
def Delivers (layout : Layout) (linebuf : List UInt8) (w : World) (issued : Interrupt) :
    CallForm → Prop
  | .callrm command handle subfunc param1 param2 =>
      issued.num = w.fmpDriverInt ∧
        issued.regs = ⟨param1, command.toUInt16 * 256 + handle.toUInt16, subfunc, param2⟩
  | .callrmHand command slot subfunc param1 param2 =>
      issued.num = w.fmpDriverInt ∧ issued.regs =
        ⟨param1, command.toUInt16 * 256 + (w.vars.hand slot).toUInt16, subfunc, param2⟩
  | .callrmPtr command handle subfunc ptr =>
      issued.num = w.fmpDriverInt ∧
        issued.regs.bx = command.toUInt16 * 256 + handle.toUInt16 ∧ issued.regs.cx = subfunc ∧
        PointsTo layout linebuf issued ptr
  | .callrms function subfunction param1 param2 =>
      issued.num = 0x2F ∧
        issued.regs = ⟨0x9800 + function.toUInt16, subfunction, param1, param2⟩
  | .callvbios function param1 param2 param3 param4 =>
      issued.num = 0x10 ∧
        issued.regs = ⟨function.toUInt16 * 256 + param1.toUInt16, param2, param3, param4⟩

-- What a call returns.
def CallForm.value (reply : Regs) : CallForm → Nat
  | .callrms _ _ _ _ => reply.ax.toNat
  | .callvbios _ _ _ _ _ => reply.ax.toNat
  | _ => reply.dx.toNat * 0x10000 + reply.ax.toNat

-- The commands that are one call, with a slot that exists.
def Command.IsCall : Command → Prop
  | .callrm _ _ _ _ _ => True
  | .callrmHand _ slot _ _ _ => slot.toNat < 5
  | .callrmPtr _ _ _ _ => True
  | .callrms _ _ _ _ => True
  | .callvbios _ _ _ _ _ => True
  | _ => False

section Execution

variable {layout : Layout} {linebuf : List UInt8} {w : World} {reply : Regs} {rest : List Regs}

-- A call that is answered returns.
theorem exec_call {command : Command} (hcall : command.IsCall) (h : w.replies = reply :: rest)
    (layout : Layout) (linebuf : List UInt8) :
    ∃ rv w', command.exec layout linebuf w = .ok (rv, w') := by
  cases command with
  | callrm command mediaHandle subfunc param1 param2 =>
      obtain ⟨w', hok, _⟩ := callFmpdriver_of_replies h command.toUInt8 mediaHandle.toUInt8 subfunc param1
        param2 linebuf
      rw [Command.exec, hok]
      exact ⟨_, _, rfl⟩
  | callrmHand command slot subfunc param1 param2 =>
      have hslot : slot.toNat < 5 := hcall
      obtain ⟨w', hok, _⟩ := callFmpdriver_of_replies h command.toUInt8 (w.vars.hand ⟨slot.toNat, hslot⟩)
        subfunc param1 param2 linebuf
      have hhand : handAt slot w = .ok (w.vars.hand ⟨slot.toNat, hslot⟩) := dif_pos hslot
      rw [Command.exec, hhand]
      show ∃ rv w', (callFmpdriver command.toUInt8 (w.vars.hand ⟨slot.toNat, hslot⟩) subfunc param1
        param2 linebuf w >>= _) = .ok (rv, w')
      rw [hok]
      exact ⟨_, _, rfl⟩
  | callrmPtr command mediaHandle subfunc ptr =>
      obtain ⟨w', hok, _⟩ := callFmpdriver_of_replies h command.toUInt8 mediaHandle.toUInt8 subfunc
        (ptr.farPtr layout).off (ptr.farPtr layout).seg (ptr.linebuf linebuf)
      rw [Command.exec, callrmPtr, callFmpdriverPtr, hok]
      exact ⟨_, _, rfl⟩
  | callrms function subfunc param1 param2 =>
      obtain ⟨w', hok⟩ := callRmdevsys_of_replies h function.toUInt8 subfunc param1 param2 linebuf
      rw [Command.exec, hok]
      exact ⟨_, _, rfl⟩
  | callvbios function param1 param2 param3 param4 =>
      obtain ⟨w', hok⟩ := callVbios_of_replies h function.toUInt8 param1.toUInt8 param2 param3 param4
        linebuf
      rw [Command.exec, hok]
      exact ⟨_, _, rfl⟩
  | _ => exact False.elim hcall

theorem Does.call {command : Command} {int : UInt8} {vars vars' : Vars} {issued : List Interrupt}
    {rv : Int} (h : Does layout linebuf int vars (some command) issued rv vars')
    (hcall : command.IsCall) : rv = 1 ∧ ∃ interrupt, issued = [interrupt] := by
  cases h <;> first | exact ⟨rfl, _, rfl⟩ | exact False.elim hcall

-- A call issues one interrupt, and takes the reply to it.
theorem call_performed {command : Command} (hparse : parse linebuf = some command)
    (hcall : command.IsCall) (h : w.replies = reply :: rest) :
    ∃ issued w', processScriptLine layout linebuf w = .ok (1, w') ∧
      w'.interrupts = w.interrupts ++ [issued] ∧ issued.reply = reply ∧
      Does layout linebuf w.fmpDriverInt w.vars (some command) [issued] 1 w'.vars := by
  obtain ⟨rv, w', hexec⟩ := exec_call hcall h layout linebuf
  have hline : processScriptLine layout linebuf w = .ok (rv, w') := by
    rw [processScriptLine_eq, hparse]
    exact hexec
  obtain ⟨issued, hperforms⟩ := performs_of_processScriptLine hline
  have hdoes := hperforms.does
  rw [hparse] at hdoes
  obtain ⟨rfl, interrupt, rfl⟩ := hdoes.call hcall
  have hreplies := hperforms.replies
  rw [h] at hreplies
  exact ⟨interrupt, w', hline, hperforms.interrupts, (List.cons.inj hreplies).1.symm, hdoes⟩

end Execution

-- The name in the line buffer ends where its closing quote was.
theorem set_closing_quote (before name after : List UInt8) :
    (before ++ QUOTE :: name ++ QUOTE :: after).set (before.length + 1 + name.length) 0 =
      before ++ QUOTE :: name ++ 0 :: after := by
  have hlength : before.length + 1 + name.length = (before ++ QUOTE :: name).length := by
    rw [List.length_append, List.length_cons]
    omega
  rw [hlength, List.set_append_right _ _ (Nat.le_refl _), Nat.sub_self]
  rfl

theorem pointsTo_of_means {layout : Layout} {linebuf : List UInt8} {ptr : PtrForm} {pointer : Pointer}
    (h : ptr.Means linebuf pointer) {issued : Interrupt} (hdx : issued.regs.dx = (pointer.farPtr layout).seg)
    (hax : issued.regs.ax = (pointer.farPtr layout).off)
    (hlinebuf : issued.linebuf = pointer.linebuf linebuf) : PointsTo layout linebuf issued ptr := by
  cases ptr with
  | quoted name =>
      obtain ⟨before, after, hbefore, rfl, rfl⟩ := h
      refine ⟨before, after, hbefore, rfl, hdx, hax, ?_⟩
      rw [hlinebuf, Pointer.linebuf, set_closing_quote]
  | cbfunc =>
      obtain rfl := h
      exact ⟨hdx, hax⟩
  | strbuf =>
      obtain rfl := h
      exact ⟨hdx, hax⟩
  | null =>
      obtain rfl := h
      exact ⟨hdx, hax⟩

theorem slot_toNat (slot : Fin 5) : (UInt16.ofNat slot.val).toNat = slot.val := by
  have hslot := slot.isLt
  show slot.val % 65536 = slot.val
  omega

theorem isCall_of_means {form : CallForm} {linebuf : List UInt8} {command : Command}
    (h : form.Means linebuf command) : command.IsCall := by
  cases form with
  | callrmHand _ slot =>
      obtain rfl := h
      show (UInt16.ofNat slot.val).toNat < 5
      rw [slot_toNat]
      exact slot.isLt
  | callrmPtr =>
      obtain ⟨_, _, rfl⟩ := h
      trivial
  | _ =>
      obtain rfl := h
      trivial

-- The wrappers put the numbers into their registers.
theorem delivers_of_does {layout : Layout} {linebuf : List UInt8} {w : World} {form : CallForm}
    {command : Command} {issued : Interrupt} {vars' : Vars} (hmeans : form.Means linebuf command)
    (h : Does layout linebuf w.fmpDriverInt w.vars (some command) [issued] 1 vars') :
    Delivers layout linebuf w issued form ∧ vars'.lastCallRv.toNat = form.value issued.reply := by
  cases form with
  | callrm command handle subfunc param1 param2 =>
      obtain rfl := hmeans
      cases h
      refine ⟨⟨rfl, ?_⟩, toNat_dword _ _⟩
      rw [driverCall, UInt8.toUInt8_toUInt16, UInt8.toUInt8_toUInt16, word_eq]
  | callrmHand command slot subfunc param1 param2 =>
      obtain rfl := hmeans
      cases h with
      | callrmHand hslot =>
          have hfin : (⟨(UInt16.ofNat slot.val).toNat, hslot⟩ : Fin 5) = slot := Fin.ext (slot_toNat slot)
          refine ⟨⟨rfl, ?_⟩, toNat_dword _ _⟩
          rw [driverCall, UInt8.toUInt8_toUInt16, word_eq, hfin]
  | callrmPtr command handle subfunc ptr =>
      obtain ⟨pointer, hpointer, rfl⟩ := hmeans
      cases h
      refine ⟨⟨rfl, ?_, rfl, pointsTo_of_means hpointer rfl rfl rfl⟩, toNat_dword _ _⟩
      rw [driverCall, UInt8.toUInt8_toUInt16, UInt8.toUInt8_toUInt16, word_eq]
  | callrms function subfunction param1 param2 =>
      obtain rfl := hmeans
      cases h
      refine ⟨⟨rfl, ?_⟩, UInt16.toNat_toUInt32 _⟩
      rw [rmdevsysCall, UInt8.toUInt8_toUInt16]
      exact congrArg (Regs.mk · _ _ _) (word_eq 0x98 function)
  | callvbios function param1 param2 param3 param4 =>
      obtain rfl := hmeans
      cases h
      refine ⟨⟨rfl, ?_⟩, UInt16.toNat_toUInt32 _⟩
      rw [vbiosCall, UInt8.toUInt8_toUInt16, UInt8.toUInt8_toUInt16, word_eq]

-- Every way to write a call has the one effect it says, whatever there is in front of the keyword
-- in blanks: one interrupt, with the numbers in their registers, and the value it returns.
theorem call_delivered (layout : Layout) (form : CallForm) (line : List UInt8) (blanks : Nat)
    (w : World) (reply : Regs) (rest : List Regs) (hspells : Spells form line)
    (hreplies : w.replies = reply :: rest) :
    ∃ issued w',
      processScriptLine layout (List.replicate blanks BLANK ++ line) w = .ok (1, w') ∧
      w'.interrupts = w.interrupts ++ [issued] ∧ issued.reply = reply ∧
      Delivers layout (List.replicate blanks BLANK ++ line) w issued form ∧
      w'.vars.lastCallRv.toNat = form.value reply := by
  obtain ⟨command, hparse, hmeans⟩ := parse_spells hspells blanks
  obtain ⟨issued, w', hok, hissued, hreply, hdoes⟩ :=
    call_performed hparse (isCall_of_means hmeans) hreplies
  obtain ⟨hdelivers, hvalue⟩ := delivers_of_does hmeans hdoes
  rw [hreply] at hvalue
  exact ⟨issued, w', hok, hissued, hreply, hdelivers, hvalue⟩

-- A name that reads like another form.
theorem call_delivered_name :
    ∃ issued w',
      processScriptLine sampleLayout (ascii "  Callrm 01 0 00a \"CBFUNC 2\"\n") (.start [⟨1, 0, 0, 0⟩]) =
        .ok (1, w') ∧
      w'.interrupts = [] ++ [issued] ∧ issued.reply = ⟨1, 0, 0, 0⟩ ∧
      Delivers sampleLayout (ascii "  Callrm 01 0 00a \"CBFUNC 2\"\n") (.start [⟨1, 0, 0, 0⟩]) issued
        (.callrmPtr 1 0 0xA (.quoted (ascii "CBFUNC 2"))) ∧
      w'.vars.lastCallRv.toNat = 1 := by
  have hspells : Spells (.callrmPtr 1 0 0xA (.quoted (ascii "CBFUNC 2")))
      (ascii "Callrm 01 0 00a \"CBFUNC 2\"\n") := by
    have hc : IsHex (ascii "01") (1 : UInt8).toUInt16 := ⟨isNumeral_of_all (by decide) (by decide), by decide⟩
    have hh : IsHex (ascii "0") (0 : UInt8).toUInt16 := ⟨isNumeral_of_all (by decide) (by decide), by decide⟩
    have hs : IsHex (ascii "00a") 0xA := ⟨isNumeral_of_all (by decide) (by decide), by decide⟩
    have hptr : SpellsPtr (.quoted (ascii "CBFUNC 2")) (QUOTE :: ascii "CBFUNC 2" ++ QUOTE :: [NEWLINE]) :=
      .quoted (by decide) (by decide) (by decide) (by decide)
    have hword : SameLetters (ascii "Callrm") (ascii "CALLRM") := by
      unfold SameLetters
      decide
    have hsplit : ascii "Callrm 01 0 00a \"CBFUNC 2\"\n" =
        ascii "Callrm" ++ spellNumbers [ascii "01", ascii "0", ascii "00a"] ++
          BLANK :: (QUOTE :: ascii "CBFUNC 2" ++ QUOTE :: [NEWLINE]) := rfl
    rw [hsplit]
    exact .callrmPtr hword hc hh hs hptr
  have hblanks : ascii "  Callrm 01 0 00a \"CBFUNC 2\"\n" =
      List.replicate 2 BLANK ++ ascii "Callrm 01 0 00a \"CBFUNC 2\"\n" := rfl
  rw [hblanks]
  exact call_delivered sampleLayout _ _ 2 (.start [⟨1, 0, 0, 0⟩]) ⟨1, 0, 0, 0⟩ [] hspells rfl

end ReelMagic.Rmprobe
