import ReelMagic.Rmprobe.Theorems

namespace ReelMagic.Rmprobe

open Library Library.CString
open ReelMagic.Recorder (FarPtr Regs)

-- The low byte of what the last call returned.
def Vars.lastHandle (vars : Vars) : UInt8 := vars.lastCallRv.toUInt8

-- All that a line can do: the interrupts it issues, what `process_script_line` returns, and
-- the variables afterwards.
inductive Does (layout : Layout) (linebuf : List UInt8) (int : UInt8) (vars : Vars) :
    Option Command → List Interrupt → Int → Vars → Prop
  | badCommand : Does layout linebuf int vars none [] (-1) vars
  | comment : Does layout linebuf int vars (some .comment) [] 1 vars
  | callrm {command mediaHandle subfunc param1 param2 : UInt16} {reply : Regs} :
      Does layout linebuf int vars (some (.callrm command mediaHandle subfunc param1 param2))
        [driverCall int command.toUInt8 mediaHandle.toUInt8 subfunc param1 param2 linebuf reply] 1
        { vars with lastCallRv := returned reply }
  | callrmHand {command slot subfunc param1 param2 : UInt16} {reply : Regs} (h : slot.toNat < 5) :
      Does layout linebuf int vars (some (.callrmHand command slot subfunc param1 param2))
        [driverCall int command.toUInt8 (vars.hand ⟨slot.toNat, h⟩) subfunc param1 param2 linebuf
          reply] 1
        { vars with lastCallRv := returned reply }
  | callrmPtr {command mediaHandle subfunc : UInt16} {ptr : Pointer} {reply : Regs} :
      Does layout linebuf int vars (some (.callrmPtr command mediaHandle subfunc ptr))
        [driverCall int command.toUInt8 mediaHandle.toUInt8 subfunc (ptr.farPtr layout).off
          (ptr.farPtr layout).seg (ptr.linebuf linebuf) reply] 1
        { vars with lastCallRv := returned reply }
  | callrms {function subfunc param1 param2 : UInt16} {reply : Regs} :
      Does layout linebuf int vars (some (.callrms function subfunc param1 param2))
        [rmdevsysCall function.toUInt8 subfunc param1 param2 linebuf reply] 1
        { vars with lastCallRv := reply.ax.toUInt32 }
  | callvbios {function param1 param2 param3 param4 : UInt16} {reply : Regs} :
      Does layout linebuf int vars (some (.callvbios function param1 param2 param3 param4))
        [vbiosCall function.toUInt8 param1.toUInt8 param2 param3 param4 linebuf reply] 1
        { vars with lastCallRv := reply.ax.toUInt32 }
  | storvgamode {reply : Regs} :
      Does layout linebuf int vars (some .storvgamode) [vbiosCall 0xf 0 0 0 0 linebuf reply] 1
        { vars with lastVgaMode := reply.ax.toUInt8 }
  | loadvgamode {reply : Regs} :
      Does layout linebuf int vars (some .loadvgamode)
        [vbiosCall 0 vars.lastVgaMode 0 0 0 linebuf reply] 1
        { vars with lastVgaMode := reply.ax.toUInt8 }
  | storhandBad {slot : UInt16} : ¬slot.toNat < 5 →
      Does layout linebuf int vars (some (.storhand slot)) [] (-1) vars
  | storhandFailed {slot : UInt16} : slot.toNat < 5 → vars.lastHandle = 0 →
      Does layout linebuf int vars (some (.storhand slot)) [] (-1) vars
  | storhand {slot : UInt16} (h : slot.toNat < 5) : vars.lastHandle ≠ 0 →
      Does layout linebuf int vars (some (.storhand slot)) [] 1
        { vars with hand := Function.update vars.hand ⟨slot.toNat, h⟩ vars.lastHandle }
  | sleep {seconds : UInt16} : Does layout linebuf int vars (some (.sleep seconds)) [] 1 vars
  | waitplay {mediaHandle sleepInterval : UInt16} {replies : List Regs} : PollReplies replies →
      Does layout linebuf int vars (some (.waitplay mediaHandle sleepInterval))
        (replies.map (poll int mediaHandle.toUInt8 linebuf)) 1 vars
  | waitplayHand {slot sleepInterval : UInt16} {replies : List Regs} (h : slot.toNat < 5) :
      PollReplies replies →
        Does layout linebuf int vars (some (.waitplayHand slot sleepInterval))
          (replies.map (poll int (vars.hand ⟨slot.toNat, h⟩) linebuf)) 1 vars
  | strbufaddr : Does layout linebuf int vars (some .strbufaddr) [] 1 vars
  | strbufprint : 0 ∈ List.ofFn vars.strbuf →
      Does layout linebuf int vars (some .strbufprint) [] 1 vars
  | strbufsetx {index value : UInt16} (h : index.toNat < 512) :
      Does layout linebuf int vars (some (.strbufsetx index value)) [] 1
        { vars with strbuf := Function.update vars.strbuf ⟨index.toNat, h⟩ value.toUInt8 }
  | strbufsets {text : List UInt8} : text.length < 512 →
      Does layout linebuf int vars (some (.strbufsets text)) [] 1
        { vars with strbuf := fun i => ((text ++ [0])[i.val]?).getD (vars.strbuf i) }
  | mutestdout {value : UInt16} :
      Does layout linebuf int vars (some (.mutestdout value)) [] 1 vars
  | exit : Does layout linebuf int vars (some .exit) [] 0 vars

-- A step of the interpreter that does as described, and uses up the replies it gets.
structure Performs (layout : Layout) (linebuf : List UInt8) (w : World) (rv : Int)
    (issued : List Interrupt) (w' : World) : Prop extends Exchanges w issued w' where
  does : Does layout linebuf w.fmpDriverInt w.vars (parse linebuf) issued rv w'.vars

theorem Does.rv_cases {layout : Layout} {linebuf : List UInt8} {int : UInt8} {vars vars' : Vars}
    {command : Option Command} {issued : List Interrupt} {rv : Int}
    (h : Does layout linebuf int vars command issued rv vars') : rv = 1 ∨ rv = 0 ∨ rv = -1 := by
  cases h <;> simp

theorem toUInt8_and (rv : UInt32) : (rv &&& 0xFF).toUInt8 = rv.toUInt8 := by
  have hmod : rv.toNat &&& 255 = rv.toNat % 256 := Nat.and_two_pow_sub_one_eq_mod rv.toNat 8
  rw [← UInt8.toNat_inj, UInt32.toNat_toUInt8, UInt32.toNat_toUInt8, UInt32.toNat_and]
  show (rv.toNat &&& 255) % 256 = rv.toNat % 256
  rw [hmod, Nat.mod_mod]

theorem and_eq_zero_iff (rv : UInt32) : rv &&& 0xFF = 0 ↔ rv.toUInt8 = 0 := by
  have hmod : rv.toNat &&& 255 = rv.toNat % 256 := Nat.and_two_pow_sub_one_eq_mod rv.toNat 8
  rw [← UInt32.toNat_inj, ← UInt8.toNat_inj, UInt32.toNat_and, UInt32.toNat_toUInt8]
  show rv.toNat &&& 255 = 0 ↔ rv.toNat % 256 = 0
  rw [hmod]

theorem handAt_ok {i : UInt16} {w : World} {handle : UInt8} (h : handAt i w = .ok handle) :
    ∃ hi : i.toNat < 5, handle = w.vars.hand ⟨i.toNat, hi⟩ := by
  unfold handAt at h
  split at h
  · rename_i hi
    exact ⟨hi, (Except.ok.inj h).symm⟩
  · cases h

section

variable {layout : Layout} {linebuf : List UInt8} {w w' : World} {rv : Int}

theorem performs_of_quiet (hdoes : Does layout linebuf w.fmpDriverInt w.vars (parse linebuf) [] rv w.vars)
    (h : Issues w [] w') : Performs layout linebuf w rv [] w' :=
  ⟨h.toExchanges, by rw [h.vars]; exact hdoes⟩

-- A call that stores what it returns.
theorem performs_setLastCallRv {value : UInt32} {issued : List Interrupt} {w₁ : World}
    (hissues : Issues w issued w₁)
    (hdoes : Does layout linebuf w.fmpDriverInt w.vars (parse linebuf) issued rv
      { w.vars with lastCallRv := value }) :
    Performs layout linebuf w rv issued (w₁.setLastCallRv value) := by
  refine ⟨hissues.setVars _, ?_⟩
  rw [World.setLastCallRv, hissues.vars]
  exact hdoes

theorem performs_setLastVgaMode {mode : UInt8} {issued : List Interrupt} {w₁ : World}
    (hissues : Issues w issued w₁)
    (hdoes : Does layout linebuf w.fmpDriverInt w.vars (parse linebuf) issued rv
      { w.vars with lastVgaMode := mode }) (line : LogLine) :
    Performs layout linebuf w rv issued (logf line (w₁.setLastVgaMode mode)) := by
  refine ⟨(hissues.setVars _).logf line, ?_⟩
  rw [logf_vars, World.setLastVgaMode, hissues.vars]
  exact hdoes

theorem performs_badCommand (hparse : parse linebuf = none) {line : List UInt8}
    (h : badCommand line w = .ok (rv, w')) : Performs layout linebuf w rv [] w' := by
  obtain ⟨rfl, rfl⟩ := Prod.mk.inj (Except.ok.inj h)
  exact performs_of_quiet (by rw [hparse]; exact .badCommand) (issues_logf _ w)

theorem performs_storHand {slot : UInt16} (hparse : parse linebuf = some (.storhand slot))
    {line : List UInt8} (h : storeHand line slot w = .ok (rv, w')) :
    Performs layout linebuf w rv [] w' := by
  unfold storeHand at h
  split at h
  · rename_i hslot
    split at h
    · rename_i hzero
      obtain ⟨rfl, rfl⟩ := Prod.mk.inj (Except.ok.inj h)
      refine performs_of_quiet ?_ (issues_logf _ w)
      rw [hparse]
      exact .storhandFailed hslot ((and_eq_zero_iff _).mp hzero)
    · rename_i hnonzero
      obtain ⟨rfl, rfl⟩ := Prod.mk.inj (Except.ok.inj h)
      refine ⟨((Issues.refl w).setVars _).logf _, ?_⟩
      rw [hparse, logf_vars, toUInt8_and]
      exact .storhand hslot (mt (and_eq_zero_iff _).mpr hnonzero)
  · rename_i hslot
    obtain ⟨rfl, rfl⟩ := Prod.mk.inj (Except.ok.inj h)
    refine performs_of_quiet ?_ (issues_logf _ w)
    rw [hparse]
    exact .storhandBad hslot

-- Every line that the interpreter gets through does one of these things.
theorem performs_of_processScriptLine (h : processScriptLine layout linebuf w = .ok (rv, w')) :
    ∃ issued, Performs layout linebuf w rv issued w' := by
  rw [processScriptLine_eq] at h
  cases hparse : parse linebuf with
  | none =>
      rw [hparse] at h
      exact ⟨[], performs_badCommand hparse h⟩
  | some command =>
      rw [hparse] at h
      cases command with
      | comment =>
          obtain ⟨rfl, rfl⟩ := Prod.mk.inj (Except.ok.inj h)
          exact ⟨[], performs_of_quiet (by rw [hparse]; exact .comment) (Issues.refl w)⟩
      | callrm command mediaHandle subfunc param1 param2 =>
          obtain ⟨⟨value, issued⟩, hcall, hret⟩ := bind_eq_ok h
          obtain ⟨reply, rfl, hissues⟩ := callFmpdriver_ok hcall
          obtain ⟨rfl, rfl⟩ := Prod.mk.inj (Except.ok.inj hret)
          exact ⟨_, performs_setLastCallRv hissues (by rw [hparse]; exact .callrm)⟩
      | callrmHand command slot subfunc param1 param2 =>
          obtain ⟨handle, hhand, h⟩ := bind_eq_ok h
          obtain ⟨hslot, rfl⟩ := handAt_ok hhand
          obtain ⟨⟨value, issued⟩, hcall, hret⟩ := bind_eq_ok h
          obtain ⟨reply, rfl, hissues⟩ := callFmpdriver_ok hcall
          obtain ⟨rfl, rfl⟩ := Prod.mk.inj (Except.ok.inj hret)
          exact ⟨_, performs_setLastCallRv hissues (by rw [hparse]; exact .callrmHand hslot)⟩
      | callrmPtr command mediaHandle subfunc ptr =>
          obtain ⟨⟨value, issued⟩, hcall, hret⟩ := bind_eq_ok h
          obtain ⟨reply, rfl, hissues⟩ := callFmpdriver_ok hcall
          obtain ⟨rfl, rfl⟩ := Prod.mk.inj (Except.ok.inj hret)
          exact ⟨_, performs_setLastCallRv hissues (by rw [hparse]; exact .callrmPtr)⟩
      | callrms function subfunc param1 param2 =>
          obtain ⟨⟨value, issued⟩, hcall, hret⟩ := bind_eq_ok h
          obtain ⟨reply, rfl, hissues⟩ := callRmdevsys_ok hcall
          obtain ⟨rfl, rfl⟩ := Prod.mk.inj (Except.ok.inj hret)
          exact ⟨_, performs_setLastCallRv hissues (by rw [hparse]; exact .callrms)⟩
      | callvbios function param1 param2 param3 param4 =>
          obtain ⟨⟨value, issued⟩, hcall, hret⟩ := bind_eq_ok h
          obtain ⟨reply, rfl, hissues⟩ := callVbios_ok hcall
          obtain ⟨rfl, rfl⟩ := Prod.mk.inj (Except.ok.inj hret)
          exact ⟨_, performs_setLastCallRv hissues (by rw [hparse]; exact .callvbios)⟩
      | storvgamode =>
          obtain ⟨⟨value, issued⟩, hcall, hret⟩ := bind_eq_ok h
          obtain ⟨reply, rfl, hissues⟩ := callVbios_ok hcall
          obtain ⟨rfl, rfl⟩ := Prod.mk.inj (Except.ok.inj hret)
          exact ⟨_, performs_setLastVgaMode hissues (by rw [hparse]; exact .storvgamode) _⟩
      | loadvgamode =>
          obtain ⟨⟨value, issued⟩, hcall, hret⟩ := bind_eq_ok h
          obtain ⟨reply, rfl, hissues⟩ := callVbios_ok hcall
          obtain ⟨rfl, rfl⟩ := Prod.mk.inj (Except.ok.inj hret)
          exact ⟨_, performs_setLastVgaMode hissues (by rw [hparse]; exact .loadvgamode) _⟩
      | storhand slot => exact ⟨[], performs_storHand hparse h⟩
      | sleep seconds =>
          obtain ⟨rfl, rfl⟩ := Prod.mk.inj (Except.ok.inj h)
          refine ⟨[], performs_of_quiet (by rw [hparse]; exact .sleep) ?_⟩
          exact ((issues_logf _ w).sleep seconds).logf _
      | waitplay mediaHandle sleepInterval =>
          obtain ⟨waited, hwait, hret⟩ := bind_eq_ok h
          obtain ⟨replies, hreplies, hissues⟩ := waitplay_ok hwait
          obtain ⟨rfl, rfl⟩ := Prod.mk.inj (Except.ok.inj hret)
          refine ⟨_, hissues.toExchanges, ?_⟩
          rw [hparse, hissues.vars]
          exact .waitplay hreplies
      | waitplayHand slot sleepInterval =>
          obtain ⟨handle, hhand, h⟩ := bind_eq_ok h
          obtain ⟨hslot, rfl⟩ := handAt_ok hhand
          obtain ⟨waited, hwait, hret⟩ := bind_eq_ok h
          obtain ⟨replies, hreplies, hissues⟩ := waitplay_ok hwait
          obtain ⟨rfl, rfl⟩ := Prod.mk.inj (Except.ok.inj hret)
          refine ⟨_, hissues.toExchanges, ?_⟩
          rw [hparse, hissues.vars]
          exact .waitplayHand hslot hreplies
      | strbufaddr =>
          obtain ⟨rfl, rfl⟩ := Prod.mk.inj (Except.ok.inj h)
          exact ⟨[], performs_of_quiet (by rw [hparse]; exact .strbufaddr) (issues_logf _ w)⟩
      | strbufprint =>
          simp only [execParsed, Command.exec, strbufprint] at h
          split at h
          · rename_i hzero
            obtain ⟨rfl, rfl⟩ := Prod.mk.inj (Except.ok.inj h)
            exact ⟨[], performs_of_quiet (by rw [hparse]; exact .strbufprint hzero) (issues_logf _ w)⟩
          · cases h
      | strbufsetx index value =>
          obtain ⟨stored, hstore, hret⟩ := bind_eq_ok h
          obtain ⟨rfl, rfl⟩ := Prod.mk.inj (Except.ok.inj hret)
          unfold storeStrbuf at hstore
          split at hstore
          · rename_i hindex
            obtain rfl := Except.ok.inj hstore
            refine ⟨[], (Issues.refl w).setVars _, ?_⟩
            rw [hparse]
            exact .strbufsetx hindex
          · cases hstore
      | strbufsets text =>
          obtain ⟨stored, hstore, hret⟩ := bind_eq_ok h
          obtain ⟨rfl, rfl⟩ := Prod.mk.inj (Except.ok.inj hret)
          unfold strcpyStrbuf at hstore
          split at hstore
          · rename_i hfits
            obtain rfl := Except.ok.inj hstore
            refine ⟨[], (Issues.refl w).setVars _, ?_⟩
            rw [hparse]
            exact .strbufsets hfits
          · cases hstore
      | mutestdout value =>
          obtain ⟨rfl, rfl⟩ := Prod.mk.inj (Except.ok.inj h)
          refine ⟨[], ((Issues.refl w).setStdouton _).logf _, ?_⟩
          rw [hparse]
          exact .mutestdout
      | exit =>
          obtain ⟨rfl, rfl⟩ := Prod.mk.inj (Except.ok.inj h)
          exact ⟨[], performs_of_quiet (by rw [hparse]; exact .exit) (Issues.refl w)⟩

end

end ReelMagic.Rmprobe
