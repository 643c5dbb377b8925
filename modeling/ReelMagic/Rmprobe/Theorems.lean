import ReelMagic.Library.Registers
import ReelMagic.Rmprobe.Command

namespace ReelMagic.Rmprobe

open Library Library.CString
open ReelMagic.Recorder (FarPtr Regs)

def Effect.issued : Effect → Option Interrupt
  | .interrupt issued => some issued
  | _ => none

def World.interrupts (w : World) : List Interrupt := w.effects.filterMap Effect.issued

-- The given interrupts were issued in between.
structure Exchanges (w : World) (issued : List Interrupt) (w' : World) : Prop where
  replies : w.replies = issued.map Interrupt.reply ++ w'.replies
  interrupts : w'.interrupts = w.interrupts ++ issued
  logout : w'.logout = w.logout
  fmpDriverInt : w'.fmpDriverInt = w.fmpDriverInt

-- Nothing else has changed but what was logged.
structure Issues (w : World) (issued : List Interrupt) (w' : World) : Prop
    extends Exchanges w issued w' where
  vars : w'.vars = w.vars
  stdouton : w'.stdouton = w.stdouton

def vbiosCall (function param1 : UInt8) (param2 param3 param4 : UInt16) (linebuf : List UInt8)
    (reply : Regs) : Interrupt :=
  ⟨0x10, ⟨function.toUInt16 <<< 8 ||| param1.toUInt16, param2, param3, param4⟩, linebuf, reply⟩

def rmdevsysCall (function : UInt8) (subfunction param1 param2 : UInt16) (linebuf : List UInt8)
    (reply : Regs) : Interrupt :=
  ⟨0x2F, ⟨0x9800 ||| function.toUInt16, subfunction, param1, param2⟩, linebuf, reply⟩

def driverCall (int command mediaHandle : UInt8) (subfunc param1 param2 : UInt16)
    (linebuf : List UInt8) (reply : Regs) : Interrupt :=
  ⟨int, ⟨param1, command.toUInt16 <<< 8 ||| mediaHandle.toUInt16, subfunc, param2⟩, linebuf, reply⟩

-- The status poll of `waitplay`.
def poll (int mediaHandle : UInt8) (linebuf : List UInt8) (reply : Regs) : Interrupt :=
  driverCall int 0xa mediaHandle 0x204 0 0 linebuf reply

-- The stream is no longer playing.
def IsDone (reply : Regs) : Prop := returned reply &&& 3 ≠ 0

instance (reply : Regs) : Decidable (IsDone reply) := inferInstanceAs (Decidable (_ ≠ _))

-- Replies that say it plays, and one that says it does not.
def PollReplies (replies : List Regs) : Prop :=
  ∃ playing done, replies = playing ++ [done] ∧ (∀ reply ∈ playing, ¬IsDone reply) ∧ IsDone done

section

variable {w w₁ w₂ : World} {linebuf : List UInt8}

theorem interrupts_logf (line : LogLine) (w : World) : (logf line w).interrupts = w.interrupts := by
  have hlogged : (((if w.stdouton then [Effect.stdout line] else []) ++
      if w.logout then [Effect.logfile line] else []) : List Effect).filterMap Effect.issued = [] := by
    cases w.stdouton <;> cases w.logout <;> rfl
  show (w.effects ++ _).filterMap Effect.issued = _
  rw [List.filterMap_append, hlogged, List.append_nil]
  rfl

theorem Exchanges.trans {first second : List Interrupt} (h₁ : Exchanges w first w₁)
    (h₂ : Exchanges w₁ second w₂) : Exchanges w (first ++ second) w₂ where
  replies := by rw [h₁.replies, h₂.replies, List.map_append, List.append_assoc]
  interrupts := by rw [h₂.interrupts, h₁.interrupts, List.append_assoc]
  logout := h₂.logout.trans h₁.logout
  fmpDriverInt := h₂.fmpDriverInt.trans h₁.fmpDriverInt

theorem exchanges_logf (line : LogLine) (w : World) : Exchanges w [] (logf line w) :=
  ⟨rfl, by rw [interrupts_logf, List.append_nil], rfl, rfl⟩

theorem Exchanges.logf {issued : List Interrupt} (h : Exchanges w issued w₁)
    (line : LogLine) : Exchanges w issued (logf line w₁) := by
  have htrans := h.trans (exchanges_logf line w₁)
  rw [List.append_nil] at htrans
  exact htrans

theorem Issues.refl (w : World) : Issues w [] w :=
  ⟨⟨rfl, (List.append_nil _).symm, rfl, rfl⟩, rfl, rfl⟩

theorem Issues.trans {first second : List Interrupt} (h₁ : Issues w first w₁)
    (h₂ : Issues w₁ second w₂) : Issues w (first ++ second) w₂ :=
  ⟨h₁.toExchanges.trans h₂.toExchanges, h₂.vars.trans h₁.vars, h₂.stdouton.trans h₁.stdouton⟩

theorem issues_logf (line : LogLine) (w : World) : Issues w [] (logf line w) :=
  ⟨exchanges_logf line w, rfl, rfl⟩

theorem Issues.logf {issued : List Interrupt} (h : Issues w issued w₁) (line : LogLine) :
    Issues w issued (logf line w₁) :=
  ⟨h.toExchanges.logf line, h.vars, h.stdouton⟩

-- Variables may be set afterwards.
theorem Exchanges.setVars {issued : List Interrupt} (h : Exchanges w issued w₁)
    (vars : Vars) : Exchanges w issued { w₁ with vars := vars } :=
  ⟨h.replies, h.interrupts, h.logout, h.fmpDriverInt⟩

theorem Exchanges.setStdouton {issued : List Interrupt} (h : Exchanges w issued w₁)
    (stdouton : Bool) : Exchanges w issued { w₁ with stdouton := stdouton } :=
  ⟨h.replies, h.interrupts, h.logout, h.fmpDriverInt⟩

theorem Issues.sleep {issued : List Interrupt} (h : Issues w issued w₁) (seconds : UInt16) :
    Issues w issued (w₁.emit [.sleep seconds]) := by
  refine ⟨⟨h.replies, ?_, h.logout, h.fmpDriverInt⟩, h.vars, h.stdouton⟩
  rw [← h.interrupts]
  show (w₁.effects ++ _).filterMap Effect.issued = _
  rw [List.filterMap_append]
  exact List.append_nil _

theorem issues_int86 {num : UInt8} {regs r : Regs} (h : int86 num regs linebuf w = .ok (r, w₁)) :
    Issues w [⟨num, regs, linebuf, r⟩] w₁ := by
  obtain ⟨replies, hreplies, rfl⟩ := int86_ok h
  refine ⟨⟨hreplies, ?_, rfl, rfl⟩, rfl, rfl⟩
  show (w.effects ++ _).filterMap Effect.issued = _
  rw [List.filterMap_append]
  rfl

-- A line is logged, the interrupt is issued, and another line is logged.
theorem issues_logged {before after : LogLine} {num : UInt8} {regs r : Regs}
    (h : int86 num regs linebuf (logf before w) = .ok (r, w₁)) :
    Issues w [⟨num, regs, linebuf, r⟩] (logf after w₁) :=
  ((issues_logf before w).trans (issues_int86 h)).logf after

theorem callVbios_ok {function param1 : UInt8} {param2 param3 param4 rv : UInt16}
    (h : callVbios function param1 param2 param3 param4 linebuf w = .ok (rv, w₁)) :
    ∃ reply, rv = reply.ax ∧
      Issues w [vbiosCall function param1 param2 param3 param4 linebuf reply] w₁ := by
  obtain ⟨⟨r, issued⟩, hissue, hret⟩ := bind_eq_ok h
  obtain ⟨rfl, rfl⟩ := Prod.mk.inj (Except.ok.inj hret)
  exact ⟨r, rfl, issues_logged hissue⟩

theorem callRmdevsys_ok {function : UInt8} {subfunction param1 param2 rv : UInt16}
    (h : callRmdevsys function subfunction param1 param2 linebuf w = .ok (rv, w₁)) :
    ∃ reply, rv = reply.ax ∧
      Issues w [rmdevsysCall function subfunction param1 param2 linebuf reply] w₁ := by
  obtain ⟨⟨r, issued⟩, hissue, hret⟩ := bind_eq_ok h
  obtain ⟨rfl, rfl⟩ := Prod.mk.inj (Except.ok.inj hret)
  exact ⟨r, rfl, issues_logged hissue⟩

theorem callFmpdriver_ok {command mediaHandle : UInt8} {subfunc param1 param2 : UInt16} {rv : UInt32}
    (h : callFmpdriver command mediaHandle subfunc param1 param2 linebuf w = .ok (rv, w₁)) :
    ∃ reply, rv = returned reply ∧
      Issues w [driverCall w.fmpDriverInt command mediaHandle subfunc param1 param2 linebuf reply] w₁ := by
  obtain ⟨⟨r, issued⟩, hissue, hret⟩ := bind_eq_ok h
  obtain ⟨rfl, rfl⟩ := Prod.mk.inj (Except.ok.inj hret)
  exact ⟨r, rfl, issues_logged hissue⟩

-- The loop ends with the first reply that says the stream is done.
theorem pollUntilDone_ok {mediaHandle : UInt8} {sleepInterval : UInt16} {result : UInt32}
    (h : pollUntilDone mediaHandle sleepInterval linebuf w = .ok (result, w₁)) :
    ∃ playing done, result = returned done ∧ (∀ reply ∈ playing, ¬IsDone reply) ∧ IsDone done ∧
      Issues w ((playing ++ [done]).map (poll w.fmpDriverInt mediaHandle linebuf)) w₁ := by
  induction hn : w.replies.length using Nat.strongRecOn generalizing w with
  | _ n ih =>
      rw [pollUntilDone] at h
      split at h
      · cases h
      · rename_i polled w' hcall
        obtain ⟨reply, rfl, hissues⟩ := callFmpdriver_ok hcall
        split at h
        · rename_i hplaying
          have hlt := callFmpdriver_replies_lt hcall
          have hslept : Issues w' []
              (if sleepInterval ≠ 0 then w'.emit [.sleep sleepInterval] else w') := by
            split
            · exact (Issues.refl w').sleep sleepInterval
            · exact Issues.refl w'
          have hreplies := congrArg List.length hslept.replies
          rw [List.map_nil, List.nil_append] at hreplies
          obtain ⟨playing, done, hresult, hall, hdone, hrest⟩ :=
            ih _ (by omega) h rfl
          refine ⟨reply :: playing, done, hresult, ?_, hdone, ?_⟩
          · intro other hother
            rcases List.mem_cons.mp hother with rfl | hother
            · exact not_not.mpr hplaying
            · exact hall other hother
          · rw [hslept.fmpDriverInt, hissues.fmpDriverInt] at hrest
            exact hissues.trans (hslept.trans hrest)
        · rename_i hdone
          obtain ⟨rfl, rfl⟩ := Prod.mk.inj (Except.ok.inj h)
          exact ⟨[], reply, rfl, fun _ hmem => absurd hmem List.not_mem_nil, hdone, hissues⟩

-- Logging is switched back to what it was.
theorem waitplay_ok {mediaHandle : UInt8} {sleepInterval : UInt16}
    (h : waitplay mediaHandle sleepInterval linebuf w = .ok w₁) :
    ∃ replies, PollReplies replies ∧
      Issues w (replies.map (poll w.fmpDriverInt mediaHandle linebuf)) w₁ := by
  obtain ⟨⟨result, polled⟩, hpoll, hret⟩ := bind_eq_ok h
  obtain rfl := Except.ok.inj hret
  obtain ⟨playing, done, _, hall, hdone, hissues⟩ := pollUntilDone_ok hpoll
  refine ⟨playing ++ [done], ⟨playing, done, rfl, hall, hdone⟩, ?_⟩
  refine Issues.logf ?_ _
  by_cases hsleep : sleepInterval ≠ 0
  · rw [if_pos hsleep] at hissues
    have hlogged := (issues_logf (.waiting (decide (sleepInterval ≠ 0)) mediaHandle) w).logf
      (.sleepInterval sleepInterval)
    have hall := hlogged.trans hissues
    exact ⟨⟨hall.replies, hall.interrupts, rfl, hall.fmpDriverInt⟩, hall.vars, rfl⟩
  · rw [if_neg hsleep] at hissues
    refine ⟨⟨hissues.replies, ?_, rfl, hissues.fmpDriverInt⟩, hissues.vars, rfl⟩
    rw [← interrupts_logf (.waiting (decide (sleepInterval ≠ 0)) mediaHandle) w]
    exact hissues.interrupts

end

section

variable {linebuf : List UInt8} {w : World} {stop : Stop}

-- A call can only fail to return.
theorem int86_error {num : UInt8} {regs : Regs}
    (h : int86 num regs linebuf w = .error stop) : stop = .noReply := by
  unfold int86 at h
  split at h
  · exact (Except.error.inj h).symm
  · cases h

theorem callVbios_error {function param1 : UInt8} {param2 param3 param4 : UInt16}
    (h : callVbios function param1 param2 param3 param4 linebuf w = .error stop) :
    stop = .noReply :=
  int86_error (eq_error_of_bind h fun _ => ⟨_, rfl⟩)

theorem callRmdevsys_error {function : UInt8} {subfunction param1 param2 : UInt16}
    (h : callRmdevsys function subfunction param1 param2 linebuf w = .error stop) :
    stop = .noReply :=
  int86_error (eq_error_of_bind h fun _ => ⟨_, rfl⟩)

theorem callFmpdriver_error {command mediaHandle : UInt8} {subfunc param1 param2 : UInt16}
    (h : callFmpdriver command mediaHandle subfunc param1 param2 linebuf w = .error stop) :
    stop = .noReply :=
  int86_error (eq_error_of_bind h fun _ => ⟨_, rfl⟩)

theorem pollUntilDone_error {mediaHandle : UInt8} {sleepInterval : UInt16}
    (h : pollUntilDone mediaHandle sleepInterval linebuf w = .error stop) : stop = .noReply := by
  induction hn : w.replies.length using Nat.strongRecOn generalizing w with
  | _ n ih =>
      rw [pollUntilDone] at h
      split at h
      · rename_i other hcall
        obtain rfl := Except.error.inj h
        exact callFmpdriver_error hcall
      · rename_i polled w' hcall
        have hlt := callFmpdriver_replies_lt hcall
        split at h
        · refine ih _ ?_ h rfl
          split
          · rw [emit_replies]
            omega
          · omega
        · cases h

theorem waitplay_error {mediaHandle : UInt8} {sleepInterval : UInt16}
    (h : waitplay mediaHandle sleepInterval linebuf w = .error stop) : stop = .noReply := by
  rcases bind_eq_error h with hpoll | ⟨_, _, hret⟩
  · exact pollUntilDone_error hpoll
  · cases hret

end

section

variable {w : World} {reply : Regs} {rest : List Regs}

-- A call that is answered returns.
theorem int86_of_replies (h : w.replies = reply :: rest) (num : UInt8) (regs : Regs)
    (linebuf : List UInt8) :
    int86 num regs linebuf w =
      .ok (reply, { w with replies := rest }.emit [.interrupt ⟨num, regs, linebuf, reply⟩]) := by
  rw [int86, h]

theorem callFmpdriver_of_replies (h : w.replies = reply :: rest) (command mediaHandle : UInt8)
    (subfunc param1 param2 : UInt16) (linebuf : List UInt8) :
    ∃ w', callFmpdriver command mediaHandle subfunc param1 param2 linebuf w =
        .ok (returned reply, w') ∧
      Issues w [driverCall w.fmpDriverInt command mediaHandle subfunc param1 param2 linebuf reply] w' := by
  have hlogged : (logf (.enterDriverCall command mediaHandle subfunc param1 param2) w).replies =
      reply :: rest := h
  rw [callFmpdriver, int86_of_replies hlogged]
  exact ⟨_, rfl, issues_logged (int86_of_replies hlogged _ _ _)⟩

theorem callRmdevsys_of_replies (h : w.replies = reply :: rest) (function : UInt8)
    (subfunction param1 param2 : UInt16) (linebuf : List UInt8) :
    ∃ w', callRmdevsys function subfunction param1 param2 linebuf w = .ok (reply.ax, w') := by
  have hlogged : (logf (.enterCallRmdevsys function subfunction param1 param2) w).replies =
      reply :: rest := h
  rw [callRmdevsys, int86_of_replies hlogged]
  exact ⟨_, rfl⟩

theorem callVbios_of_replies (h : w.replies = reply :: rest) (function param1 : UInt8)
    (param2 param3 param4 : UInt16) (linebuf : List UInt8) :
    ∃ w', callVbios function param1 param2 param3 param4 linebuf w = .ok (reply.ax, w') := by
  have hlogged : (logf (.enterCallVbios function param1 param2 param3 param4) w).replies =
      reply :: rest := h
  rw [callVbios, int86_of_replies hlogged]
  exact ⟨_, rfl⟩

end

end ReelMagic.Rmprobe
