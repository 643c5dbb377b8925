import ReelMagic.Rmprobe.Theorems

namespace ReelMagic.Rmprobe

open Library Library.Registers
open ReelMagic.Recorder (Regs)

-- The status that a line reports at the end of a wait: the low word of what was returned.
def Effect.reported : Effect → Option UInt16
  | .stdout (.doneWaiting _ _ low) => some low
  | .logfile (.doneWaiting _ _ low) => some low
  | _ => none

def World.reports (w : World) : List UInt16 := w.effects.filterMap Effect.reported

-- One report on each of the outputs that are on.
def onEachOutput (stdouton logout : Bool) (status : UInt16) : List UInt16 :=
  (if stdouton then [status] else []) ++ if logout then [status] else []

section

variable {w w' : World} {linebuf : List UInt8} {rest : List Regs}

theorem reports_emit (effects : List Effect) (w : World) :
    (w.emit effects).reports = w.reports ++ effects.filterMap Effect.reported :=
  List.filterMap_append ..

theorem reports_logf (line : LogLine) (h : ∀ handle high low, line ≠ .doneWaiting handle high low)
    (w : World) : (logf line w).reports = w.reports := by
  have hline : Effect.reported (.stdout line) = none ∧ Effect.reported (.logfile line) = none := by
    cases line with
    | doneWaiting handle high low => exact absurd rfl (h handle high low)
    | _ => exact ⟨rfl, rfl⟩
  rw [logf, reports_emit]
  cases w.stdouton <;> cases w.logout <;> simp [hline]

theorem reports_doneWaiting (handle : UInt8) (high low : UInt16) (w : World) :
    (logf (.doneWaiting handle high low) w).reports =
      w.reports ++ onEachOutput w.stdouton w.logout low := by
  rw [logf, reports_emit, onEachOutput]
  cases w.stdouton <;> cases w.logout <;> rfl

theorem callFmpdriver_reports {command mediaHandle : UInt8} {subfunc param1 param2 : UInt16}
    {rv : UInt32} (h : callFmpdriver command mediaHandle subfunc param1 param2 linebuf w = .ok (rv, w')) :
    w'.reports = w.reports := by
  obtain ⟨⟨r, issued⟩, hissue, hret⟩ := bind_eq_ok h
  obtain ⟨rfl, rfl⟩ := Prod.mk.inj (Except.ok.inj hret)
  obtain ⟨replies, _, rfl⟩ := int86_ok hissue
  rw [reports_logf (.exitDriverCall command mediaHandle subfunc param1 param2 r.dx r.ax) nofun,
    reports_emit]
  refine (List.append_nil _).trans ?_
  exact reports_logf (.enterDriverCall command mediaHandle subfunc param1 param2) nofun w

theorem pollUntilDone_eq {mediaHandle : UInt8} {result : UInt32}
    (h : callFmpdriver 0xa mediaHandle 0x204 0 0 linebuf w = .ok (result, w')) (sleepInterval : UInt16) :
    pollUntilDone mediaHandle sleepInterval linebuf w =
      if result &&& 3 = 0 then
        pollUntilDone mediaHandle sleepInterval linebuf
          (if sleepInterval ≠ 0 then w'.emit [.sleep sleepInterval] else w')
      else .ok (result, w') := by
  rw [pollUntilDone]
  split
  · rename_i stop herror
    rw [h] at herror
    cases herror
  · rename_i value polled hok
    rw [h] at hok
    obtain ⟨rfl, rfl⟩ := Prod.mk.inj (Except.ok.inj hok)
    rfl

-- The two bits are in the low word.
theorem isDone_iff (reply : Regs) : IsDone reply ↔ reply.ax &&& 3 ≠ 0 := by
  have hmod : ∀ n : Nat, n &&& 3 = n % 4 := fun n => Nat.and_two_pow_sub_one_eq_mod n 2
  have hlow : (returned reply).toNat % 65536 = reply.ax.toNat := by
    rw [← UInt32.toNat_toUInt16, returned, dword_toUInt16]
  rw [IsDone, Ne, Ne, ← UInt32.toNat_inj, ← UInt16.toNat_inj, UInt32.toNat_and, UInt16.toNat_and]
  show ¬(returned reply).toNat &&& 3 = 0 ↔ ¬reply.ax.toNat &&& 3 = 0
  rw [hmod, hmod]
  omega

-- With the replies it needs the loop ends, and has the reply that ends it for its result.
theorem pollUntilDone_of_replies {playing : List Regs} {done : Regs}
    (h : w.replies = playing ++ done :: rest) (hplaying : ∀ reply ∈ playing, ¬IsDone reply)
    (hdone : IsDone done) (mediaHandle : UInt8) (sleepInterval : UInt16) (linebuf : List UInt8) :
    ∃ w', pollUntilDone mediaHandle sleepInterval linebuf w = .ok (returned done, w') ∧
      Issues w ((playing ++ [done]).map (poll w.fmpDriverInt mediaHandle linebuf)) w' ∧
      w'.reports = w.reports := by
  induction playing generalizing w with
  | nil =>
      obtain ⟨w', hcall, hissues⟩ := callFmpdriver_of_replies h 0xa mediaHandle 0x204 0 0 linebuf
      refine ⟨w', ?_, hissues, callFmpdriver_reports hcall⟩
      rw [pollUntilDone_eq hcall, if_neg hdone]
  | cons reply playing ih =>
      obtain ⟨hfirst, hplaying⟩ := List.forall_mem_cons.mp hplaying
      obtain ⟨w₁, hcall, hissues⟩ := callFmpdriver_of_replies h 0xa mediaHandle 0x204 0 0 linebuf
      obtain ⟨hslept, hquiet⟩ : Issues w₁ []
          (if sleepInterval ≠ 0 then w₁.emit [.sleep sleepInterval] else w₁) ∧
          (if sleepInterval ≠ 0 then w₁.emit [.sleep sleepInterval] else w₁).reports = w₁.reports := by
        split
        · exact ⟨(Issues.refl w₁).sleep sleepInterval, (reports_emit _ _).trans (List.append_nil _)⟩
        · exact ⟨Issues.refl w₁, rfl⟩
      have hround := hissues.trans hslept
      have hreplies := hround.replies
      rw [h] at hreplies
      obtain ⟨w', hrest, hissued, hreports⟩ := ih (List.cons.inj hreplies).2.symm hplaying
      rw [hround.fmpDriverInt] at hissued
      refine ⟨w', ?_, hround.trans hissued, ?_⟩
      · rw [pollUntilDone_eq hcall, if_pos (not_not.mp hfirst), hrest]
      · rw [hreports, hquiet, callFmpdriver_reports hcall]

-- The whole of `waitplay`: the low word of the last reply is reported.
theorem waitplay_of_replies {playing : List Regs} {done : Regs}
    (h : w.replies = playing ++ done :: rest) (hplaying : ∀ reply ∈ playing, ¬IsDone reply)
    (hdone : IsDone done) (mediaHandle : UInt8) (sleepInterval : UInt16) (linebuf : List UInt8) :
    ∃ w', waitplay mediaHandle sleepInterval linebuf w = .ok w' ∧
      w'.interrupts = w.interrupts ++ (playing ++ [done]).map (poll w.fmpDriverInt mediaHandle linebuf) ∧
      w'.reports = w.reports ++ onEachOutput w.stdouton w.logout done.ax ∧
      w'.stdouton = w.stdouton ∧ w'.logout = w.logout := by
  have hwaiting := issues_logf (.waiting (decide (sleepInterval ≠ 0)) mediaHandle) w
  have hquiet := reports_logf (.waiting (decide (sleepInterval ≠ 0)) mediaHandle) nofun w
  -- what is logged or switched off before the loop leaves all but the two switches as it was
  obtain ⟨w₂, hw₂, hreplies, hinterrupts, hreports, hint⟩ : ∃ w₂,
      (if sleepInterval ≠ 0 then
        logf (.sleepInterval sleepInterval) (logf (.waiting (decide (sleepInterval ≠ 0)) mediaHandle) w)
      else { logf (.waiting (decide (sleepInterval ≠ 0)) mediaHandle) w with
        logout := false, stdouton := false }) = w₂ ∧
      w.replies = w₂.replies ∧ w₂.interrupts = w.interrupts ∧ w₂.reports = w.reports ∧
      w₂.fmpDriverInt = w.fmpDriverInt := by
    refine ⟨_, rfl, ?_⟩
    split
    · have hready := hwaiting.logf (.sleepInterval sleepInterval)
      exact ⟨hready.replies, hready.interrupts.trans (List.append_nil _),
        (reports_logf (.sleepInterval sleepInterval) nofun _).trans hquiet, hready.fmpDriverInt⟩
    · exact ⟨hwaiting.replies, hwaiting.interrupts.trans (List.append_nil _), hquiet,
        hwaiting.fmpDriverInt⟩
  obtain ⟨w₃, hpoll, hissues, hpolled⟩ := pollUntilDone_of_replies (hreplies.symm.trans h)
    hplaying hdone mediaHandle sleepInterval linebuf
  refine ⟨logf (.doneWaiting mediaHandle (returned done >>> 16).toUInt16 (returned done).toUInt16)
    { w₃ with logout := w.logout, stdouton := w.stdouton }, ?_, ?_, ?_, rfl, rfl⟩
  · rw [waitplay]
    dsimp only
    rw [hw₂, hpoll]
    rfl
  · rw [interrupts_logf, ← hinterrupts, ← hint]
    exact hissues.interrupts
  · rw [reports_doneWaiting, returned, dword_toUInt16, ← hreports, ← hpolled]
    rfl

end

end ReelMagic.Rmprobe
