import ReelMagic.Rmsdk

namespace ReelMagic.Rmsdk

open Library
open ReelMagic.Recorder (FarPtr Regs)

def Effect.called : Effect → Option (Regs × Regs)
  | .call regs reply => some (regs, reply)
  | _ => none

-- The status that a line reports at the end of a wait.
def Effect.reported : Effect → Option UInt16
  | .stdout _ (.doneWaiting _ status) => some status
  | .logfile _ (.doneWaiting _ status) => some status
  | _ => none

def Sdk.calls (s : Sdk) : List (Regs × Regs) := s.effects.filterMap Effect.called

def Sdk.reports (s : Sdk) : List UInt16 := s.effects.filterMap Effect.reported

-- Calls are made and the replies to them used up. Nothing else has changed but what was logged,
-- and no wait was reported to be over.
structure Keeps (s : Sdk) (calls : List (Regs × Regs)) (s' : Sdk) : Prop where
  replies : s.replies = calls.map Prod.snd ++ s'.replies
  calls : s'.calls = s.calls ++ calls
  reports : s'.reports = s.reports
  fmpdrvInt : s'.fmpdrvInt = s.fmpdrvInt
  driverCbFunc : s'.driverCbFunc = s.driverCbFunc
  muted : s'.muted = s.muted
  stdouton : s'.stdouton = s.stdouton
  logout : s'.logout = s.logout
  indentCount : s'.indentCount = s.indentCount

section

variable {s s₁ s₂ : Sdk} {reply : Regs} {rest : List Regs}

theorem Keeps.refl (s : Sdk) : Keeps s [] s :=
  ⟨rfl, (List.append_nil _).symm, rfl, rfl, rfl, rfl, rfl, rfl, rfl⟩

theorem Keeps.trans {first second : List (Regs × Regs)} (h₁ : Keeps s first s₁)
    (h₂ : Keeps s₁ second s₂) : Keeps s (first ++ second) s₂ where
  replies := by rw [h₁.replies, h₂.replies, List.map_append, List.append_assoc]
  calls := by rw [h₂.calls, h₁.calls, List.append_assoc]
  reports := h₂.reports.trans h₁.reports
  fmpdrvInt := h₂.fmpdrvInt.trans h₁.fmpdrvInt
  driverCbFunc := h₂.driverCbFunc.trans h₁.driverCbFunc
  muted := h₂.muted.trans h₁.muted
  stdouton := h₂.stdouton.trans h₁.stdouton
  logout := h₂.logout.trans h₁.logout
  indentCount := h₂.indentCount.trans h₁.indentCount

theorem calls_emit (effects : List Effect) (s : Sdk) :
    (s.emit effects).calls = s.calls ++ effects.filterMap Effect.called :=
  List.filterMap_append ..

theorem reports_emit (effects : List Effect) (s : Sdk) :
    (s.emit effects).reports = s.reports ++ effects.filterMap Effect.reported :=
  List.filterMap_append ..

-- The effects of a line that is logged.
def lineEffects (line : LogLine) (s : Sdk) : List Effect :=
  if s.muted then []
  else
    (if s.stdouton then [.stdout s.indentCount line] else []) ++
      if s.logout then [.logfile s.indentCount line] else []

theorem logfi_eq (line : LogLine) (s : Sdk) : logfi line s = s.emit (lineEffects line s) := by
  unfold logfi lineEffects
  split
  · show s = { s with effects := s.effects ++ [] }
    rw [List.append_nil]
  · rfl

theorem lineEffects_called (line : LogLine) (s : Sdk) :
    (lineEffects line s).filterMap Effect.called = [] := by
  unfold lineEffects
  cases s.muted <;> cases s.stdouton <;> cases s.logout <;> rfl

theorem lineEffects_reported (line : LogLine) (h : ∀ handle status, line ≠ .doneWaiting handle status)
    (s : Sdk) : (lineEffects line s).filterMap Effect.reported = [] := by
  have hline : ∀ indent, Effect.reported (.stdout indent line) = none ∧
      Effect.reported (.logfile indent line) = none := by
    intro indent
    cases line with
    | doneWaiting handle status => exact absurd rfl (h handle status)
    | _ => exact ⟨rfl, rfl⟩
  unfold lineEffects
  cases s.muted <;> cases s.stdouton <;> cases s.logout <;> simp [hline]

theorem keeps_logfi (line : LogLine) (h : ∀ handle status, line ≠ .doneWaiting handle status)
    (s : Sdk) : Keeps s [] (logfi line s) := by
  rw [logfi_eq]
  refine ⟨rfl, ?_, ?_, rfl, rfl, rfl, rfl, rfl, rfl⟩
  · rw [calls_emit, lineEffects_called]
  · rw [reports_emit, lineEffects_reported line h, List.append_nil]

theorem keeps_sleep (seconds : UInt16) (s : Sdk) : Keeps s [] (s.emit [.sleep seconds]) := by
  refine ⟨rfl, calls_emit _ _, ?_, rfl, rfl, rfl, rfl, rfl, rfl⟩
  rw [reports_emit]
  exact List.append_nil _

theorem int80_of_replies (h : s.replies = reply :: rest) (regs : Regs) :
    int80 regs s = .ok (reply, { s with replies := rest }.emit [.call regs reply]) := by
  rw [int80, h]

-- The indentation is as deep after the call as it was before.
theorem keeps_int80 (h : s.replies = reply :: rest) (regs : Regs) :
    ∃ s', int80 regs (logfAddindent s) = .ok (reply, s') ∧
      Keeps s [(regs, reply)] (logfDelindent s') := by
  have hindented : (logfAddindent s).replies = reply :: rest := h
  refine ⟨_, int80_of_replies hindented regs, ?_⟩
  refine ⟨h, calls_emit _ _, ?_, rfl, rfl, rfl, rfl, rfl, Nat.add_sub_cancel _ _⟩
  exact (reports_emit _ _).trans (List.append_nil _)

-- A call of the driver that is answered.
theorem rmCallFmpdrv_of_replies (hint : s.fmpdrvInt = 0x80) (h : s.replies = reply :: rest)
    (command handle : UInt8) (subfunc param1 param2 : UInt16) :
    ∃ s', rmCallFmpdrv command handle subfunc param1 param2 s =
        .ok (reply.dx.toUInt32 <<< 16 ||| reply.ax.toUInt32, s') ∧
      Keeps s [(⟨param1, command.toUInt16 <<< 8 ||| handle.toUInt16, subfunc, param2⟩, reply)] s' := by
  have hentered := keeps_logfi (.enterCallFmpdrv command handle subfunc param1 param2) nofun s
  have hreplies : (logfi (.enterCallFmpdrv command handle subfunc param1 param2) s).replies =
      reply :: rest := by
    rw [logfi_replies, h]
  obtain ⟨s', hcall, hcalled⟩ := keeps_int80 hreplies
    ⟨param1, command.toUInt16 <<< 8 ||| handle.toUInt16, subfunc, param2⟩
  have hexited := keeps_logfi
    (.exitCallFmpdrv command handle subfunc param1 param2 reply.dx reply.ax) nofun (logfDelindent s')
  rw [rmCallFmpdrv, if_neg (not_not.mpr hint)]
  dsimp only
  rw [hcall]
  exact ⟨_, rfl, (hentered.trans hcalled).trans hexited⟩

-- A call that returns was answered.
theorem rmCallFmpdrv_ok {command handle : UInt8} {subfunc param1 param2 : UInt16} {rv : UInt32}
    (h : rmCallFmpdrv command handle subfunc param1 param2 s = .ok (rv, s₁)) :
    ∃ reply,
      Keeps s [(⟨param1, command.toUInt16 <<< 8 ||| handle.toUInt16, subfunc, param2⟩, reply)] s₁ := by
  have hint : s.fmpdrvInt = 0x80 := by
    by_contra hne
    rw [rmCallFmpdrv, if_pos hne] at h
    cases h
  have hlt := rmCallFmpdrv_replies_lt h
  cases hreplies : s.replies with
  | nil =>
      rw [hreplies] at hlt
      exact absurd hlt (Nat.not_lt_zero _)
  | cons reply rest =>
      obtain ⟨s', hok, hkeeps⟩ := rmCallFmpdrv_of_replies hint hreplies command handle subfunc param1 param2
      obtain ⟨rfl, rfl⟩ := Prod.mk.inj (Except.ok.inj (hok.symm.trans h))
      exact ⟨reply, hkeeps⟩

end

end ReelMagic.Rmsdk
