import ReelMagic.Rmprobe.Runs

namespace ReelMagic.Rmprobe

open Library.CString Library.Lines

def Effect.IsLine : Effect → Prop
  | .stdout _ => True
  | .logfile _ => True
  | _ => False

-- Nothing has been done but to log: no interrupt, no sleep, and no change of any variable.
structure OnlyLogged (w w' : World) : Prop where
  effects : ∃ logged, w'.effects = w.effects ++ logged ∧ ∀ effect ∈ logged, effect.IsLine
  vars : w'.vars = w.vars
  stdouton : w'.stdouton = w.stdouton
  logout : w'.logout = w.logout
  fmpDriverInt : w'.fmpDriverInt = w.fmpDriverInt
  replies : w'.replies = w.replies

theorem onlyLogged_logf (line : LogLine) (w : World) : OnlyLogged w (logf line w) := by
  refine ⟨⟨_, rfl, ?_⟩, rfl, rfl, rfl, rfl, rfl⟩
  intro effect heffect
  rcases List.mem_append.mp heffect with hstdout | hlogfile
  · split at hstdout
    · rw [List.mem_singleton.mp hstdout]
      trivial
    · exact absurd hstdout List.not_mem_nil
  · split at hlogfile
    · rw [List.mem_singleton.mp hlogfile]
      trivial
    · exact absurd hlogfile List.not_mem_nil

section

variable {layout : Layout} {linebuf fh line : List UInt8} {w w₁ w₂ : World}

-- What is rejected is no command, or a STORHAND.
theorem Does.command_of_rejected {int : UInt8} {vars vars' : Vars} {command : Option Command}
    {issued : List Interrupt} {rv : Int} (h : Does layout linebuf int vars command issued rv vars')
    (hrv : rv = -1) : command = none ∨ ∃ slot, command = some (.storhand slot) := by
  cases h with
  | badCommand => exact Or.inl rfl
  | storhandBad _ => exact Or.inr ⟨_, rfl⟩
  | storhandFailed _ _ => exact Or.inr ⟨_, rfl⟩
  | storhand _ _ => exact Or.inr ⟨_, rfl⟩
  | _ => exact absurd hrv (by decide)

theorem onlyLogged_of_rejected (h : processScriptLine layout linebuf w = .ok (-1, w₁)) :
    OnlyLogged w w₁ := by
  obtain ⟨issued, hperforms⟩ := performs_of_processScriptLine h
  rw [processScriptLine_eq] at h
  rcases hperforms.does.command_of_rejected rfl with hparse | ⟨slot, hparse⟩
  · rw [hparse] at h
    obtain ⟨_, rfl⟩ := Prod.mk.inj (Except.ok.inj h)
    exact onlyLogged_logf _ w
  · rw [hparse, execParsed, Command.exec, storeHand] at h
    split at h
    · split at h
      · obtain ⟨_, rfl⟩ := Prod.mk.inj (Except.ok.inj h)
        exact onlyLogged_logf _ w
      · -- a handle that is stored is no rejection
        obtain ⟨hrv, _⟩ := Prod.mk.inj (Except.ok.inj h)
        exact absurd hrv (by decide)
    · obtain ⟨_, rfl⟩ := Prod.mk.inj (Except.ok.inj h)
      exact onlyLogged_logf _ w

-- The script up to a line it comes to is run to its end, and no line of it ends the run.
theorem Comes.exists_before (h : Comes layout fh w line w₁) :
    ∃ before linebuf after, fh = before ++ (linebuf ++ after) ∧ line = cString linebuf ∧
      runScript layout before w = .ok (-1, w₁) ∧ ∀ rv, rv ≠ 1 → ¬Returns layout before w rv := by
  induction h with
  | @here fh linebuf rest w hfgets =>
      obtain ⟨rfl, _⟩ := fgets_spec NEWLINE hfgets
      exact ⟨[], linebuf, rest, rfl, rfl, runScript_nil layout w,
        fun rv _ => not_returns_of_eof rfl rv⟩
  | @later fh chunk rest line w w' w'' hfgets hline hcomes ih =>
      obtain ⟨before, linebuf, after, rfl, hcString, hrun, hends⟩ := ih
      obtain ⟨rfl, _⟩ := fgets_spec NEWLINE hfgets
      have hcut := fgets_cut NEWLINE (by decide) hfgets (List.prefix_append before (linebuf ++ after))
      refine ⟨chunk ++ before, linebuf, after, (List.append_assoc ..).symm, hcString, ?_, ?_⟩
      · rw [runScript_of_fgets hcut, hline]
        exact hrun
      · intro rv hrv hreturns
        rcases (returns_iff hcut rv).mp hreturns with ⟨_, hfirst⟩ | ⟨_, hfirst, hlater⟩
        · obtain ⟨hone, _⟩ := Prod.mk.inj (Except.ok.inj (hline.symm.trans hfirst))
          exact hrv hone.symm
        · obtain ⟨_, rfl⟩ := Prod.mk.inj (Except.ok.inj (hline.symm.trans hfirst))
          exact hends rv hrv hlater

theorem runScript_of_rejected (h : Comes layout fh w line w₁)
    (hrejected : processScriptLine layout line w₁ = .ok (-1, w₂)) :
    runScript layout fh w = .ok (-1, w₂) := by
  induction h with
  | here hfgets =>
      rw [runScript_of_fgets hfgets, hrejected]
      rfl
  | later hfgets hline _ ih =>
      rw [runScript_of_fgets hfgets, hline]
      exact ih hrejected

end

-- A rejected line has done nothing but to log. So a script that is given up at a line has had
-- the effect of the script up to that line, which was run to its end.
theorem rejected_line_only_logs (layout : Layout) :
    (∀ linebuf w w', processScriptLine layout linebuf w = .ok (-1, w') → OnlyLogged w w') ∧
    ∀ fh w line w₁ w₂, Comes layout fh w line w₁ →
      processScriptLine layout line w₁ = .ok (-1, w₂) →
        runScript layout fh w = .ok (-1, w₂) ∧ OnlyLogged w₁ w₂ ∧
        ∃ before linebuf after, fh = before ++ (linebuf ++ after) ∧ line = cString linebuf ∧
          runScript layout before w = .ok (-1, w₁) ∧
          ∀ rv, rv ≠ 1 → ¬Returns layout before w rv := by
  constructor
  · intro linebuf w w' h
    exact onlyLogged_of_rejected h
  · intro fh w line w₁ w₂ hcomes hrejected
    exact ⟨runScript_of_rejected hcomes hrejected, onlyLogged_of_rejected hrejected,
      hcomes.exists_before⟩

-- The driver opens a file, and its handle is to be stored in a slot that there is not.
theorem rejected_line_only_logs_storhand :
    ∃ w₁ w₂, processScriptLine sampleLayout (ascii "CALLRM 1 0 0 0 0\n") (.start [⟨3, 0, 0, 0⟩]) =
        .ok (1, w₁) ∧ w₁.vars.lastCallRv = 3 ∧
      processScriptLine sampleLayout (ascii "STORHAND 9\n") w₁ = .ok (-1, w₂) ∧ OnlyLogged w₁ w₂ ∧
        runScript sampleLayout (ascii "CALLRM 1 0 0 0 0\nSTORHAND 9\n") (.start [⟨3, 0, 0, 0⟩]) =
          .ok (-1, w₂) := by
  obtain ⟨w₁, hopened, hrv⟩ : ∃ w₁, processScriptLine sampleLayout (ascii "CALLRM 1 0 0 0 0\n")
      (.start [⟨3, 0, 0, 0⟩]) = .ok (1, w₁) ∧ w₁.vars.lastCallRv = 3 := ⟨_, rfl, by decide⟩
  have hline : processScriptLine sampleLayout (ascii "STORHAND 9\n") w₁ =
      .ok (-1, logf (.badCommand (ascii "STORHAND 9\n")) w₁) := rfl
  have hcallrm : fgets NEWLINE 256 (ascii "CALLRM 1 0 0 0 0\nSTORHAND 9\n") =
      some (ascii "CALLRM 1 0 0 0 0\n", ascii "STORHAND 9\n") := by decide
  have hstorhand : fgets NEWLINE 256 (ascii "STORHAND 9\n") = some (ascii "STORHAND 9\n", []) := by
    decide
  have hcomes : Comes sampleLayout (ascii "CALLRM 1 0 0 0 0\nSTORHAND 9\n") (.start [⟨3, 0, 0, 0⟩])
      (ascii "STORHAND 9\n") w₁ := .later hcallrm hopened (.here hstorhand)
  exact ⟨w₁, _, hopened, hrv, hline, (rejected_line_only_logs sampleLayout).1 _ _ _ hline,
    ((rejected_line_only_logs sampleLayout).2 _ _ _ _ _ hcomes hline).1⟩

end ReelMagic.Rmprobe
