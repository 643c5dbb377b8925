import ReelMagic.Rmprobe.Main
import ReelMagic.Rmprobe.Runs

namespace ReelMagic.Rmprobe

open Library.CString Library.Lines

-- The status is non-zero exactly when a line was rejected, in a run that found the driver.
def ExitStatusTells (layout : Layout) (setup : Setup) (w : World) : Prop :=
  ∀ cmdin w₁ status w', beforeScript layout setup w = .ok (some cmdin, w₁) →
    main layout setup w = .ok (status, w') → (status ≠ 0 ↔ Returns layout cmdin w₁ (-1))

-- A line that neither ends the script nor is rejected.
def GoesOn (vars : Vars) : Option Command → Prop
  | none => False
  | some .exit => False
  | some (.storhand slot) => slot.toNat < 5 ∧ vars.lastHandle ≠ 0
  | some _ => True

section

variable {layout : Layout} {linebuf fh : List UInt8} {w : World}

theorem Does.goesOn_iff {int : UInt8} {vars vars' : Vars} {command : Option Command}
    {issued : List Interrupt} {rv : Int} (h : Does layout linebuf int vars command issued rv vars') :
    GoesOn vars command ↔ rv = 1 := by
  cases h with
  | badCommand => exact ⟨False.elim, nofun⟩
  | exit => exact ⟨False.elim, nofun⟩
  | storhandBad hslot => exact ⟨fun hgoes => absurd hgoes.1 hslot, nofun⟩
  | storhandFailed _ hzero => exact ⟨fun hgoes => absurd hzero hgoes.2, nofun⟩
  | storhand hslot hnonzero => exact ⟨fun _ => rfl, fun _ => ⟨hslot, hnonzero⟩⟩
  | _ => exact ⟨fun _ => rfl, fun _ => trivial⟩

-- A line that does not go on returns at once.
theorem exists_ok_of_not_goesOn {command : Option Command} (h : ¬GoesOn w.vars command) :
    ∃ rv w', execParsed layout linebuf w command = .ok (rv, w') := by
  cases command with
  | none => exact ⟨_, _, rfl⟩
  | some command =>
      cases command with
      | exit => exact ⟨_, _, rfl⟩
      | storhand slot =>
          rw [execParsed, Command.exec, storeHand]
          split
          · split
            · exact ⟨_, _, rfl⟩
            · exact ⟨_, _, rfl⟩
          · exact ⟨_, _, rfl⟩
      | _ => exact absurd trivial h

theorem goesOn_iff (layout : Layout) : GoesOn w.vars (parse linebuf) ↔
    ∀ rv w', processScriptLine layout linebuf w = .ok (rv, w') → rv = 1 := by
  constructor
  · intro hgoes rv w' hline
    obtain ⟨issued, hperforms⟩ := performs_of_processScriptLine hline
    exact hperforms.does.goesOn_iff.mp hgoes
  · intro hone
    by_contra hgoes
    obtain ⟨rv, w', hexec⟩ : ∃ rv w', processScriptLine layout linebuf w = .ok (rv, w') := by
      rw [processScriptLine_eq]
      exact exists_ok_of_not_goesOn hgoes
    obtain ⟨issued, hperforms⟩ := performs_of_processScriptLine hexec
    exact hgoes (hperforms.does.goesOn_iff.mpr (hone rv w' hexec))

-- Every line goes on exactly when the run ends at the end of the file, if it ends.
theorem all_goesOn_iff :
    (∀ line w₁, Comes layout fh w line w₁ → GoesOn w₁.vars (parse line)) ↔
      ¬Returns layout fh w 0 ∧ ¬Returns layout fh w (-1) := by
  constructor
  · intro h
    constructor
    · rintro ⟨line, w₁, w₂, hcomes, hline⟩
      exact absurd ((goesOn_iff layout).mp (h line w₁ hcomes) _ _ hline) (by decide)
    · rintro ⟨line, w₁, w₂, hcomes, hline⟩
      exact absurd ((goesOn_iff layout).mp (h line w₁ hcomes) _ _ hline) (by decide)
  · rintro ⟨hexit, hrejected⟩ line w₁ hcomes
    refine (goesOn_iff layout).mpr ?_
    intro rv w₂ hline
    rcases processScriptLine_rv hline with rfl | rfl | rfl
    · rfl
    · exact absurd ⟨line, w₁, w₂, hcomes, hline⟩ hexit
    · exact absurd ⟨line, w₁, w₂, hcomes, hline⟩ hrejected

theorem main_eq {setup : Setup} {cmdin : List UInt8} {w₁ : World}
    (h : beforeScript layout setup w = .ok (some cmdin, w₁)) :
    main layout setup w =
      (runScript layout cmdin w₁).map fun (rv, w') => (if rv ≠ 0 then 0 else 1, w') := by
  rw [main, h]
  show (runScript layout cmdin w₁ >>= _) = _
  cases runScript layout cmdin w₁ <;> rfl

end

-- The status tells exactly in the runs that come to no EXIT, no QUIT and no line that is
-- rejected.
theorem exit_status_tells_iff (layout : Layout) (setup : Setup) (w : World) :
    ExitStatusTells layout setup w ↔
      ∀ cmdin w₁, beforeScript layout setup w = .ok (some cmdin, w₁) →
        ∀ line w₂, Comes layout cmdin w₁ line w₂ → GoesOn w₂.vars (parse line) := by
  constructor
  · intro h cmdin w₁ hbefore
    rw [all_goesOn_iff]
    have htells := h cmdin w₁
    rw [main_eq hbefore] at htells
    have hending := ending_runScript layout cmdin w₁
    generalize runScript layout cmdin w₁ = outcome at htells hending
    cases hending with
    | stopped hexit hrejected => exact ⟨hexit, hrejected⟩
    | eof hexit hrejected => exact ⟨hexit, hrejected⟩
    | exit hexit hrejected =>
        exact absurd ((htells 1 _ hbefore rfl).mp (by decide)) hrejected
    | rejected hexit hrejected =>
        exact absurd rfl ((htells 0 _ hbefore rfl).mpr hrejected)
  · intro h cmdin w₁ status w' hbefore hmain
    obtain ⟨hexit, hrejected⟩ := all_goesOn_iff.mp (h cmdin w₁ hbefore)
    rw [main_eq hbefore] at hmain
    have hending := ending_runScript layout cmdin w₁
    generalize runScript layout cmdin w₁ = outcome at hmain hending
    cases hending with
    | stopped _ _ => cases hmain
    | eof _ _ =>
        obtain ⟨rfl, rfl⟩ := Prod.mk.inj (Except.ok.inj hmain)
        exact ⟨fun hne => absurd rfl hne, fun hreturns => absurd hreturns hrejected⟩
    | exit hreturns _ => exact absurd hreturns hexit
    | rejected _ hreturns => exact absurd hreturns hrejected

-- A driver at INT 80h, and a script from the standard input.
def sampleSetup (stdin : List UInt8) : Setup :=
  ⟨none, stdin, fun _ => none, fun _ => false,
    fun int => if int = 0x80 then some ([0, 0, 0] ++ ascii "FMPDriver") else none, ascii "C:\\"⟩

-- EXIT makes the status non-zero.
theorem exit_is_failure : ¬∀ layout setup w, ExitStatusTells layout setup w := by
  intro h
  have htells := h sampleLayout (sampleSetup (ascii "EXIT\n"))
    (.start [⟨0x524D, 0, 0, 0⟩, ⟨0x0112, 0, 0, 0⟩, ⟨0, 0, 0, 0⟩])
  obtain ⟨w₁, hbefore⟩ : ∃ w₁, beforeScript sampleLayout (sampleSetup (ascii "EXIT\n"))
      (.start [⟨0x524D, 0, 0, 0⟩, ⟨0x0112, 0, 0, 0⟩, ⟨0, 0, 0, 0⟩]) =
        .ok (some (ascii "EXIT\n"), w₁) := ⟨_, rfl⟩
  have hfgets : fgets NEWLINE 256 (ascii "EXIT\n") = some (ascii "EXIT\n", []) := by decide
  have hrun : runScript sampleLayout (ascii "EXIT\n") w₁ = .ok (0, w₁) := by
    rw [runScript_of_fgets hfgets]
    rfl
  have hending := ending_runScript sampleLayout (ascii "EXIT\n") w₁
  rw [hrun] at hending
  cases hending with
  | exit _ hrejected =>
      refine hrejected ((htells _ _ 1 w₁ hbefore ?_).mp (by decide))
      rw [main_eq hbefore, hrun]
      rfl

end ReelMagic.Rmprobe
