import ReelMagic.Rmprobe.Meaning

namespace ReelMagic.Rmprobe

open Library.CString Library.Lines

-- What `run_script` makes of the outcome of a line, `next` being the rest of the script.
def afterLine (next : World → Except Stop (Int × World)) :
    Except Stop (Int × World) → Except Stop (Int × World)
  | .error stop => .error stop
  | .ok (rv, w) => if rv = 0 then .ok (0, w) else if rv = -1 then .ok (-1, w) else next w

-- The calls that `run_script` makes: it comes to a line, with the world as it is then.
inductive Comes (layout : Layout) : List UInt8 → World → List UInt8 → World → Prop
  | here {fh linebuf rest : List UInt8} {w : World} :
      fgets NEWLINE 256 fh = some (linebuf, rest) → Comes layout fh w (cString linebuf) w
  | later {fh linebuf rest line : List UInt8} {w w' w'' : World} :
      fgets NEWLINE 256 fh = some (linebuf, rest) →
        processScriptLine layout (cString linebuf) w = .ok (1, w') →
          Comes layout rest w' line w'' → Comes layout fh w line w''

section

variable {layout : Layout} {fh linebuf rest : List UInt8} {w w' : World}

theorem runScript_nil (layout : Layout) (w : World) : runScript layout [] w = .ok (-1, w) := by
  rw [runScript]
  rfl

theorem runScript_of_fgets (h : fgets NEWLINE 256 fh = some (linebuf, rest)) (w : World) :
    runScript layout fh w =
      afterLine (runScript layout rest) (processScriptLine layout (cString linebuf) w) := by
  rw [runScript]
  split
  · rename_i hnone
    rw [h] at hnone
    cases hnone
  · rename_i chunk tail hsome
    rw [h] at hsome
    obtain ⟨rfl, rfl⟩ := Prod.mk.inj (Option.some.inj hsome)
    cases processScriptLine layout (cString linebuf) w <;> rfl

-- `process_script_line` returns one of three values.
theorem processScriptLine_rv {rv : Int} (h : processScriptLine layout linebuf w = .ok (rv, w')) :
    rv = 1 ∨ rv = 0 ∨ rv = -1 := by
  obtain ⟨issued, hperforms⟩ := performs_of_processScriptLine h
  exact hperforms.does.rv_cases

theorem Comes.length_le {line : List UInt8} (h : Comes layout fh w line w') : line.length ≤ 255 := by
  induction h with
  | here hfgets =>
      obtain ⟨_, hlength⟩ := fgets_spec NEWLINE hfgets
      exact Nat.le_trans (cString_length_le _) hlength
  | later _ _ _ ih => exact ih

-- A script that is at its end comes to no line.
theorem not_comes_of_eof {line : List UInt8} (h : fgets NEWLINE 256 fh = none) :
    ¬Comes layout fh w line w' := by
  intro hcomes
  cases hcomes with
  | here hfgets =>
      rw [h] at hfgets
      cases hfgets
  | later hfgets _ _ =>
      rw [h] at hfgets
      cases hfgets

theorem comes_iff (h : fgets NEWLINE 256 fh = some (linebuf, rest)) (line : List UInt8) :
    Comes layout fh w line w' ↔ (line = cString linebuf ∧ w' = w) ∨
      ∃ w₁, processScriptLine layout (cString linebuf) w = .ok (1, w₁) ∧
        Comes layout rest w₁ line w' := by
  constructor
  · intro hcomes
    cases hcomes with
    | here hfgets =>
        rw [h] at hfgets
        obtain ⟨rfl, rfl⟩ := Prod.mk.inj (Option.some.inj hfgets)
        exact Or.inl ⟨rfl, rfl⟩
    | later hfgets hline hrest =>
        rw [h] at hfgets
        obtain ⟨rfl, rfl⟩ := Prod.mk.inj (Option.some.inj hfgets)
        exact Or.inr ⟨_, hline, hrest⟩
  · rintro (⟨rfl, rfl⟩ | ⟨w₁, hline, hrest⟩)
    · exact .here h
    · exact .later h hline hrest

-- A line that makes `process_script_line` return `rv`.
def Returns (layout : Layout) (fh : List UInt8) (w : World) (rv : Int) : Prop :=
  ∃ line w₁ w₂, Comes layout fh w line w₁ ∧ processScriptLine layout line w₁ = .ok (rv, w₂)

theorem not_returns_of_eof (h : fgets NEWLINE 256 fh = none) (rv : Int) :
    ¬Returns layout fh w rv := by
  rintro ⟨line, w₁, w₂, hcomes, _⟩
  exact not_comes_of_eof h hcomes

theorem returns_iff (h : fgets NEWLINE 256 fh = some (linebuf, rest)) (rv : Int) :
    Returns layout fh w rv ↔
      (∃ w₁, processScriptLine layout (cString linebuf) w = .ok (rv, w₁)) ∨
      ∃ w₁, processScriptLine layout (cString linebuf) w = .ok (1, w₁) ∧
        Returns layout rest w₁ rv := by
  constructor
  · rintro ⟨line, w₁, w₂, hcomes, hline⟩
    rcases (comes_iff h line).mp hcomes with ⟨rfl, rfl⟩ | ⟨w', hfirst, hcomes⟩
    · exact Or.inl ⟨w₂, hline⟩
    · exact Or.inr ⟨w', hfirst, line, w₁, w₂, hcomes, hline⟩
  · rintro (⟨w₁, hline⟩ | ⟨w', hfirst, line, w₁, w₂, hcomes, hline⟩)
    · exact ⟨_, w, w₁, .here h, hline⟩
    · exact ⟨line, w₁, w₂, (comes_iff h line).mpr (Or.inr ⟨w', hfirst, hcomes⟩), hline⟩

-- How a run can end: no line ended it, or the last line it came to did.
inductive Ending (layout : Layout) (fh : List UInt8) (w : World) : Except Stop (Int × World) → Prop
  | stopped {stop : Stop} : ¬Returns layout fh w 0 → ¬Returns layout fh w (-1) →
      Ending layout fh w (.error stop)
  | eof {w' : World} : ¬Returns layout fh w 0 → ¬Returns layout fh w (-1) →
      Ending layout fh w (.ok (-1, w'))
  | exit {w' : World} : Returns layout fh w 0 → ¬Returns layout fh w (-1) →
      Ending layout fh w (.ok (0, w'))
  | rejected {w' : World} : ¬Returns layout fh w 0 → Returns layout fh w (-1) →
      Ending layout fh w (.ok (-1, w'))

theorem Ending.congr {fh' : List UInt8} {w' : World} {outcome : Except Stop (Int × World)}
    (h : Ending layout fh' w' outcome)
    (hreturns : ∀ rv, rv ≠ 1 → (Returns layout fh w rv ↔ Returns layout fh' w' rv)) :
    Ending layout fh w outcome := by
  have hexit := hreturns 0 (by decide)
  have hrejected := hreturns (-1) (by decide)
  cases h with
  | stopped h₀ h₁ => exact .stopped (mt hexit.mp h₀) (mt hrejected.mp h₁)
  | eof h₀ h₁ => exact .eof (mt hexit.mp h₀) (mt hrejected.mp h₁)
  | exit h₀ h₁ => exact .exit (hexit.mpr h₀) (mt hrejected.mp h₁)
  | rejected h₀ h₁ => exact .rejected (mt hexit.mp h₀) (hrejected.mpr h₁)

theorem ending_runScript (layout : Layout) (fh : List UInt8) (w : World) :
    Ending layout fh w (runScript layout fh w) := by
  induction hn : fh.length using Nat.strongRecOn generalizing fh w with
  | _ n ih =>
      cases hfgets : fgets NEWLINE 256 fh with
      | none =>
          obtain rfl := (fgets_eq_none_iff NEWLINE 256 fh).mp hfgets
          rw [runScript_nil]
          exact .eof (not_returns_of_eof hfgets 0) (not_returns_of_eof hfgets (-1))
      | some result =>
          obtain ⟨linebuf, rest⟩ := result
          have hlt := fgets_rest_lt NEWLINE (by decide) hfgets
          have hreturns : ∀ rv, Returns layout fh w rv ↔
              (∃ w₁, processScriptLine layout (cString linebuf) w = .ok (rv, w₁)) ∨
              ∃ w₁, processScriptLine layout (cString linebuf) w = .ok (1, w₁) ∧
                Returns layout rest w₁ rv := returns_iff hfgets
          rw [runScript_of_fgets hfgets]
          cases hline : processScriptLine layout (cString linebuf) w with
          | error stop =>
              simp only [hline, reduceCtorEq, exists_false, false_and, or_false] at hreturns
              exact .stopped (mt (hreturns 0).mp not_false) (mt (hreturns (-1)).mp not_false)
          | ok result =>
              obtain ⟨rv, w₁⟩ := result
              simp only [hline, Except.ok.injEq, Prod.mk.injEq] at hreturns
              rcases processScriptLine_rv hline with rfl | rfl | rfl
              · -- the run ends as the run of the rest does
                refine (ih rest.length (by omega) rest w₁ rfl).congr ?_
                intro rv hrv
                rw [hreturns rv]
                constructor
                · rintro (⟨_, rfl, _⟩ | ⟨_, ⟨_, rfl⟩, hrest⟩)
                  · exact absurd rfl hrv
                  · exact hrest
                · exact fun hrest => Or.inr ⟨w₁, ⟨rfl, rfl⟩, hrest⟩
              · refine .exit ((hreturns 0).mpr (Or.inl ⟨w₁, rfl, rfl⟩)) fun hrejected => ?_
                rcases (hreturns (-1)).mp hrejected with ⟨_, hrv, _⟩ | ⟨_, ⟨hrv, _⟩, _⟩
                · cases hrv
                · cases hrv
              · refine .rejected (fun hexit => ?_) ((hreturns (-1)).mpr (Or.inl ⟨w₁, rfl, rfl⟩))
                rcases (hreturns 0).mp hexit with ⟨_, hrv, _⟩ | ⟨_, ⟨hrv, _⟩, _⟩
                · cases hrv
                · cases hrv

end

-- The interpreter when a script starts.
def World.started (w : World) : World := { w with vars := .start }

-- A line that was processed, with the interrupts it issued.
structure LineEvent where
  linebuf : List UInt8
  issued : List Interrupt
  rv : Int

structure LineStep (layout : Layout) (w : World) (event : LineEvent) (w' : World) : Prop where
  line : processScriptLine layout event.linebuf w = .ok (event.rv, w')
  exchanges : Exchanges w event.issued w'

theorem LineStep.does {layout : Layout} {w w' : World} {event : LineEvent}
    (h : LineStep layout w event w') :
    Does layout event.linebuf w.fmpDriverInt w.vars (parse event.linebuf) event.issued event.rv
      w'.vars := by
  obtain ⟨issued, hperforms⟩ := performs_of_processScriptLine h.line
  have hinterrupts := hperforms.interrupts
  rw [h.exchanges.interrupts] at hinterrupts
  rw [List.append_cancel_left hinterrupts]
  exact hperforms.does

end ReelMagic.Rmprobe
