import ReelMagic.Rmprobe.Runs

namespace ReelMagic.Rmprobe

open Library.CString Library.Lines

-- A script as it is meant: the lines of the file, one after the other and each as a whole.
def runLines (layout : Layout) : List (List UInt8) → World → Except Stop (Int × World)
  | [], w => .ok (-1, w)
  | line :: rest, w => afterLine (runLines layout rest) (processScriptLine layout line w)

-- The lines that are processed before a line ends the run, and that one.
inductive Reaches (layout : Layout) : List (List UInt8) → World → List UInt8 → Prop
  | here {line : List UInt8} {rest : List (List UInt8)} {w : World} :
      Reaches layout (line :: rest) w line
  | later {line other : List UInt8} {rest : List (List UInt8)} {w w' : World} :
      processScriptLine layout line w = .ok (1, w') → Reaches layout rest w' other →
        Reaches layout (line :: rest) w other

-- The interrupts of a run, and the state it leaves the interpreter in.
def effect (outcome : Except Stop (Int × World)) : Except Stop (List Interrupt × Vars × Bool) :=
  outcome.map fun (_, w) => (w.interrupts, w.vars, w.stdouton)

def IsComment (line : List UInt8) : Prop := (skipBlanks line).head? = some HASH

structure OneLineOneCommand (layout : Layout) (script : List UInt8) (w : World) : Prop where
  whole : effect (runScript layout script w) = effect (runLines layout (lines NEWLINE script) w)
  quiet : ∀ line ∈ lines NEWLINE script, IsComment line →
    ∀ w', processScriptLine layout line w' = .ok (1, w')
  deletable : ∀ before line after, lines NEWLINE script = before ++ line :: after → IsComment line →
    effect (runScript layout (before ++ after).flatten w) = effect (runScript layout script w)

section

variable {layout : Layout} {line : List UInt8} {before after parts : List (List UInt8)} {w : World}

theorem processScriptLine_comment (h : IsComment line) (layout : Layout) (w : World) :
    processScriptLine layout line w = .ok (1, w) := by
  unfold processScriptLine
  exact if_pos h

theorem Reaches.mem (h : Reaches layout parts w line) : line ∈ parts := by
  induction h with
  | here => exact List.mem_cons_self
  | later _ _ ih => exact List.mem_cons_of_mem _ ih

-- The rest of a script matters only after a line that returned 1.
theorem afterLine_congr {next next' : World → Except Stop (Int × World)}
    (h : ∀ w', processScriptLine layout line w = .ok (1, w') → next w' = next' w') :
    afterLine next (processScriptLine layout line w) =
      afterLine next' (processScriptLine layout line w) := by
  cases hline : processScriptLine layout line w with
  | error stop => rfl
  | ok result =>
      obtain ⟨rv, w'⟩ := result
      rcases processScriptLine_rv hline with rfl | rfl | rfl
      · exact h w' hline
      · rfl
      · rfl

-- A script whose lines all fit the buffer is processed line by line.
theorem runScript_eq_runLines (hlined : Lined NEWLINE parts) (hzero : 0 ∉ parts.flatten)
    (hfit : ∀ line, Reaches layout parts w line → line.length ≤ 255) :
    runScript layout parts.flatten w = runLines layout parts w := by
  induction parts generalizing w with
  | nil => exact runScript_nil layout w
  | cons line rest ih =>
      have hfgets : fgets NEWLINE 256 (line :: rest).flatten = some (line, rest.flatten) :=
        fgets_first NEWLINE (lines_flatten NEWLINE hlined) (hfit line .here)
      have hsplit : 0 ∉ line ∧ 0 ∉ rest.flatten := by
        rw [List.flatten_cons, List.mem_append, not_or] at hzero
        exact hzero
      rw [runScript_of_fgets hfgets, cString_of_not_mem hsplit.1, runLines]
      refine afterLine_congr ?_
      intro w' hline
      exact ih hlined.tail hsplit.2 fun other hreaches => hfit other (.later hline hreaches)

theorem runLines_delete (hcomment : IsComment line) :
    runLines layout (before ++ line :: after) w = runLines layout (before ++ after) w := by
  induction before generalizing w with
  | nil =>
      rw [List.nil_append, List.nil_append, runLines, processScriptLine_comment hcomment]
      rfl
  | cons first before ih =>
      rw [List.cons_append, List.cons_append, runLines, runLines]
      exact afterLine_congr fun w' _ => ih

theorem Reaches.insert (hcomment : IsComment line) {other : List UInt8}
    (h : Reaches layout (before ++ after) w other) :
    Reaches layout (before ++ line :: after) w other := by
  induction before generalizing w with
  | nil => exact .later (processScriptLine_comment hcomment layout w) h
  | cons first before ih =>
      rw [List.cons_append] at h ⊢
      cases h with
      | here => exact .here
      | later hline hrest => exact .later hline (ih hrest)

theorem oneLineOneCommand_of_fits {script : List UInt8} (hzero : 0 ∉ script)
    (hfit : ∀ line, Reaches layout (lines NEWLINE script) w line → line.length ≤ 255) :
    OneLineOneCommand layout script w := by
  have hlined := lined_lines NEWLINE script
  have hflatten := flatten_lines NEWLINE script
  have hwhole : runScript layout script w = runLines layout (lines NEWLINE script) w := by
    have heq := runScript_eq_runLines hlined (by rwa [hflatten]) hfit
    rwa [hflatten] at heq
  refine ⟨congrArg effect hwhole, fun line _ hcomment => processScriptLine_comment hcomment layout, ?_⟩
  intro before line after hlines hcomment
  rw [hlines] at hlined hflatten hfit hwhole
  have hzero' : 0 ∉ (before ++ after).flatten := by
    rw [← hflatten] at hzero
    simp only [List.flatten_append, List.flatten_cons, List.mem_append, not_or] at hzero ⊢
    exact ⟨hzero.1, hzero.2.2⟩
  have hdeleted := runScript_eq_runLines hlined.delete hzero'
    fun other hreaches => hfit other (hreaches.insert hcomment)
  rw [hdeleted, hwhole, runLines_delete hcomment]

end

-- What does not fit is cut after 255 characters, and each piece taken for a line.
theorem runScript_long {layout : Layout} {piece : List UInt8} (hlength : piece.length = 255)
    (hnewline : NEWLINE ∉ piece) (hzero : 0 ∉ piece) (rest : List UInt8) (w : World) :
    runScript layout (piece ++ rest) w =
      afterLine (runScript layout rest) (processScriptLine layout piece w) := by
  have hne : piece ++ rest ≠ [] := by
    intro hnil
    rw [(List.append_eq_nil_iff.mp hnil).1] at hlength
    cases hlength
  have hfgets : fgets NEWLINE 256 (piece ++ rest) = some (piece, rest) := by
    rw [fgets, if_neg hne, takeLine_long NEWLINE hnewline hlength]
  rw [runScript_of_fgets hfgets, cString_of_not_mem hzero]

def sampleCall : List UInt8 := ascii "CALLRM E 0 0 0 0\n"

theorem lines_sampleCall : lines NEWLINE sampleCall = [sampleCall] := by decide

theorem not_mem_blanks {c : UInt8} (hc : c ≠ BLANK) (n : Nat) : c ∉ List.replicate n BLANK :=
  fun hmem => hc (List.eq_of_mem_replicate hmem)

theorem length_effect {outcome outcome' : Except Stop (Int × World)} (h : effect outcome = effect outcome') :
    (effect outcome).toOption.map (fun e => e.1.length) =
      (effect outcome').toOption.map (fun e => e.1.length) := by
  rw [h]

-- A line of blanks that does not fit is rejected, and ends the script before its next line.
theorem blanks_end_script :
    ¬OneLineOneCommand sampleLayout (List.replicate 255 BLANK ++ NEWLINE :: sampleCall)
      (.start [⟨0, 0, 0, 0⟩]) := by
  intro h
  have hpiece : processScriptLine sampleLayout (List.replicate 255 BLANK) (.start [⟨0, 0, 0, 0⟩]) =
      badCommand [] (.start [⟨0, 0, 0, 0⟩]) := by
    have hskip : skipBlanks (List.replicate 255 BLANK) = [] := by
      have hblanks := skipBlanks_line 255 (show ([] : List UInt8).head? ≠ some BLANK by decide)
      rwa [List.append_nil] at hblanks
    rw [processScriptLine_eq, parse, hskip]
    show badCommand (skipBlanks (List.replicate 255 BLANK)) _ = _
    rw [hskip]
  have hline : processScriptLine sampleLayout (List.replicate 255 BLANK ++ [NEWLINE])
      (.start [⟨0, 0, 0, 0⟩]) = .ok (1, .start [⟨0, 0, 0, 0⟩]) := by
    have hskip : skipBlanks (List.replicate 255 BLANK ++ [NEWLINE]) = [NEWLINE] :=
      skipBlanks_line 255 (by decide)
    rw [processScriptLine_eq, parse, hskip]
    rfl
  have hwhole := h.whole
  rw [lines_append_newline NEWLINE (not_mem_blanks (by decide) 255), lines_sampleCall,
    runScript_long List.length_replicate (not_mem_blanks (by decide) 255)
      (not_mem_blanks (by decide) 255), hpiece, runLines, hline] at hwhole
  exact absurd (length_effect hwhole) (by decide)

-- Only the length of the lines that a run comes to matters, and 255 is as long as they may be.
theorem one_line_one_command_iff (n : Nat) :
    (∀ layout script w, 0 ∉ script →
      (∀ line, Reaches layout (lines NEWLINE script) w line → line.length ≤ n) →
        OneLineOneCommand layout script w) ↔ n ≤ 255 := by
  constructor
  · intro h
    by_contra hn
    refine blanks_end_script (h _ _ _ (by decide) ?_)
    intro line hreaches
    have hmem := hreaches.mem
    rw [lines_append_newline NEWLINE (not_mem_blanks (by decide) 255), lines_sampleCall] at hmem
    rcases List.mem_cons.mp hmem with rfl | hmem
    · rw [List.length_append, List.length_replicate, List.length_singleton]
      omega
    · rw [List.mem_singleton.mp hmem]
      exact Nat.le_trans (show sampleCall.length ≤ 255 by decide) (by omega)
  · intro hn layout script w hzero hfit
    exact oneLineOneCommand_of_fits hzero fun line hreaches =>
      Nat.le_trans (hfit line hreaches) hn

-- The end of a long comment is sent to the driver.
theorem comment_tail_called :
    ¬∀ layout script w, 0 ∉ script → OneLineOneCommand layout script w := by
  intro h
  have hpiece : ∀ {c : UInt8}, c ≠ BLANK → c ≠ HASH → c ∉ HASH :: List.replicate 254 BLANK := by
    intro c hblank hhash hmem
    rcases List.mem_cons.mp hmem with hc | hmem
    · exact hhash hc
    · exact not_mem_blanks hblank 254 hmem
  have hzero : 0 ∉ (HASH :: List.replicate 254 BLANK) ++ sampleCall :=
    List.not_mem_append (hpiece (by decide) (by decide)) (by decide)
  have hlength : (HASH :: List.replicate 254 BLANK).length = 255 := by
    rw [List.length_cons, List.length_replicate]
  have hlines : lines NEWLINE ((HASH :: List.replicate 254 BLANK) ++ sampleCall) =
      [(HASH :: List.replicate 254 BLANK) ++ sampleCall] := by
    have hline : NEWLINE ∉ (HASH :: List.replicate 254 BLANK) ++ sampleCall.dropLast :=
      List.not_mem_append (hpiece (by decide) (by decide)) (by decide)
    have hwhole := lines_append_newline NEWLINE hline []
    have hsplit : (HASH :: List.replicate 254 BLANK) ++ sampleCall.dropLast ++ [NEWLINE] =
        (HASH :: List.replicate 254 BLANK) ++ sampleCall := by
      rw [List.append_assoc]
      rfl
    rw [hsplit] at hwhole
    exact hwhole
  have hwhole := (h sampleLayout _ (.start [⟨0, 0, 0, 0⟩]) hzero).whole
  have hcomment : IsComment (HASH :: List.replicate 254 BLANK) := rfl
  have hcomment' : IsComment (HASH :: List.replicate 254 BLANK ++ sampleCall) := rfl
  have hfgets : fgets NEWLINE 256 sampleCall = some (sampleCall, []) := by decide
  obtain ⟨w', hcall, hissued⟩ : ∃ w', processScriptLine sampleLayout (cString sampleCall)
      (.start [⟨0, 0, 0, 0⟩]) = .ok (1, w') ∧ w'.interrupts.length = 1 := ⟨_, rfl, rfl⟩
  rw [hlines, runScript_long hlength (hpiece (by decide) (by decide)) (hpiece (by decide) (by decide)),
    processScriptLine_comment hcomment, runLines, processScriptLine_comment hcomment'] at hwhole
  change effect (runScript _ sampleCall _) = effect (runLines sampleLayout [] _) at hwhole
  rw [runScript_of_fgets hfgets, hcall] at hwhole
  change effect (runScript _ [] w') = effect (runLines sampleLayout [] _) at hwhole
  rw [runScript_nil] at hwhole
  have hcount : some w'.interrupts.length = some 0 := length_effect hwhole
  rw [hissued] at hcount
  cases hcount

end ReelMagic.Rmprobe
