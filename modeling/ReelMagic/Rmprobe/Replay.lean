import ReelMagic.Library.Printf
import ReelMagic.Rmprobe.Calls
import ReelMagic.Rmprobe.WholeLines

namespace ReelMagic.Rmprobe

open Library.CString Library.Lines Library.Printf Library.Scanf
open ReelMagic.Recorder (Regs)

-- What the lines of a script are for that opens, names and calls.
inductive Item where
  | call (form : CallForm)
  | storhand (slot : Fin 5)
  | remark
  | leave

def Item.isCall : Item → Bool
  | .call _ => true
  | _ => false

-- How they are written, with any number of blanks in front.
inductive Writes : Item → List UInt8 → Prop
  | call {form : CallForm} {text : List UInt8} (blanks : Nat) : Spells form text →
      Writes (.call form) (List.replicate blanks BLANK ++ text)
  | storhand {slot : Fin 5} {word n tail : List UInt8} (blanks : Nat) :
      SameLetters word (ascii "STORHAND") → IsHex n (UInt16.ofNat slot.val) → IsLineEnd tail →
        Writes (.storhand slot) (List.replicate blanks BLANK ++ (word ++ BLANK :: (n ++ tail)))
  | remark {line : List UInt8} :
      (skipBlanks line).head? = some HASH ∨ (skipBlanks line).head? = some RETURN ∨
        (skipBlanks line).head? = some NEWLINE → Writes .remark line
  | leave {word rest : List UInt8} (blanks : Nat) :
      SameLetters word (ascii "EXIT") ∨ SameLetters word (ascii "QUIT") →
        Writes .leave (List.replicate blanks BLANK ++ (word ++ rest))

-- What HANDn stands for, and the low byte of what was returned last.
structure Names where
  hand : Fin 5 → UInt8
  last : UInt8

def World.names (w : World) : Names := ⟨w.vars.hand, w.vars.lastHandle⟩

-- The interrupt carries the numbers of the call, whatever else there is in the world.
def Asks (layout : Layout) (int : UInt8) (hand : Fin 5 → UInt8) (line : List UInt8)
    (issued : Interrupt) (form : CallForm) : Prop :=
  ∀ w : World, w.fmpDriverInt = int → w.vars.hand = hand → Delivers layout line w issued form

-- A script as it is meant: one interrupt for each call, in their order, a STORHAND names what
-- was returned last, and the first one that has nothing to name is the end of it.
inductive Plays (layout : Layout) (int : UInt8) :
    Names → List (Item × List UInt8) → List Interrupt → Int → Prop
  | eof {names : Names} : Plays layout int names [] [] (-1)
  | call {names : Names} {form : CallForm} {line : List UInt8} {issued : Interrupt}
      {entries : List (Item × List UInt8)} {later : List Interrupt} {rv : Int} :
      Asks layout int names.hand line issued form →
        Plays layout int { names with last := UInt8.ofNat (form.value issued.reply) } entries later rv →
          Plays layout int names ((.call form, line) :: entries) (issued :: later) rv
  | storhand {names : Names} {slot : Fin 5} {line : List UInt8}
      {entries : List (Item × List UInt8)} {later : List Interrupt} {rv : Int} :
      names.last ≠ 0 →
        Plays layout int { names with hand := Function.update names.hand slot names.last } entries
          later rv →
          Plays layout int names ((.storhand slot, line) :: entries) later rv
  | storhandFailed {names : Names} {slot : Fin 5} {line : List UInt8}
      {entries : List (Item × List UInt8)} : names.last = 0 →
      Plays layout int names ((.storhand slot, line) :: entries) [] (-1)
  | remark {names : Names} {line : List UInt8} {entries : List (Item × List UInt8)}
      {later : List Interrupt} {rv : Int} : Plays layout int names entries later rv →
      Plays layout int names ((.remark, line) :: entries) later rv
  | leave {names : Names} {line : List UInt8} {entries : List (Item × List UInt8)} :
      Plays layout int names ((.leave, line) :: entries) [] 0

section Parsing

variable {word text : List UInt8}

theorem parse_storhand (blanks : Nat) (hword : SameLetters word (ascii "STORHAND")) :
    parse (List.replicate blanks BLANK ++ (word ++ BLANK :: text)) =
      parseNumber "%X" .storhand text := by
  have hlower := lower_line text hword
  have hdrop : (word ++ BLANK :: text).drop 9 = text := drop_keyword hword
  rw [parse, skipBlanks_line blanks (head_ne_of_lower hlower (by decide))]
  simp +decide only [head_ne_of_lower hlower, strncasecmpEq_of_lower hlower, hdrop, if_true, if_false]

theorem parseNumber_hex {n tail : List UInt8} {value : UInt16} (hn : IsHex n value)
    (htail : IsLineEnd tail) (command : UInt16 → Command) :
    parseNumber "%X" command (n ++ tail) = some (command value) := by
  have htext : BLANK :: (n ++ tail) = spellNumbers [n] ++ tail := by
    simp [spellNumbers]
  have hscan : scan "%X" (n ++ tail) = [value] ++ (sscanf [] tail).map UInt16.ofInt :=
    scan_spelled htext rfl (.cons hn .nil) (endsNumeral_of_isLineEnd htail)
  rw [parseNumber, hscan]
  rfl

theorem parse_remark {line : List UInt8} (h : (skipBlanks line).head? = some HASH ∨
    (skipBlanks line).head? = some RETURN ∨ (skipBlanks line).head? = some NEWLINE) :
    parse line = some .comment := by
  simp only [parse]
  rcases h with h | h | h
  · rw [if_pos h]
  · rw [h, if_neg (by decide), if_pos rfl]
  · rw [h, if_neg (by decide), if_neg (by decide), if_pos rfl]

-- All keywords before these two start with other letters.
theorem parse_leave {keyword : List UInt8} (blanks : Nat) (hword : SameLetters word keyword)
    (hkeyword : keyword = ascii "EXIT" ∨ keyword = ascii "QUIT") :
    parse (List.replicate blanks BLANK ++ (word ++ text)) = some .exit := by
  have hlower : (word ++ text).map tolower = keyword.map tolower ++ text.map tolower := by
    rw [List.map_append, hword]
  rcases hkeyword with rfl | rfl
  all_goals
    rw [parse, skipBlanks_line blanks (head_ne_of_lower hlower (by decide))]
    simp +decide only [head_ne_of_lower hlower, strncasecmpEq_of_lower hlower, if_true, if_false]

end Parsing

section Runs

variable {layout : Layout} {linebuf : List UInt8} {w w' : World}

-- A line that is understood and gets through.
theorem performs_of_exec {command : Command} {rv : Int} (hparse : parse linebuf = some command)
    (h : command.exec layout linebuf w = .ok (rv, w')) :
    processScriptLine layout linebuf w = .ok (rv, w') ∧
      ∃ issued, Exchanges w issued w' ∧
        Does layout linebuf w.fmpDriverInt w.vars (some command) issued rv w'.vars := by
  have hline : processScriptLine layout linebuf w = .ok (rv, w') := by
    rw [processScriptLine_eq, hparse]
    exact h
  obtain ⟨issued, hperforms⟩ := performs_of_processScriptLine hline
  have hdoes := hperforms.does
  rw [hparse] at hdoes
  exact ⟨hline, issued, hperforms.toExchanges, hdoes⟩

theorem exec_storhand (layout : Layout) (linebuf : List UInt8) (slot : UInt16) (w : World) :
    ∃ rv w', (Command.storhand slot).exec layout linebuf w = .ok (rv, w') := by
  rw [Command.exec, storeHand]
  split
  · split
    · exact ⟨_, _, rfl⟩
    · exact ⟨_, _, rfl⟩
  · exact ⟨_, _, rfl⟩

theorem asks_of_delivers {issued : Interrupt} {form : CallForm}
    (h : Delivers layout linebuf w issued form) :
    Asks layout w.fmpDriverInt w.vars.hand linebuf issued form := by
  intro w' hint hhand
  cases form with
  | callrmHand command slot subfunc param1 param2 =>
      obtain ⟨hnum, hregs⟩ := h
      refine ⟨hnum.trans hint.symm, ?_⟩
      rw [hhand]
      exact hregs
  | callrm command handle subfunc param1 param2 => exact ⟨h.1.trans hint.symm, h.2⟩
  | callrmPtr command handle subfunc ptr => exact ⟨h.1.trans hint.symm, h.2⟩
  | callrms | callvbios => exact h

theorem Does.hand_of_call {command : Command} {int : UInt8} {vars vars' : Vars}
    {issued : List Interrupt} {rv : Int}
    (h : Does layout linebuf int vars (some command) issued rv vars') (hcall : command.IsCall) :
    vars'.hand = vars.hand := by
  cases h <;> first | rfl | exact False.elim hcall

-- The interpreter plays the script, line by line.
theorem plays_runLines (layout : Layout) {entries : List (Item × List UInt8)}
    (hwrites : ∀ entry ∈ entries, Writes entry.1 entry.2)
    (hreplies : entries.countP (·.1.isCall) ≤ w.replies.length) :
    ∃ issued rv w', runLines layout (entries.map Prod.snd) w = .ok (rv, w') ∧
      Exchanges w issued w' ∧ Plays layout w.fmpDriverInt w.names entries issued rv := by
  induction entries generalizing w with
  | nil => exact ⟨[], -1, w, rfl, (Issues.refl w).toExchanges, .eof⟩
  | cons entry entries ih =>
      obtain ⟨item, line⟩ := entry
      obtain ⟨hfirst, hrest⟩ := List.forall_mem_cons.mp hwrites
      change Writes item line at hfirst
      show ∃ issued rv w', afterLine (runLines layout (entries.map Prod.snd))
        (processScriptLine layout line w) = .ok (rv, w') ∧ _
      cases hfirst with
      | @call form text blanks hspells =>
          rw [List.countP_cons_of_pos rfl] at hreplies
          obtain ⟨reply, replies, hreply⟩ : ∃ reply replies, w.replies = reply :: replies :=
            List.exists_cons_of_length_pos (by omega)
          obtain ⟨command, hparse, hmeans⟩ := parse_spells hspells blanks
          have hcall := isCall_of_means hmeans
          obtain ⟨rv, w₁, hexec⟩ := exec_call hcall hreply layout (List.replicate blanks BLANK ++ text)
          obtain ⟨hline, issued, hexchanges, hdoes⟩ := performs_of_exec hparse hexec
          obtain ⟨rfl, interrupt, rfl⟩ := hdoes.call hcall
          obtain ⟨hdelivers, hvalue⟩ := delivers_of_does hmeans hdoes
          have hfewer := congrArg List.length hexchanges.replies
          rw [List.length_append, List.length_map, List.length_singleton] at hfewer
          obtain ⟨later, rv, w₂, hrun, hlater, hplays⟩ := ih hrest (w := w₁) (by omega)
          have hnames : w₁.names =
              { w.names with last := UInt8.ofNat (form.value interrupt.reply) } := by
            rw [World.names, World.names, hdoes.hand_of_call hcall, ← hvalue]
            rfl
          rw [hline]
          refine ⟨interrupt :: later, rv, w₂, hrun, hexchanges.trans hlater, ?_⟩
          rw [hnames, hexchanges.fmpDriverInt] at hplays
          exact .call (asks_of_delivers hdelivers) hplays
      | @storhand slot word n tail blanks hword hn htail =>
          have hparse := (parse_storhand blanks hword).trans (parseNumber_hex hn htail .storhand)
          obtain ⟨rv, w₁, hexec⟩ := exec_storhand layout
            (List.replicate blanks BLANK ++ (word ++ BLANK :: (n ++ tail))) (UInt16.ofNat slot.val) w
          obtain ⟨hline, issued, hexchanges, hdoes⟩ := performs_of_exec hparse hexec
          rw [hline]
          generalize hvars : w₁.vars = vars' at hdoes
          cases hdoes with
          | storhandBad hbad =>
              rw [slot_toNat] at hbad
              exact absurd slot.isLt hbad
          | storhandFailed _ hzero => exact ⟨[], -1, w₁, rfl, hexchanges, .storhandFailed hzero⟩
          | storhand hslot hnonzero =>
              have hfin : (⟨(UInt16.ofNat slot.val).toNat, hslot⟩ : Fin 5) = slot :=
                Fin.ext (slot_toNat slot)
              have hnames : w₁.names =
                  { w.names with hand := Function.update w.names.hand slot w.names.last } := by
                rw [World.names, hvars, hfin]
                rfl
              have hkept := congrArg List.length hexchanges.replies
              rw [List.length_append, List.length_map, List.length_nil] at hkept
              rw [List.countP_cons_of_neg Bool.false_ne_true] at hreplies
              obtain ⟨later, rv, w₂, hrun, hlater, hplays⟩ := ih hrest (w := w₁) (by omega)
              refine ⟨later, rv, w₂, hrun, hexchanges.trans hlater, ?_⟩
              rw [hnames, hexchanges.fmpDriverInt] at hplays
              exact .storhand hnonzero hplays
      | remark hremark =>
          obtain ⟨later, rv, w₁, hrun, hlater, hplays⟩ := ih hrest hreplies
          rw [processScriptLine_eq, parse_remark hremark]
          exact ⟨later, rv, w₁, hrun, hlater, .remark hplays⟩
      | @leave word rest blanks hword =>
          have hparse : parse (List.replicate blanks BLANK ++ (word ++ rest)) = some .exit := by
            rcases hword with hexit | hquit
            · exact parse_leave blanks hexit (Or.inl rfl)
            · exact parse_leave blanks hquit (Or.inr rfl)
          rw [processScriptLine_eq, hparse]
          exact ⟨[], 0, w, rfl, (Issues.refl w).toExchanges, .leave⟩

theorem runScript_of_lines {text : List UInt8} {parts : List (List UInt8)}
    (hlines : lines NEWLINE text = parts) (hfit : ∀ line ∈ parts, line.length ≤ 255)
    (hzero : 0 ∉ text) : runScript layout text w = runLines layout parts w := by
  have hlined := lined_lines NEWLINE text
  have hflatten := flatten_lines NEWLINE text
  rw [hlines] at hlined hflatten
  rw [← hflatten] at hzero ⊢
  exact runScript_eq_runLines hlined hzero fun line hreaches => hfit line hreaches.mem

end Runs

-- Whatever the spelling, a script makes the interrupts that its lines say, with the handles that
-- were returned while it ran in the place of their names.
theorem script_played (layout : Layout) (w : World) (script : List UInt8)
    (entries : List (Item × List UInt8)) (hlines : lines NEWLINE script = entries.map Prod.snd)
    (hwrites : ∀ entry ∈ entries, Writes entry.1 entry.2)
    (hfit : ∀ entry ∈ entries, entry.2.length ≤ 255) (hzero : 0 ∉ script)
    (hreplies : entries.countP (·.1.isCall) ≤ w.replies.length) :
    ∃ issued rv w', runScript layout script w = .ok (rv, w') ∧ Exchanges w issued w' ∧
      Plays layout w.fmpDriverInt w.names entries issued rv := by
  have hparts : ∀ line ∈ entries.map Prod.snd, line.length ≤ 255 := by
    intro line hmem
    obtain ⟨entry, hentry, rfl⟩ := List.mem_map.mp hmem
    exact hfit entry hentry
  rw [runScript_of_lines hlines hparts hzero]
  exact plays_runLines layout hwrites hreplies

-- A file is opened, and what is played is the handle that was returned for it.
theorem script_played_handle :
    ∃ issued rv w',
      runScript sampleLayout
          (ascii "callrm 1 0 1 \"A\"\n" ++ ascii " STORHAND 0\n" ++ ascii "CALLRM 3 HAND0 0 0 0\n")
          (.start [⟨7, 0, 0, 0⟩, ⟨0, 0, 0, 0⟩]) = .ok (rv, w') ∧
        Exchanges (.start [⟨7, 0, 0, 0⟩, ⟨0, 0, 0, 0⟩]) issued w' ∧
        Plays sampleLayout 0 ⟨fun _ => 0, 0⟩
          [(.call (.callrmPtr 1 0 1 (.quoted (ascii "A"))), ascii "callrm 1 0 1 \"A\"\n"),
            (.storhand 0, ascii " STORHAND 0\n"),
            (.call (.callrmHand 3 0 0 0 0), ascii "CALLRM 3 HAND0 0 0 0\n")] issued rv := by
  have hzero : IsHex (ascii "0") 0 := ⟨isNumeral_of_all (by decide) (by decide), by decide⟩
  have hone : IsHex (ascii "1") 1 := ⟨isNumeral_of_all (by decide) (by decide), by decide⟩
  have hthree : IsHex (ascii "3") 3 := ⟨isNumeral_of_all (by decide) (by decide), by decide⟩
  have hend : IsLineEnd [NEWLINE] := List.forall_mem_singleton.mpr rfl
  have hfile : SpellsPtr (.quoted (ascii "A")) (QUOTE :: ascii "A" ++ QUOTE :: [NEWLINE]) :=
    .quoted (by decide) (by decide) (by decide) (by decide)
  have hopen : Spells (.callrmPtr 1 0 1 (.quoted (ascii "A"))) (ascii "callrm 1 0 1 \"A\"\n") := by
    have hword : SameLetters (ascii "callrm") (ascii "CALLRM") := rfl
    have hsplit : ascii "callrm 1 0 1 \"A\"\n" =
        ascii "callrm" ++ spellNumbers [ascii "1", ascii "0", ascii "1"] ++
          BLANK :: (QUOTE :: ascii "A" ++ QUOTE :: [NEWLINE]) := rfl
    rw [hsplit]
    exact .callrmPtr hword hone hzero hone hfile
  have hname : Writes (.storhand 0) (ascii " STORHAND 0\n") := by
    have hword : SameLetters (ascii "STORHAND") (ascii "STORHAND") := rfl
    have hsplit : ascii " STORHAND 0\n" =
        List.replicate 1 BLANK ++ (ascii "STORHAND" ++ BLANK :: (ascii "0" ++ [NEWLINE])) := rfl
    rw [hsplit]
    exact .storhand 1 hword hzero hend
  have hplay : Spells (.callrmHand 3 0 0 0 0) (ascii "CALLRM 3 HAND0 0 0 0\n") := by
    have hword : SameLetters (ascii "CALLRM") (ascii "CALLRM") := rfl
    have hsplit : ascii "CALLRM 3 HAND0 0 0 0\n" =
        ascii "CALLRM" ++ spellNumbers [ascii "3"] ++ ascii " HAND" ++ ascii "0" ++
          spellNumbers [ascii "0", ascii "0", ascii "0"] ++ [NEWLINE] := rfl
    rw [hsplit]
    exact .callrmHand hword hthree hzero hzero hzero hzero hend
  refine script_played sampleLayout (.start [⟨7, 0, 0, 0⟩, ⟨0, 0, 0, 0⟩]) _ _ (by decide) ?_ (by decide)
    (by decide) (by decide)
  simp only [List.forall_mem_cons]
  exact ⟨.call 0 hopen, hname, .call 0 hplay, nofun⟩

-- The line that has the driver called with these registers.
def callLine (regs : Regs) : List UInt8 :=
  ascii "CALLRM" ++ spellNumbers [hex 2 (regs.bx >>> 8).toNat, hex 2 regs.bx.toUInt8.toNat,
    hex 4 regs.cx.toNat, hex 4 regs.ax.toNat, hex 4 regs.dx.toNat]

def callEntry (regs : Regs) : Item × List UInt8 :=
  (.call (.callrm (regs.bx >>> 8).toUInt8 regs.bx.toUInt8 regs.cx regs.ax regs.dx),
    callLine regs ++ [NEWLINE])

def exitEntry : Item × List UInt8 := (.leave, ascii "EXIT" ++ [NEWLINE])

section

variable {layout : Layout} {int : UInt8} {names : Names} {issued : List Interrupt} {rv : Int}

theorem shiftRight_toNat (bx : UInt16) : (bx >>> 8).toNat = bx.toNat / 256 :=
  Nat.shiftRight_eq_div_pow bx.toNat 8

theorem bx_eq (bx : UInt16) :
    (bx >>> 8).toUInt8.toUInt16 * 256 + bx.toUInt8.toUInt16 = bx := by
  have hlt : bx.toNat < 65536 := bx.toNat_lt
  rw [← UInt16.toNat_inj, UInt16.toNat_add, UInt16.toNat_mul, UInt8.toNat_toUInt16,
    UInt8.toNat_toUInt16, UInt16.toNat_toUInt8, UInt16.toNat_toUInt8, shiftRight_toNat]
  show (bx.toNat / 256 % 256 * 256 % 65536 + bx.toNat % 256) % 65536 = bx.toNat
  omega

theorem isHex_hex (width : Nat) (value : UInt16) : IsHex (hex width value.toNat) value :=
  ⟨isNumeral_hex width value.toNat, numeralValue_hex width value.toNat⟩

theorem writes_callEntry (regs : Regs) : Writes (callEntry regs).1 (callEntry regs).2 := by
  have hhigh : (regs.bx >>> 8).toUInt8.toUInt16 = regs.bx >>> 8 := by
    have hlt : regs.bx.toNat < 65536 := regs.bx.toNat_lt
    rw [← UInt16.toNat_inj, UInt8.toNat_toUInt16, UInt16.toNat_toUInt8, shiftRight_toNat]
    omega
  have hcommand : IsHex (hex 2 (regs.bx >>> 8).toNat) (regs.bx >>> 8).toUInt8.toUInt16 := by
    rw [hhigh]
    exact isHex_hex 2 _
  have hhandle : IsHex (hex 2 regs.bx.toUInt8.toNat) regs.bx.toUInt8.toUInt16 := by
    rw [← UInt8.toNat_toUInt16]
    exact isHex_hex 2 _
  have hword : SameLetters (ascii "CALLRM") (ascii "CALLRM") := rfl
  have hend : IsLineEnd [NEWLINE] := List.forall_mem_singleton.mpr rfl
  exact .call 0 (.callrm hword hcommand hhandle (isHex_hex 4 regs.cx) (isHex_hex 4 regs.ax)
    (isHex_hex 4 regs.dx) hend)

-- A line of letters, blanks and digits.
theorem mem_callLine {c : UInt8} {regs : Regs} (h : c ∈ callLine regs) :
    c ∈ ascii "CALLRM" ∨ c = BLANK ∨ isDigit 16 c = true := by
  rcases List.mem_append.mp h with hword | hnumbers
  · exact Or.inl hword
  · obtain ⟨digits, hdigits, hc⟩ := List.mem_flatMap.mp hnumbers
    rcases List.mem_cons.mp hc with hblank | hdigit
    · exact Or.inr (Or.inl hblank)
    · have hnumeral : IsNumeral 16 digits := by
        simp only [List.mem_cons, List.not_mem_nil, or_false] at hdigits
        rcases hdigits with rfl | rfl | rfl | rfl | rfl <;> exact isNumeral_hex _ _
      exact Or.inr (Or.inr (hnumeral.2 c hdigit))

theorem not_mem_callLine {c : UInt8} (hword : c ∉ ascii "CALLRM") (hblank : c ≠ BLANK)
    (hdigit : isDigit 16 c = false) (regs : Regs) : c ∉ callLine regs := by
  intro hmem
  rcases mem_callLine hmem with hin | hin | hin
  · exact hword hin
  · exact hblank hin
  · rw [hdigit] at hin
    cases hin

theorem callLine_length (regs : Regs) : (callLine regs).length = 27 := by
  have hax : regs.ax.toNat < 65536 := regs.ax.toNat_lt
  have hbx : regs.bx.toNat < 65536 := regs.bx.toNat_lt
  have hcx : regs.cx.toNat < 65536 := regs.cx.toNat_lt
  have hdx : regs.dx.toNat < 65536 := regs.dx.toNat_lt
  have hhigh : (hex 2 (regs.bx >>> 8).toNat).length = 2 := by
    apply hex_length (by omega)
    rw [shiftRight_toNat]
    omega
  have hlow : (hex 2 regs.bx.toUInt8.toNat).length = 2 :=
    hex_length (by omega) regs.bx.toUInt8.toNat_lt
  have hwords : ∀ n < 65536, (hex 4 n).length = 4 := fun n hn => hex_length (by omega) (by omega)
  simp only [callLine, spellNumbers, List.flatMap_cons, List.flatMap_nil, List.length_append,
    List.length_cons, List.length_nil, hhigh, hlow, hwords _ hax, hwords _ hcx, hwords _ hdx]
  rfl

theorem lines_calls (calls : List Regs) :
    lines NEWLINE ((calls.map callEntry ++ [exitEntry]).map Prod.snd).flatten =
      (calls.map callEntry ++ [exitEntry]).map Prod.snd := by
  refine lines_flatten NEWLINE ?_
  induction calls with
  | nil => exact .cons (by decide) .nil
  | cons regs calls ih =>
      exact .cons (not_mem_callLine (by decide) (by decide) (by decide) regs) ih

-- Only the calls that are written can have been played.
theorem plays_calls {calls : List Regs}
    (h : Plays layout int names (calls.map callEntry ++ [exitEntry]) issued rv) :
    rv = 0 ∧ issued.map (fun interrupt => (interrupt.num, interrupt.regs)) = calls.map (int, ·) := by
  induction calls generalizing names issued with
  | nil =>
      cases h
      exact ⟨rfl, rfl⟩
  | cons regs calls ih =>
      cases h with
      | @call _ _ _ interrupt _ later _ hasks hlater =>
          obtain ⟨hrv, hrest⟩ := ih hlater
          obtain ⟨hnum, hregs⟩ := hasks
            { World.start [] with fmpDriverInt := int, vars := { Vars.start with hand := names.hand } }
            rfl rfl
          rw [bx_eq] at hregs
          refine ⟨hrv, ?_⟩
          rw [List.map_cons, List.map_cons, hrest, hnum, hregs]

end

-- Every sequence of calls of the driver is what some script asks for, and after that it ends well.
theorem exists_script (calls : List Regs) :
    ∃ script, ∀ layout w, calls.length ≤ w.replies.length →
      ∃ issued w', runScript layout script w = .ok (0, w') ∧ Exchanges w issued w' ∧
        issued.map (fun interrupt => (interrupt.num, interrupt.regs)) =
          calls.map (w.fmpDriverInt, ·) := by
  refine ⟨((calls.map callEntry ++ [exitEntry]).map Prod.snd).flatten, ?_⟩
  intro layout w hreplies
  have hwrites : ∀ entry ∈ calls.map callEntry ++ [exitEntry], Writes entry.1 entry.2 := by
    intro entry hmem
    rcases List.mem_append.mp hmem with hcall | hexit
    · obtain ⟨regs, _, rfl⟩ := List.mem_map.mp hcall
      exact writes_callEntry regs
    · rw [List.mem_singleton.mp hexit]
      have hword : SameLetters (ascii "EXIT") (ascii "EXIT") := rfl
      exact .leave 0 (Or.inl hword)
  have hfit : ∀ line ∈ (calls.map callEntry ++ [exitEntry]).map Prod.snd, line.length ≤ 255 := by
    intro line hmem
    obtain ⟨entry, hentry, rfl⟩ := List.mem_map.mp hmem
    rcases List.mem_append.mp hentry with hcall | hexit
    · obtain ⟨regs, _, rfl⟩ := List.mem_map.mp hcall
      rw [callEntry, List.length_append, callLine_length, List.length_singleton]
      omega
    · rw [List.mem_singleton.mp hexit]
      decide
  have hzero : 0 ∉ ((calls.map callEntry ++ [exitEntry]).map Prod.snd).flatten := by
    intro hmem
    obtain ⟨line, hline, hmem⟩ := List.mem_flatten.mp hmem
    obtain ⟨entry, hentry, rfl⟩ := List.mem_map.mp hline
    rcases List.mem_append.mp hentry with hcall | hexit
    · obtain ⟨regs, _, rfl⟩ := List.mem_map.mp hcall
      rcases List.mem_append.mp hmem with hin | hin
      · exact not_mem_callLine (by decide) (by decide) (by decide) regs hin
      · exact absurd (List.mem_singleton.mp hin) (by decide)
    · rw [List.mem_singleton.mp hexit] at hmem
      exact absurd hmem (by decide)
  have hcount : (calls.map callEntry ++ [exitEntry]).countP (·.1.isCall) ≤ w.replies.length := by
    have hle := List.countP_le_length (p := fun entry : Item × List UInt8 => entry.1.isCall)
      (l := calls.map callEntry)
    rw [List.length_map] at hle
    rw [List.countP_append]
    exact Nat.le_trans hle hreplies
  obtain ⟨issued, rv, w', hrun, hexchanges, hplays⟩ := plays_runLines layout hwrites hcount
  obtain ⟨rfl, hissued⟩ := plays_calls hplays
  refine ⟨issued, w', ?_, hexchanges, hissued⟩
  rw [runScript_of_lines (lines_calls calls) hfit hzero]
  exact hrun

end ReelMagic.Rmprobe
