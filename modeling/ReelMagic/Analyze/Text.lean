import ReelMagic.Analyze.RoundTrip
import ReelMagic.Library.CString
import ReelMagic.Library.Lines
import ReelMagic.Library.Printf

namespace ReelMagic.Analyze

open Library Library.Bytes Library.CString Library.Lines Library.Printf ReelMagic.Recorder

-- The format strings of `main`, less the newline that each has at its end.
inductive Template where
  | driverCall
  | filename
  | driverReturn
  | rmdevsysCall
  | rmdevsysReturn
  | callbackReg
  | callbackStk
  | callbackRegReturn
  | callbackStkReturn
  | unknown
deriving DecidableEq

-- The `%.*s` of the file name is not part of the format here. The name comes after it.
def Template.format : Template → String
  | .driverCall => ">> driver_call(%02Xh, %02Xh, %04Xh, %04Xh, %04Xh)"
  | .filename => "Filename: "
  | .driverReturn => "<< driver_call() = %04X%04Xh bx=%04Xh cx=%04Xh"
  | .rmdevsysCall => ">> RMDEV.SYS ax=%04Xh bx=%04Xh cx=%04Xh dx=%04Xh"
  | .rmdevsysReturn => "<< RMDEV.SYS ax=%04Xh bx=%04Xh cx=%04Xh dx=%04Xh"
  | .callbackReg => "<> callback_reg(ax=%04Xh bx=%04Xh cx=%04Xh dx=%04Xh)"
  | .callbackStk => "   callback_stk(%04Xh, %04Xh, %04Xh, %04Xh)"
  | .callbackRegReturn => "<< callback_reg(ax=%04Xh bx=%04Xh cx=%04Xh dx=%04Xh)"
  | .callbackStkReturn => "callback_stk(%04Xh, %04Xh, %04Xh, %04Xh)"
  | .unknown => "UNKNOWN %04Xh ax=%04Xh bx=%04Xh cx=%04Xh dx=%04Xh"

def Template.pieces (template : Template) : List Piece := Printf.pieces template.format.toList

def Entry.template : Entry → Template
  | .driverCall _ _ _ _ _ => .driverCall
  | .filename _ => .filename
  | .driverReturn _ _ _ _ => .driverReturn
  | .rmdevsysCall _ _ _ _ => .rmdevsysCall
  | .rmdevsysReturn _ _ _ _ => .rmdevsysReturn
  | .callbackReg _ _ _ _ => .callbackReg
  | .callbackStk _ _ _ _ => .callbackStk
  | .callbackRegReturn _ _ _ _ => .callbackRegReturn
  | .callbackStkReturn _ _ _ _ => .callbackStkReturn
  | .unknown _ _ _ _ _ => .unknown

def Entry.values : Entry → List UInt16
  | .driverCall bh bl cx ax dx => [bh, bl, cx, ax, dx]
  | .filename _ => []
  | .driverReturn dx ax bx cx => [dx, ax, bx, cx]
  | .rmdevsysCall ax bx cx dx => [ax, bx, cx, dx]
  | .rmdevsysReturn ax bx cx dx => [ax, bx, cx, dx]
  | .callbackReg ax bx cx dx => [ax, bx, cx, dx]
  | .callbackStk arg0 arg1 arg2 arg3 => [arg0, arg1, arg2, arg3]
  | .callbackRegReturn ax bx cx dx => [ax, bx, cx, dx]
  | .callbackStkReturn arg0 arg1 arg2 arg3 => [arg0, arg1, arg2, arg3]
  | .unknown tag ax bx cx dx => [tag, ax, bx, cx, dx]

def Entry.name : Entry → List UInt8
  | .filename name => name
  | _ => []

def Entry.text (entry : Entry) : List UInt8 :=
  sprintf entry.template.pieces (entry.values.map UInt16.toNat) ++ entry.name

def BLANKS : List UInt8 := ascii "   "

def Line.text (line : Line) : List UInt8 :=
  (List.replicate line.indent BLANKS).flatten ++ (line.entry.text ++ [NEWLINE])

-- All that `main` writes for a log.
def output (lines : List Line) : List UInt8 := lines.flatMap Line.text

-- The other way round. `callback_stk` at the left is the one that has its blanks counted as
-- a step of the indentation.
def Template.entry : Template → List UInt16 → List UInt8 → Option Entry
  | .driverCall, [bh, bl, cx, ax, dx], [] => some (.driverCall bh bl cx ax dx)
  | .filename, [], name => some (.filename name)
  | .driverReturn, [dx, ax, bx, cx], [] => some (.driverReturn dx ax bx cx)
  | .rmdevsysCall, [ax, bx, cx, dx], [] => some (.rmdevsysCall ax bx cx dx)
  | .rmdevsysReturn, [ax, bx, cx, dx], [] => some (.rmdevsysReturn ax bx cx dx)
  | .callbackReg, [ax, bx, cx, dx], [] => some (.callbackReg ax bx cx dx)
  | .callbackStk, [arg0, arg1, arg2, arg3], [] => some (.callbackStk arg0 arg1 arg2 arg3)
  | .callbackRegReturn, [ax, bx, cx, dx], [] => some (.callbackRegReturn ax bx cx dx)
  | .callbackStkReturn, [arg0, arg1, arg2, arg3], [] => some (.callbackStkReturn arg0 arg1 arg2 arg3)
  | .unknown, [tag, ax, bx, cx, dx], [] => some (.unknown tag ax bx cx dx)
  | _, _, _ => none

def Template.read (text : List UInt8) (template : Template) : Option Entry :=
  match unprint template.pieces text with
  | none => none
  | some (values, rest) => template.entry (values.map UInt16.ofNat) rest

def templates : List Template :=
  [.driverCall, .filename, .driverReturn, .rmdevsysCall, .rmdevsysReturn, .callbackReg, .callbackStk,
    .callbackRegReturn, .callbackStkReturn, .unknown]

def readEntry (text : List UInt8) : Option Entry := templates.findSome? (Template.read text)

-- What two digits show.
def Entry.Fits : Entry → Prop
  | .driverCall bh bl _ _ _ => bh < 256 ∧ bl < 256
  | _ => True

theorem fitsIn_four (value : UInt16) : FitsIn 4 value.toNat := ⟨by omega, value.toNat_lt⟩

theorem fitsIn_two {value : UInt16} (h : value < 256) : FitsIn 2 value.toNat :=
  ⟨by omega, UInt16.lt_iff_toNat_lt.mp h⟩

def Template.widths : Template → List Nat
  | .driverCall => [2, 2, 4, 4, 4]
  | .filename => []
  | .unknown => [4, 4, 4, 4, 4]
  | _ => [4, 4, 4, 4]

theorem widths_pieces (template : Template) : Printf.widths template.pieces = template.widths := by
  cases template <;> rfl

theorem Entry.fits_values {entry : Entry} (h : entry.Fits) :
    Printf.Fits entry.template.pieces (entry.values.map UInt16.toNat) := by
  rw [Printf.Fits, widths_pieces]
  cases entry with
  | driverCall bh bl cx ax dx =>
      exact .cons (fitsIn_two h.1) (.cons (fitsIn_two h.2) (.cons (fitsIn_four cx)
        (.cons (fitsIn_four ax) (.cons (fitsIn_four dx) .nil))))
  | filename name => exact .nil
  | driverReturn v0 v1 v2 v3 | rmdevsysCall v0 v1 v2 v3 | rmdevsysReturn v0 v1 v2 v3
  | callbackReg v0 v1 v2 v3 | callbackStk v0 v1 v2 v3 | callbackRegReturn v0 v1 v2 v3
  | callbackStkReturn v0 v1 v2 v3 =>
      exact .cons (fitsIn_four v0) (.cons (fitsIn_four v1) (.cons (fitsIn_four v2)
        (.cons (fitsIn_four v3) .nil)))
  | unknown tag ax bx cx dx =>
      exact .cons (fitsIn_four tag) (.cons (fitsIn_four ax) (.cons (fitsIn_four bx)
        (.cons (fitsIn_four cx) (.cons (fitsIn_four dx) .nil))))

theorem read_own {entry : Entry} (h : entry.Fits) :
    Template.read entry.text entry.template = some entry := by
  have hvalues : (entry.values.map UInt16.toNat).map UInt16.ofNat = entry.values := by
    simp [Function.comp_def]
  rw [Template.read, Entry.text, unprint_sprintf (Entry.fits_values h)]
  dsimp only
  rw [hvalues]
  cases entry <;> rfl

-- No format starts like another one up to its first number.
theorem literal_not_isPrefix : ∀ template ∈ templates, ∀ other ∈ templates, template ≠ other →
    ¬literal template.pieces <+: literal other.pieces := by
  decide

theorem mem_templates (template : Template) : template ∈ templates := by
  cases template <;> decide

theorem read_other {entry : Entry} {other : Template} (h : other ≠ entry.template) :
    Template.read entry.text other = none := by
  have hno := literal_not_isPrefix other (mem_templates _) entry.template (mem_templates _) h
  have hno' := literal_not_isPrefix entry.template (mem_templates _) other (mem_templates _) h.symm
  rw [Template.read, Entry.text, unprint_other _ _ hno hno']

theorem findSome?_of_unique {α β : Type} {f : α → Option β} {own : α} {result : β} {all : List α}
    (hown : f own = some result) (hother : ∀ other, other ≠ own → f other = none)
    (hmem : own ∈ all) : all.findSome? f = some result := by
  induction all with
  | nil => exact absurd hmem List.not_mem_nil
  | cons first all ih =>
      by_cases h : first = own
      · rw [h, List.findSome?_cons, hown]
      · rw [List.findSome?_cons, hother first h]
        exact ih (List.mem_of_ne_of_mem (Ne.symm h) hmem)

theorem readEntry_text {entry : Entry} (h : entry.Fits) : readEntry entry.text = some entry :=
  findSome?_of_unique (read_own h) (fun _ hother => read_other hother) (mem_templates _)

def stripIndent : List UInt8 → Nat × List UInt8
  | 32 :: 32 :: 32 :: text => ((stripIndent text).1 + 1, (stripIndent text).2)
  | text => (0, text)

-- The two lines of a callback's stack that look the same are told as the one that the recorder
-- writes.
def Line.shown : Line → Line
  | ⟨indent + 1, .callbackStkReturn arg0 arg1 arg2 arg3⟩ => ⟨indent, .callbackStk arg0 arg1 arg2 arg3⟩
  | line => line

def readLine (text : List UInt8) : Option Line :=
  (readEntry (stripIndent text).2).map fun entry => Line.shown ⟨(stripIndent text).1, entry⟩

def readText (text : List UInt8) : Option (List Line) :=
  (lines NEWLINE text).mapM fun line => readLine line.dropLast

theorem shown_of_ne (indent : Nat) {entry : Entry} (h : entry.template ≠ .callbackStkReturn) :
    Line.shown ⟨indent, entry⟩ = ⟨indent, entry⟩ := by
  cases entry with
  | callbackStkReturn => exact absurd rfl h
  | _ => cases indent <;> rfl

theorem stripIndent_replicate {text : List UInt8} (h : stripIndent text = (0, text)) (indent : Nat) :
    stripIndent ((List.replicate indent BLANKS).flatten ++ text) = (indent, text) := by
  induction indent with
  | zero => exact h
  | succ indent ih =>
      rw [List.replicate_succ, List.flatten_cons, List.append_assoc]
      change stripIndent (32 :: 32 :: 32 :: ((List.replicate indent BLANKS).flatten ++ text)) = _
      rw [stripIndent, ih]

theorem stripIndent_of_ne {c : UInt8} (h : c ≠ 32) (text : List UInt8) :
    stripIndent (c :: text) = (0, c :: text) := by
  unfold stripIndent
  split
  · rename_i heq
    exact absurd (List.cons.inj heq).1 h
  · rfl

theorem exists_literal_cons : ∀ template ∈ templates, template ≠ .callbackStk →
    (literal template.pieces).head?.any (· ≠ 32) = true := by
  decide

-- Only the one format starts with blanks.
theorem stripIndent_text {entry : Entry} (h : entry.template ≠ .callbackStk) :
    stripIndent entry.text = (0, entry.text) := by
  have hhead := exists_literal_cons entry.template (mem_templates _) h
  obtain ⟨rest, hrest⟩ := (literal_isPrefix_sprintf entry.template.pieces
    (entry.values.map UInt16.toNat)).trans (List.prefix_append _ entry.name)
  cases hliteral : literal entry.template.pieces with
  | nil =>
      rw [hliteral] at hhead
      cases hhead
  | cons c more =>
      rw [hliteral] at hhead hrest
      have hc : c ≠ 32 := by simpa using hhead
      rw [Entry.text, ← hrest]
      exact stripIndent_of_ne hc _

theorem pieces_callbackStk : Template.callbackStk.pieces =
    .lit 32 :: .lit 32 :: .lit 32 :: Template.callbackStkReturn.pieces := by
  decide

-- At the same number of blanks the two formats print the same.
theorem text_callbackStk (indent : Nat) (arg0 arg1 arg2 arg3 : UInt16) :
    (List.replicate indent BLANKS).flatten ++ (Entry.callbackStk arg0 arg1 arg2 arg3).text =
      (List.replicate (indent + 1) BLANKS).flatten ++
        (Entry.callbackStkReturn arg0 arg1 arg2 arg3).text := by
  have htext : (Entry.callbackStk arg0 arg1 arg2 arg3).text =
      BLANKS ++ (Entry.callbackStkReturn arg0 arg1 arg2 arg3).text := by
    simp only [Entry.text, Entry.template, pieces_callbackStk, sprintf, Entry.values, Entry.name,
      List.append_nil]
    rfl
  rw [htext, ← List.append_assoc, List.replicate_succ', List.flatten_append, List.flatten_singleton]

theorem readLine_of_ne (indent : Nat) {entry : Entry} (hfits : entry.Fits)
    (h : entry.template ≠ .callbackStk) :
    readLine ((List.replicate indent BLANKS).flatten ++ entry.text) =
      some (Line.shown ⟨indent, entry⟩) := by
  rw [readLine, stripIndent_replicate (stripIndent_text h), readEntry_text hfits]
  rfl

theorem readLine_text (indent : Nat) {entry : Entry} (h : entry.Fits) :
    readLine ((List.replicate indent BLANKS).flatten ++ entry.text) =
      some (Line.shown ⟨indent, entry⟩) := by
  by_cases hstk : entry.template = .callbackStk
  · cases entry with
    | callbackStk arg0 arg1 arg2 arg3 =>
        have hfits : (Entry.callbackStkReturn arg0 arg1 arg2 arg3).Fits := trivial
        have hne : (Entry.callbackStkReturn arg0 arg1 arg2 arg3).template ≠ .callbackStk :=
          fun h => Template.noConfusion h
        have hown : (Entry.callbackStk arg0 arg1 arg2 arg3).template ≠ .callbackStkReturn :=
          fun h => Template.noConfusion h
        rw [text_callbackStk, readLine_of_ne (indent + 1) hfits hne, shown_of_ne indent hown]
        rfl
    | _ => cases hstk
  · exact readLine_of_ne indent h hstk

-- A line feed in a file name would end its line early.
def Entry.OnOneLine (entry : Entry) : Prop := NEWLINE ∉ entry.name

theorem newline_not_mem_pieces : ∀ template ∈ templates, .lit 10 ∉ template.pieces := by decide

theorem newline_not_mem_text {entry : Entry} (h : entry.OnOneLine) : NEWLINE ∉ entry.text := by
  have hformat := newline_not_mem_pieces entry.template (mem_templates _)
  intro hmem
  rcases List.mem_append.mp hmem with hprinted | hname
  · exact newline_not_mem_sprintf hformat hprinted
  · exact h hname

theorem newline_not_mem_blanks (indent : Nat) : NEWLINE ∉ (List.replicate indent BLANKS).flatten := by
  intro hmem
  obtain ⟨blanks, hblanks, hin⟩ := List.mem_flatten.mp hmem
  rw [(List.mem_replicate.mp hblanks).2] at hin
  exact absurd hin (by decide)

-- What `analyze` prints says which lines they were, up to the two forms of `callback_stk`.
theorem readText_output_lines {printed : List Line}
    (h : ∀ line ∈ printed, line.entry.Fits ∧ line.entry.OnOneLine) :
    readText (output printed) = some (printed.map Line.shown) := by
  induction printed with
  | nil => rfl
  | cons line printed ih =>
      obtain ⟨hfits, hname⟩ := h line List.mem_cons_self
      have hrest := ih fun other hmem => h other (List.mem_cons_of_mem _ hmem)
      have hline : NEWLINE ∉ (List.replicate line.indent BLANKS).flatten ++ line.entry.text := by
        intro hmem
        rcases List.mem_append.mp hmem with hblank | htext
        · exact newline_not_mem_blanks _ hblank
        · exact newline_not_mem_text hname htext
      have hlines : lines NEWLINE (output (line :: printed)) =
          ((List.replicate line.indent BLANKS).flatten ++ line.entry.text ++ [NEWLINE]) ::
            lines NEWLINE (output printed) := by
        rw [output, List.flatMap_cons, Line.text, ← List.append_assoc, List.append_assoc _ [NEWLINE],
          List.singleton_append]
        exact lines_append_newline NEWLINE hline _
      rw [readText] at hrest ⊢
      rw [hlines, List.mapM_cons, List.dropLast_concat, readLine_text line.indent hfits, hrest]
      rfl

section

variable {w : Nat}

theorem uint16_shift_lt (value : UInt16) : value >>> 8 < 256 := by
  have h := value.toNat_lt
  apply UInt16.lt_iff_toNat_lt.mpr
  simp only [UInt16.toNat_shiftRight, UInt16.reduceToNat, Nat.reduceMod, Nat.shiftRight_eq_div_pow]
  omega

theorem uint16_mask_lt (value : UInt16) : value &&& 0xFF < 256 := by
  apply UInt16.lt_iff_toNat_lt.mpr
  simp only [UInt16.toNat_and, UInt16.reduceToNat]
  exact Nat.lt_succ_of_le Nat.and_le_right

def PrintedFits (s : State w) : Prop := ∀ line ∈ s.printed, line.entry.Fits

theorem printfi_fits {entry : Entry} {s : State w} (h : PrintedFits s) (hentry : entry.Fits) :
    PrintedFits (printfi entry s) := by
  intro line hmem
  rcases List.mem_append.mp hmem with hline | hline
  · exact h line hline
  · rw [List.mem_singleton.mp hline]
    exact hentry

theorem printFilename_fits {s : State w} (raw : List UInt8) (h : PrintedFits s) :
    PrintedFits (printFilename raw s) := by
  unfold printFilename
  split
  · exact h
  · exact printfi_fits h trivial

theorem decIndent_fits {s : State w} (h : PrintedFits s) : PrintedFits (decIndent s) := by
  rw [PrintedFits, decIndent_printed]
  exact h

theorem switchRecord_fits {s : State w} (raw : List UInt8) (h : PrintedFits s) :
    PrintedFits (switchRecord raw s) := by
  unfold switchRecord
  dsimp only
  split
  · exact printfi_fits h ⟨uint16_shift_lt _, uint16_mask_lt _⟩
  · exact printFilename_fits raw h
  · exact printfi_fits (decIndent_fits h) trivial
  · exact printfi_fits h trivial
  · exact printfi_fits (decIndent_fits h) trivial
  · exact printfi_fits h trivial
  · exact printfi_fits h trivial
  · exact printfi_fits (decIndent_fits h) trivial
  · exact printfi_fits h trivial
  · exact printfi_fits h trivial

theorem decodeLoop_fits {s : State w} (h : PrintedFits s) : PrintedFits (decodeLoop s) := by
  induction s using decodeLoop.induct with
  | case1 s hstep =>
      rw [decodeLoop_of_none hstep]
      exact h
  | case2 s next hstep _ ih =>
      rw [decodeLoop_of_some hstep]
      apply ih
      unfold decodeStep at hstep
      split at hstep
      · cases hstep
      · rename_i raw fp _
        rw [← Option.some.inj hstep]
        exact switchRecord_fits raw h

end

theorem analyze_fits (w : Nat) (log : List UInt8) : ∀ line ∈ analyze w log, line.entry.Fits := by
  have hfits : PrintedFits (decodeLoop (⟨log, 0, []⟩ : State w)) :=
    decodeLoop_fits fun _ hline => absurd hline List.not_mem_nil
  exact hfits

-- The record that a line tells of.
def Entry.record : Entry → Option Record
  | .driverCall bh bl cx ax dx => some (.fmpdrvCallEnter ⟨ax, bh * 256 + bl, cx, dx⟩)
  | .filename name => some (.filename (array 128 name))
  | .driverReturn dx ax bx cx => some (.fmpdrvCallExit ⟨ax, bx, cx, dx⟩)
  | .rmdevsysCall ax bx cx dx => some (.rmdevsysCallEnter ⟨ax, bx, cx, dx⟩)
  | .rmdevsysReturn ax bx cx dx => some (.rmdevsysCallExit ⟨ax, bx, cx, dx⟩)
  | .callbackReg ax bx cx dx => some (.callbackRegs ⟨ax, bx, cx, dx⟩)
  | .callbackStk arg0 arg1 arg2 arg3 => some (.callbackStack ⟨arg0, arg1, arg2, arg3⟩)
  | _ => none

def readRecords (text : List UInt8) : Option (List Record) :=
  (readText text).bind fun printed => printed.mapM fun line => line.entry.record

-- A file name loses what stands after its NUL.
def terminated : Record → Record
  | .filename bytes => .filename (array 128 (bytes.toList.takeWhile (· ≠ 0)))
  | record => record

theorem bytes_of_uint16 (value : UInt16) : (value >>> 8) * 256 + (value &&& 0xFF) = value := by
  have h := value.toNat_lt
  have hmask : value.toNat &&& 255 = value.toNat % 256 := Nat.and_two_pow_sub_one_eq_mod value.toNat 8
  apply UInt16.toNat_inj.mp
  simp only [UInt16.toNat_add, UInt16.toNat_mul, UInt16.toNat_shiftRight, UInt16.toNat_and,
    UInt16.reduceToNat, Nat.reduceMod, Nat.shiftRight_eq_div_pow, hmask]
  omega

theorem record_entryOf (record : Record) : (entryOf record).record = some (terminated record) := by
  cases record with
  | fmpdrvCallEnter regs =>
      rw [entryOf, Entry.record, bytes_of_uint16]
      rfl
  | filename | fmpdrvCallExit | rmdevsysCallEnter | rmdevsysCallExit | callbackRegs
  | callbackStack => rfl

theorem template_entryOf (record : Record) : (entryOf record).template ≠ .callbackStkReturn := by
  cases record <;> exact fun h => Template.noConfusion h

theorem mapM_record {records : List Record} {printed : List Line}
    (h : printed.map Line.entry = records.map entryOf) :
    printed.mapM (fun line => line.entry.record) = some (records.map terminated) := by
  induction records generalizing printed with
  | nil =>
      obtain rfl := List.map_eq_nil_iff.mp h
      rfl
  | cons record records ih =>
      obtain ⟨line, rest, rfl, hline, hrest⟩ := List.map_eq_cons_iff.mp h
      rw [List.mapM_cons, hline, record_entryOf, ih hrest]
      rfl

theorem analyze_entries (w : Nat) (events : List Event) :
    (analyze w (recordAll events).log).map Line.entry = (events.flatMap Event.records).map entryOf := by
  have hloop := decodeLoop_append (events.flatMap Event.records) [] (⟨[], 0, []⟩ : State w)
  rw [List.append_nil, ← recordAll_log] at hloop
  rw [analyze, hloop, decodeLoop_of_none (decodeStep_of_short (by simp))]
  exact printAll_printed _ _

theorem exists_record {w : Nat} {events : List Event} {line : Line}
    (hmem : line ∈ analyze w (recordAll events).log) :
    ∃ record ∈ events.flatMap Event.records, entryOf record = line.entry := by
  have hentry : line.entry ∈ (analyze w (recordAll events).log).map Line.entry :=
    List.mem_map.mpr ⟨line, hmem, rfl⟩
  rw [analyze_entries] at hentry
  exact List.mem_map.mp hentry

theorem onOneLine_of_records {w : Nat} {events : List Event}
    (h : ∀ record ∈ events.flatMap Event.records, (entryOf record).OnOneLine) :
    ∀ line ∈ analyze w (recordAll events).log, line.entry.OnOneLine := by
  intro line hmem
  obtain ⟨record, hrecord, heq⟩ := exists_record hmem
  rw [← heq]
  exact h record hrecord

-- Recorded, printed and read back: what has been recorded comes out, less what stood after the
-- NUL of a file name.
theorem readRecords_analyze (w : Nat) {events : List Event}
    (h : ∀ record ∈ events.flatMap Event.records, (entryOf record).OnOneLine) :
    readRecords (output (analyze w (recordAll events).log)) =
      some ((events.flatMap Event.records).map terminated) := by
  have hprinted : ∀ line ∈ analyze w (recordAll events).log,
      line.entry.Fits ∧ line.entry.OnOneLine := by
    intro line hmem
    exact ⟨analyze_fits w _ line hmem, onOneLine_of_records h line hmem⟩
  have hshown : (analyze w (recordAll events).log).map Line.shown =
      (analyze w (recordAll events).log).map id := by
    apply List.map_congr_left
    intro line hmem
    obtain ⟨record, _, heq⟩ := exists_record hmem
    have hne := template_entryOf record
    rw [heq] at hne
    exact shown_of_ne line.indent hne
  rw [readRecords, readText_output_lines hprinted, hshown, List.map_id]
  exact mapM_record (analyze_entries w events)

section Examples

-- A call that opens the file `A`, and a callback that it makes.
def openingA : List Event :=
  [.fmpdrvCallEnter ⟨0x0010, 0x0100, 0, 0x1000⟩ ((Vector.replicate 128 0).set 0 65),
    .callbackEnter ⟨5, 6, 7, 8⟩ ⟨9, 10, 11, 12⟩, .fmpdrvCallExit ⟨1, 2, 3, 4⟩]

theorem openingA_onOneLine :
    ∀ record ∈ openingA.flatMap Event.records, (entryOf record).OnOneLine := by
  intro record hmem
  have hrecords : openingA.flatMap Event.records =
      [.fmpdrvCallEnter ⟨0x0010, 0x0100, 0, 0x1000⟩,
        .filename ((Vector.replicate 128 0).set 0 65), .callbackRegs ⟨5, 6, 7, 8⟩,
        .callbackStack ⟨9, 10, 11, 12⟩, .fmpdrvCallExit ⟨1, 2, 3, 4⟩] := rfl
  rw [hrecords] at hmem
  simp only [List.mem_cons, List.not_mem_nil, or_false] at hmem
  rcases hmem with rfl | rfl | rfl | rfl | rfl
  · exact List.not_mem_nil
  · have hname : (entryOf (.filename ((Vector.replicate 128 0).set 0 65))).name = [65] := by rfl
    rw [Entry.OnOneLine, hname]
    decide
  · exact List.not_mem_nil
  · exact List.not_mem_nil
  · exact List.not_mem_nil

theorem readRecords_analyze_openingA :
    readRecords (output (analyze 16 (recordAll openingA).log)) =
      some ((openingA.flatMap Event.records).map terminated) :=
  readRecords_analyze 16 openingA_onOneLine

end Examples

end ReelMagic.Analyze
