import ReelMagic.Analyze.Indentation

namespace ReelMagic.Analyze

open Library Library.Bytes Library.Stdio ReelMagic.Recorder

variable {w : Nat}

-- How often `while (count--)` goes round.
def countDown (count : BitVec w) : Nat :=
  if count = 0 then 0 else countDown (count - 1) + 1
termination_by count.toNat
decreasing_by
  have hsub := toNat_sub_one ‹¬count = 0›
  omega

-- The rounds of the decode loop from one state to another.
def Rounds (start : State w) : List Unit → State w → Prop :=
  Run start fun s _ next => decodeStep s = some next

-- Every line stands behind the blanks of a call of `printf_indent` whose argument is not
-- negative and counted down to zero, and the loop ends after one round per ten bytes at most.
structure EndsProperly (w : Nat) (log : List UInt8) : Prop where
  indents : ∀ line ∈ analyze w log, ∃ count : BitVec w,
    line.indent = countDown count ∧ 0 ≤ count.toInt ∧ (countDown count : Int) = count.toInt
  ends : ∃ rounds s, Rounds (⟨log, 0, []⟩ : State w) rounds s ∧ decodeStep s = none ∧
    s.printed = analyze w log ∧ 10 * rounds.length ≤ log.length

-- What a record does to the number of calls that are open.
def tagBracket (tag : UInt16) : Bracket :=
  match tag.toNat with
  | 0x0000 => .opening
  | 0x2F00 => .opening
  | 0xFFFF => .closing
  | 0x2FFF => .closing
  | 0x0BFF => .closing
  | _ => .other

-- The number of calls around each record that is printed, counted without a bound. An exit
-- without its call counts for nothing, and a name that is cut short is not printed.
def levels (level : Nat) (log : List UInt8) : List Nat :=
  match h : fread (5 * 2) log with
  | (none, _) => []
  | (some raw, rest) =>
      have := fread_some_length h
      match tagBracket (bufWord raw 0) with
      | .opening => level :: levels (level + 1) rest
      | .closing => (level - 1) :: levels (level - 1) rest
      | .other =>
          if bufWord raw 0 = 1 then
            match hname : fread ((65 - 5) * 2) rest with
            | (none, _) => []
            | (some _, more) =>
                have := fread_some_length hname
                level :: levels level more
          else level :: levels level rest
termination_by log.length

theorem countDown_eq_printfIndent (count : BitVec w) : countDown count = printfIndent count := by
  induction count using countDown.induct with
  | case1 => simp [countDown, printfIndent]
  | case2 count h ih =>
      rw [countDown, if_neg h, ih]
      exact toNat_sub_one h

-- What is done for a record, by its tag.
theorem switchRecord_cases (raw : List UInt8) (s : State w) :
    (tagBracket (bufWord raw 0) = .opening ∧
      ∃ entry, switchRecord raw s = incIndent (printfi entry s)) ∨
    (tagBracket (bufWord raw 0) = .closing ∧
      ∃ entry, switchRecord raw s = printfi entry (decIndent s)) ∨
    (bufWord raw 0 = 1 ∧ switchRecord raw s = printFilename raw s) ∨
    (tagBracket (bufWord raw 0) = .other ∧ bufWord raw 0 ≠ 1 ∧
      ∃ entry, switchRecord raw s = printfi entry s) := by
  unfold switchRecord
  dsimp only
  split
  case h_1 htag | h_4 htag => exact Or.inl ⟨by simp only [tagBracket, htag], _, rfl⟩
  case h_3 htag | h_5 htag | h_8 htag => exact Or.inr (Or.inl ⟨by simp only [tagBracket, htag], _, rfl⟩)
  case h_2 htag => exact Or.inr (Or.inr (Or.inl ⟨UInt16.toNat_inj.mp htag, rfl⟩))
  case h_10 _ hone _ _ _ _ _ _ _ =>
      refine Or.inr (Or.inr (Or.inr ⟨?_, fun heq => hone (congrArg UInt16.toNat heq), _, rfl⟩))
      unfold tagBracket
      split <;> simp_all
  all_goals
    rename_i htag
    have hone : bufWord raw 0 ≠ 1 := by
      intro hone
      rw [hone] at htag
      exact absurd htag (by decide)
    exact Or.inr (Or.inr (Or.inr ⟨by simp only [tagBracket, htag], hone, _, rfl⟩))

-- A round of the loop, by what it has read: it prints one line, around which the counter may
-- change, or nothing when the name of a file is cut short.
inductive Round (s : State w) : State w → Prop
  | opening {raw rest : List UInt8} (entry : Entry) :
      fread (5 * 2) s.fp = (some raw, rest) → tagBracket (bufWord raw 0) = .opening →
      Round s (incIndent (printfi entry { s with fp := rest }))
  | closing {raw rest : List UInt8} (entry : Entry) :
      fread (5 * 2) s.fp = (some raw, rest) → tagBracket (bufWord raw 0) = .closing →
      Round s (printfi entry (decIndent { s with fp := rest }))
  | filename {raw rest name more : List UInt8} (entry : Entry) :
      fread (5 * 2) s.fp = (some raw, rest) → bufWord raw 0 = 1 →
      fread ((65 - 5) * 2) rest = (some name, more) → Round s (printfi entry { s with fp := more })
  | filenameCut {raw rest more : List UInt8} :
      fread (5 * 2) s.fp = (some raw, rest) → bufWord raw 0 = 1 →
      fread ((65 - 5) * 2) rest = (none, more) → Round s { s with fp := more }
  | other {raw rest : List UInt8} (entry : Entry) :
      fread (5 * 2) s.fp = (some raw, rest) → tagBracket (bufWord raw 0) = .other →
      bufWord raw 0 ≠ 1 → Round s (printfi entry { s with fp := rest })

theorem Round.of_decodeStep {s next : State w} (h : decodeStep s = some next) : Round s next := by
  unfold decodeStep at h
  split at h
  · cases h
  · rename_i raw rest hread
    obtain rfl := Option.some.inj h
    rcases switchRecord_cases raw { s with fp := rest } with ⟨hbracket, entry, hentry⟩ |
      ⟨hbracket, entry, hentry⟩ | ⟨hname, hprint⟩ | ⟨hbracket, hname, entry, hentry⟩
    · rw [hentry]
      exact .opening entry hread hbracket
    · rw [hentry]
      exact .closing entry hread hbracket
    · rw [hprint, printFilename]
      split
      · rename_i more hmore
        exact .filenameCut hread hname hmore
      · rename_i name more hmore
        exact .filename _ hread hname hmore
    · rw [hentry]
      exact .other entry hread hbracket hname

section

variable {level : Nat} {log raw rest : List UInt8}

theorem levels_of_none (h : fread (5 * 2) log = (none, rest)) : levels level log = [] := by
  rw [levels]
  split
  · rfl
  · simp_all

theorem levels_of_read (hread : fread (5 * 2) log = (some raw, rest)) : levels level log =
    match tagBracket (bufWord raw 0) with
    | .opening => level :: levels (level + 1) rest
    | .closing => (level - 1) :: levels (level - 1) rest
    | .other =>
        if bufWord raw 0 = 1 then
          match fread ((65 - 5) * 2) rest with
          | (none, _) => []
          | (some _, more) => level :: levels level more
        else level :: levels level rest := by
  rw [levels]
  split
  · simp_all
  · rename_i hread'
    obtain ⟨hraw, hrest⟩ := Prod.mk.inj (hread.symm.trans hread')
    obtain rfl := Option.some.inj hraw
    obtain rfl := hrest
    split
    · rfl
    · rfl
    · split
      · split <;> simp_all
      · rfl

theorem levels_opening (hread : fread (5 * 2) log = (some raw, rest))
    (h : tagBracket (bufWord raw 0) = .opening) :
    levels level log = level :: levels (level + 1) rest := by
  rw [levels_of_read hread, h]

theorem levels_closing (hread : fread (5 * 2) log = (some raw, rest))
    (h : tagBracket (bufWord raw 0) = .closing) :
    levels level log = (level - 1) :: levels (level - 1) rest := by
  rw [levels_of_read hread, h]

theorem levels_other (hread : fread (5 * 2) log = (some raw, rest))
    (h : tagBracket (bufWord raw 0) = .other) (hname : bufWord raw 0 ≠ 1) :
    levels level log = level :: levels level rest := by
  rw [levels_of_read hread, h]
  exact if_neg hname

theorem levels_filename {name more : List UInt8} (hread : fread (5 * 2) log = (some raw, rest))
    (hname : bufWord raw 0 = 1) (hmore : fread ((65 - 5) * 2) rest = (some name, more)) :
    levels level log = level :: levels level more := by
  have htag : tagBracket 1 = .other := rfl
  rw [levels_of_read hread, hname, htag, hmore]
  rfl

theorem levels_filenameCut {more : List UInt8} (hread : fread (5 * 2) log = (some raw, rest))
    (hname : bufWord raw 0 = 1) (hmore : fread ((65 - 5) * 2) rest = (none, more)) :
    levels level log = levels level more := by
  have htag : tagBracket 1 = .other := rfl
  have hnil : levels level more = [] := by
    rw [fread_none_rest (by decide) hmore]
    exact levels_of_none (fread_short (5 * 2) [] (by decide))
  rw [levels_of_read hread, hname, htag, hmore, hnil]
  rfl

end

-- The lines of a round stand at the levels of its record, and as long as these are below what
-- an `int` holds the counter goes on with them.
theorem Round.lines {s next : State w} (hw : 0 < w) (hs : s.indent.toNat ≤ 2 ^ (w - 1))
    (h : Round s next) : ∃ lines after, next.printed = s.printed ++ lines ∧
      levels s.indent.toNat s.fp = lines.map Line.indent ++ levels after next.fp ∧
      ((∀ line ∈ lines, line.indent < 2 ^ (w - 1)) →
        next.indent.toNat = after ∧ after ≤ 2 ^ (w - 1)) := by
  have hpow : 2 ^ (w - 1) < 2 ^ w := Nat.pow_lt_pow_right (by decide) (by omega)
  cases h with
  | opening entry hread hbracket =>
      refine ⟨[⟨s.indent.toNat, entry⟩], s.indent.toNat + 1, rfl, levels_opening hread hbracket, ?_⟩
      intro hlines
      have hlt : s.indent.toNat < 2 ^ (w - 1) := hlines _ (List.mem_singleton_self _)
      exact ⟨incIndent_toNat rfl (by omega), by omega⟩
  | @closing raw rest entry hread hbracket =>
      have hdec : (decIndent { s with fp := rest }).indent.toNat = s.indent.toNat - 1 :=
        decIndent_toNat_sub _
      refine ⟨[⟨s.indent.toNat - 1, entry⟩], s.indent.toNat - 1, ?_, ?_, ?_⟩
      · rw [printfi, printfIndent, hdec, decIndent_printed]
      · rw [levels_closing hread hbracket, printfi, decIndent_fp]
        rfl
      · intro _
        exact ⟨hdec, by omega⟩
  | filename entry hread hname hmore =>
      refine ⟨[⟨s.indent.toNat, entry⟩], s.indent.toNat, rfl, levels_filename hread hname hmore, ?_⟩
      intro _
      exact ⟨rfl, hs⟩
  | filenameCut hread hname hmore =>
      refine ⟨[], s.indent.toNat, (List.append_nil _).symm, levels_filenameCut hread hname hmore, ?_⟩
      intro _
      exact ⟨rfl, hs⟩
  | other entry hread hbracket hname =>
      refine ⟨[⟨s.indent.toNat, entry⟩], s.indent.toNat, rfl, levels_other hread hbracket hname, ?_⟩
      intro _
      exact ⟨rfl, hs⟩

theorem Round.keeps_printed {s next : State w} (h : Round s next) : s.printed <+: next.printed := by
  cases h with
  | opening entry _ _ => exact List.prefix_append _ _
  | closing entry _ _ =>
      rw [printfi, decIndent_printed]
      exact List.prefix_append _ _
  | filename entry _ _ _ => exact List.prefix_append _ _
  | filenameCut _ _ _ => exact List.prefix_rfl
  | other entry _ _ _ => exact List.prefix_append _ _

-- What has been printed stays.
theorem decodeLoop_keeps_printed (s : State w) : s.printed <+: (decodeLoop s).printed := by
  induction s using decodeLoop.induct with
  | case1 s h => simp only [decodeLoop_of_none h, List.prefix_rfl]
  | case2 s next h _ ih =>
      rw [decodeLoop_of_some h]
      exact (Round.of_decodeStep h).keeps_printed.trans ih

-- The lines of the whole loop, from a counter that has not run over.
theorem decodeLoop_indent_lt_iff (hw : 0 < w) {s : State w} (hs : s.indent.toNat ≤ 2 ^ (w - 1)) :
    (∀ line ∈ (decodeLoop s).printed, line.indent < 2 ^ (w - 1)) ↔
      (∀ line ∈ s.printed, line.indent < 2 ^ (w - 1)) ∧
        ∀ level ∈ levels s.indent.toNat s.fp, level < 2 ^ (w - 1) := by
  induction s using decodeLoop.induct with
  | case1 s h =>
      have hnil : levels s.indent.toNat s.fp = [] := by
        unfold decodeStep at h
        split at h
        · rename_i hread
          exact levels_of_none hread
        · cases h
      rw [decodeLoop_of_none h, hnil]
      simp
  | case2 s next h _ ih =>
      obtain ⟨lines, after, hprinted, hlevels, hafter⟩ := (Round.of_decodeStep h).lines hw hs
      rw [decodeLoop_of_some h, hlevels]
      by_cases hlines : ∀ line ∈ lines, line.indent < 2 ^ (w - 1)
      · obtain ⟨rfl, hle⟩ := hafter hlines
        rw [ih hle, hprinted]
        simp only [List.mem_append, List.mem_map]
        constructor
        · rintro ⟨hall, hrest⟩
          refine ⟨fun line hline => hall line (.inl hline), ?_⟩
          rintro level (⟨line, hline, rfl⟩ | hlevel)
          · exact hlines line hline
          · exact hrest level hlevel
        · rintro ⟨hall, hrest⟩
          refine ⟨?_, fun level hlevel => hrest level (.inr hlevel)⟩
          rintro line (hline | hline)
          · exact hall line hline
          · exact hlines line hline
      · have hmem : ∀ line ∈ lines, line ∈ (decodeLoop next).printed := by
          intro line hline
          refine (decodeLoop_keeps_printed next).subset ?_
          rw [hprinted]
          exact List.mem_append_right _ hline
        constructor
        · intro hall
          exact absurd (fun line hline => hall line (hmem line hline)) hlines
        · rintro ⟨_, hall⟩
          refine absurd (fun line hline => hall (Line.indent line) ?_) hlines
          exact List.mem_append_left _ (List.mem_map_of_mem hline)

-- The loop ends where a read fails, with a round for each ten bytes at most.
theorem decodeLoop_rounds (s : State w) : ∃ rounds, Rounds s rounds (decodeLoop s) ∧
    decodeStep (decodeLoop s) = none ∧ 10 * rounds.length ≤ s.fp.length := by
  induction s using decodeLoop.induct with
  | case1 s h =>
      rw [decodeLoop_of_none h]
      exact ⟨[], .nil, h, Nat.zero_le _⟩
  | case2 s next h _ ih =>
      obtain ⟨rounds, run, hnone, hlength⟩ := ih
      have hle := decodeStep_fp_le h
      rw [decodeLoop_of_some h]
      refine ⟨() :: rounds, .cons h run, hnone, ?_⟩
      rw [List.length_cons]
      omega

theorem toInt_nonneg_iff_lt (hw : 0 < w) (count : BitVec w) :
    0 ≤ count.toInt ↔ count.toNat < 2 ^ (w - 1) := by
  have hpow := Nat.two_pow_pred_mul_two hw
  rw [BitVec.toInt_pos_iff]
  omega

-- Which indentations a call with an argument that is not negative makes.
theorem exists_countDown_iff (hw : 0 < w) (indent : Nat) :
    (∃ count : BitVec w, indent = countDown count ∧ 0 ≤ count.toInt ∧
      (countDown count : Int) = count.toInt) ↔ indent < 2 ^ (w - 1) := by
  have hpow := Nat.two_pow_pred_mul_two hw
  constructor
  · rintro ⟨count, rfl, hnonneg, _⟩
    rw [countDown_eq_printfIndent]
    exact (toInt_nonneg_iff_lt hw count).mp hnonneg
  · intro hlt
    have hcount : (BitVec.ofNat w indent).toNat = indent := by
      rw [BitVec.toNat_ofNat]
      exact Nat.mod_eq_of_lt (by omega)
    refine ⟨BitVec.ofNat w indent, ?_, ?_, ?_⟩
    · rw [countDown_eq_printfIndent, printfIndent, hcount]
    · rw [toInt_nonneg_iff_lt hw, hcount]
      exact hlt
    · rw [countDown_eq_printfIndent, printfIndent, BitVec.toInt_eq_toNat_of_lt (by omega)]

theorem analyze_indent_lt_iff (hw : 0 < w) (log : List UInt8) :
    (∀ line ∈ analyze w log, line.indent < 2 ^ (w - 1)) ↔
      ∀ level ∈ levels 0 log, level < 2 ^ (w - 1) := by
  have hstart : (0 : BitVec w).toNat = 0 := by simp
  have hloop := decodeLoop_indent_lt_iff hw (s := ⟨log, 0, []⟩) (by simp)
  dsimp only at hloop
  rw [hstart] at hloop
  rw [analyze, hloop]
  simp

-- Nothing stops the counter on its way up: `analyze` ends properly on a log exactly when no
-- record of it stands inside of more calls than an `int` counts.
theorem endsProperly_iff (hw : 0 < w) (log : List UInt8) :
    EndsProperly w log ↔ ∀ level ∈ levels 0 log, level < 2 ^ (w - 1) := by
  rw [← analyze_indent_lt_iff hw]
  constructor
  · intro h line hline
    exact (exists_countDown_iff hw line.indent).mp (h.indents line hline)
  · intro hall
    obtain ⟨rounds, run, hnone, hlength⟩ := decodeLoop_rounds (⟨log, 0, []⟩ : State w)
    exact {
      indents := fun line hline => (exists_countDown_iff hw line.indent).mpr (hall line hline)
      ends := ⟨rounds, _, run, hnone, rfl, hlength⟩ }

-- A log that ends with a name cut short, inside of a call.
theorem endsProperly_filename_cut : EndsProperly 16
    (callBytes 0x0000 ⟨1, 2, 3, 4⟩ ++ (callBytes 0x0001 ⟨1, 2, 3, 4⟩ ++ [0])) := by
  have hcall : fread (5 * 2) (callBytes 0x0000 ⟨1, 2, 3, 4⟩ ++ (callBytes 0x0001 ⟨1, 2, 3, 4⟩ ++ [0])) =
      (some (callBytes 0x0000 ⟨1, 2, 3, 4⟩), callBytes 0x0001 ⟨1, 2, 3, 4⟩ ++ [0]) :=
    fread_ten _ _ (callBytes_length _ _)
  have hname : fread (5 * 2) (callBytes 0x0001 ⟨1, 2, 3, 4⟩ ++ [0]) =
      (some (callBytes 0x0001 ⟨1, 2, 3, 4⟩), [0]) := fread_ten _ _ (callBytes_length _ _)
  have hcut : fread ((65 - 5) * 2) ([0] : List UInt8) = (none, []) := fread_short _ _ (by decide)
  have hend : fread (5 * 2) ([] : List UInt8) = (none, []) := fread_short _ _ (by decide)
  refine (endsProperly_iff (by decide) _).mpr ?_
  rw [levels_opening hcall rfl, levels_filenameCut hname rfl hcut, levels_of_none hend]
  decide

-- Calls that nothing returns from.
theorem levels_replicate (regs : Regs) (level n : Nat) :
    levels level (List.replicate n (callBytes 0x0000 regs)).flatten = List.range' level n := by
  induction n generalizing level with
  | zero => exact levels_of_none (fread_short (5 * 2) [] (by decide))
  | succ n ih =>
      rw [List.replicate_succ, List.flatten_cons, List.range'_succ, ← ih]
      refine levels_opening (fread_ten _ _ (callBytes_length _ _)) ?_
      rw [bufWord_tag]
      rfl

-- One enter record more than the `int` of the DOS build counts: the last stands at -32768.
theorem not_endsProperly_replicate : ¬EndsProperly 16
    (List.replicate 32769 (callBytes 0x0000 ⟨0, 0, 0, 0⟩)).flatten := by
  intro h
  have hall := (analyze_indent_lt_iff (w := 16) (by decide) _).mp fun line hline =>
    (exists_countDown_iff (by decide) line.indent).mp (h.indents line hline)
  rw [levels_replicate] at hall
  have hlast := hall 32768 (List.mem_range'_1.mpr (by omega))
  omega

end ReelMagic.Analyze
