import ReelMagic.Rmprobe.Command

namespace ReelMagic.Rmprobe

open Library.CString Library.Scanf

-- The numeral for a number, with any leading zeros and in any letter case.
def IsHex (digits : List UInt8) (value : UInt16) : Prop :=
  IsNumeral 16 digits ∧ numeralValue 16 digits = value.toNat

-- The same word in any letter case.
def SameLetters (word keyword : List UInt8) : Prop := word.map tolower = keyword.map tolower

-- White space to the end of the line.
def IsLineEnd (tail : List UInt8) : Prop := ∀ c ∈ tail, isspace c

-- The numerals of a command, each with a blank in front.
def spellNumbers (numerals : List (List UInt8)) : List UInt8 := numerals.flatMap (BLANK :: ·)

inductive PtrForm where
  | quoted (name : List UInt8)
  | cbfunc
  | strbuf
  | null

inductive CallForm where
  | callrm (command handle : UInt8) (subfunc param1 param2 : UInt16)
  | callrmHand (command : UInt8) (slot : Fin 5) (subfunc param1 param2 : UInt16)
  | callrmPtr (command handle : UInt8) (subfunc : UInt16) (ptr : PtrForm)
  | callrms (function : UInt8) (subfunction param1 param2 : UInt16)
  | callvbios (function param1 : UInt8) (param2 param3 param4 : UInt16)

inductive SpellsPtr : PtrForm → List UInt8 → Prop
  | quoted {name tail : List UInt8} : QUOTE ∉ name → 0 ∉ name → NEWLINE ∉ name → RETURN ∉ name →
      SpellsPtr (.quoted name) (QUOTE :: name ++ QUOTE :: tail)
  | cbfunc {tail : List UInt8} : IsLineEnd tail → SpellsPtr .cbfunc (ascii "CBFUNC" ++ tail)
  | strbuf {tail : List UInt8} : IsLineEnd tail → SpellsPtr .strbuf (ascii "STRBUF" ++ tail)
  | null {tail : List UInt8} : IsLineEnd tail → SpellsPtr .null (ascii "NULL" ++ tail)

-- How a call is written, from the keyword on.
inductive Spells : CallForm → List UInt8 → Prop
  | callrm {command handle : UInt8} {subfunc param1 param2 : UInt16}
      {word c h s p q tail : List UInt8} :
      SameLetters word (ascii "CALLRM") → IsHex c command.toUInt16 → IsHex h handle.toUInt16 →
        IsHex s subfunc → IsHex p param1 → IsHex q param2 → IsLineEnd tail →
          Spells (.callrm command handle subfunc param1 param2)
            (word ++ spellNumbers [c, h, s, p, q] ++ tail)
  | callrmHand {command : UInt8} {slot : Fin 5} {subfunc param1 param2 : UInt16}
      {word c n s p q tail : List UInt8} :
      SameLetters word (ascii "CALLRM") → IsHex c command.toUInt16 →
        IsHex n (UInt16.ofNat slot.val) → IsHex s subfunc → IsHex p param1 → IsHex q param2 →
          IsLineEnd tail →
            Spells (.callrmHand command slot subfunc param1 param2)
              (word ++ spellNumbers [c] ++ ascii " HAND" ++ n ++ spellNumbers [s, p, q] ++ tail)
  | callrmPtr {command handle : UInt8} {subfunc : UInt16} {ptr : PtrForm}
      {word c h s text : List UInt8} :
      SameLetters word (ascii "CALLRM") → IsHex c command.toUInt16 → IsHex h handle.toUInt16 →
        IsHex s subfunc → SpellsPtr ptr text →
          Spells (.callrmPtr command handle subfunc ptr)
            (word ++ spellNumbers [c, h, s] ++ BLANK :: text)
  | callrms {function : UInt8} {subfunction param1 param2 : UInt16} {word f s p q tail : List UInt8} :
      SameLetters word (ascii "CALLRMS") → IsHex f function.toUInt16 → IsHex s subfunction →
        IsHex p param1 → IsHex q param2 → IsLineEnd tail →
          Spells (.callrms function subfunction param1 param2)
            (word ++ spellNumbers [f, s, p, q] ++ tail)
  | callvbios {function param1 : UInt8} {param2 param3 param4 : UInt16}
      {word f m s p q tail : List UInt8} :
      SameLetters word (ascii "CALLVBIOS") → IsHex f function.toUInt16 → IsHex m param1.toUInt16 →
        IsHex s param2 → IsHex p param3 → IsHex q param4 → IsLineEnd tail →
          Spells (.callvbios function param1 param2 param3 param4)
            (word ++ spellNumbers [f, m, s, p, q] ++ tail)

theorem ofInt_numeral {digits : List UInt8} {value : UInt16} (h : IsHex digits value) :
    UInt16.ofInt (numeralValue 16 digits : Int) = value := by
  have hlt : value.toNat < 65536 := value.toNat_lt
  rw [← UInt16.toNat_inj, UInt16.ofInt, h.2]
  show ((value.toNat : Int) % 65536).toNat % 65536 = value.toNat
  omega

section Keyword

variable {word text : List UInt8}

-- A line is compared with each keyword in turn. How it starts decides that, when neither start is
-- a part of the other or the keyword is the shorter one.
theorem strncasecmpEq_of_lower {line start rest keyword : List UInt8} {n : Nat}
    (hline : line.map tolower = start ++ rest) (hn : keyword.length = n)
    (h : keyword.map tolower <+: start ∨ ¬ start <+: keyword.map tolower) :
    strncasecmpEq line keyword n = decide (keyword.map tolower <+: start) := by
  have hlength : (keyword.map tolower).length = n := by rw [List.length_map, hn]
  have htake : keyword.take n = keyword := List.take_of_length_le (by omega)
  rw [strncasecmpEq, List.map_take, hline, htake]
  apply decide_eq_decide.mpr
  constructor
  · intro heq
    have hfront : keyword.map tolower <+: start ++ rest := by
      rw [← heq]
      exact List.take_prefix n _
    rcases List.prefix_or_prefix_of_prefix hfront (List.prefix_append start rest) with hle | hge
    · exact hle
    · exact h.resolve_right (not_not.mpr hge)
  · rintro ⟨more, rfl⟩
    rw [List.append_assoc]
    exact List.take_left' hlength

-- A word that starts with a letter starts neither a comment nor an empty line.
theorem head_ne_of_lower {line start rest : List UInt8} {d : UInt8}
    (hline : line.map tolower = start ++ rest) (hd : start ≠ [] ∧ start.head? ≠ some (tolower d)) :
    line.head? ≠ some d := by
  intro hhead
  have hlower : (line.map tolower).head? = some (tolower d) := by
    rw [List.head?_map, hhead]
    rfl
  rw [hline, List.head?_append_of_ne_nil _ hd.1] at hlower
  exact hd.2 hlower

theorem drop_keyword {keyword : List UInt8} (hword : SameLetters word keyword) :
    (word ++ BLANK :: text).drop (keyword.length + 1) = text := by
  have hlength : word.length = keyword.length := by
    have hmap := congrArg List.length hword
    rw [List.length_map, List.length_map] at hmap
    exact hmap
  rw [List.append_cons]
  exact List.drop_left' (by rw [List.length_append, List.length_singleton, hlength])

theorem lower_line (text : List UInt8) {keyword : List UInt8} (hword : SameLetters word keyword) :
    (word ++ BLANK :: text).map tolower = (keyword.map tolower ++ [BLANK]) ++ text.map tolower := by
  rw [List.map_append, hword, List.append_assoc]
  rfl

variable (blanks : Nat)

theorem parse_callrm (hword : SameLetters word (ascii "CALLRM")) :
    parse (List.replicate blanks BLANK ++ (word ++ BLANK :: text)) =
      parseCallrm (List.replicate blanks BLANK ++ (word ++ BLANK :: text)) text := by
  have hlower := lower_line text hword
  have hdrop : (word ++ BLANK :: text).drop 7 = text := drop_keyword hword
  rw [parse, skipBlanks_line blanks (head_ne_of_lower hlower (by decide))]
  simp +decide only [head_ne_of_lower hlower, strncasecmpEq_of_lower hlower, hdrop, if_true, if_false]

theorem parse_callrms (hword : SameLetters word (ascii "CALLRMS")) :
    parse (List.replicate blanks BLANK ++ (word ++ BLANK :: text)) = parseCallrms text := by
  have hlower := lower_line text hword
  have hdrop : (word ++ BLANK :: text).drop 8 = text := drop_keyword hword
  rw [parse, skipBlanks_line blanks (head_ne_of_lower hlower (by decide))]
  simp +decide only [head_ne_of_lower hlower, strncasecmpEq_of_lower hlower, hdrop, if_true, if_false]

theorem parse_callvbios (hword : SameLetters word (ascii "CALLVBIOS")) :
    parse (List.replicate blanks BLANK ++ (word ++ BLANK :: text)) = parseCallvbios text := by
  have hlower := lower_line text hword
  have hdrop : (word ++ BLANK :: text).drop 10 = text := drop_keyword hword
  rw [parse, skipBlanks_line blanks (head_ne_of_lower hlower (by decide))]
  simp +decide only [head_ne_of_lower hlower, strncasecmpEq_of_lower hlower, hdrop, if_true, if_false]

end Keyword

section Scans

variable {numerals : List (List UInt8)} {values : List UInt16} {rest : List UInt8}

-- The blank that ends a keyword stands for one in front of the first number.
theorem sscanf_hex_of_blank (format : List Directive) (text : List UInt8) :
    sscanf (.hex :: format) text = sscanf (.space :: .hex :: format) (BLANK :: text) := by
  rw [sscanf_space_hex, sscanf_hex_of_isspace _ (by decide)]

theorem sscanf_spelled (h : List.Forall₂ IsHex numerals values) (hrest : EndsNumeral 16 rest)
    (format : List Directive) :
    (sscanf (numerals.flatMap (fun _ => [.space, .hex]) ++ format) (spellNumbers numerals ++ rest)).map
      UInt16.ofInt = values ++ (sscanf format rest).map UInt16.ofInt := by
  have hnumerals : ∀ digits ∈ numerals, IsNumeral 16 digits := by
    induction h with
    | nil => exact fun _ hmem => absurd hmem List.not_mem_nil
    | cons hhex _ ih => exact List.forall_mem_cons.mpr ⟨hhex.1, ih⟩
  have hvalues : numerals.map (fun digits => UInt16.ofInt (numeralValue 16 digits : Int)) = values := by
    clear hnumerals
    induction h with
    | nil => rfl
    | cons hhex _ ih => rw [List.map_cons, ofInt_numeral hhex, ih]
  rw [spellNumbers, sscanf_numerals format numerals hnumerals hrest, List.map_append, List.map_map]
  exact congrArg (· ++ _) hvalues

-- What starts like no number ends the scan.
theorem sscanf_of_word {c : UInt8} (hspace : isspace c = false) (hdigit : isDigit 16 c = false)
    (hsign : c ≠ 43 ∧ c ≠ 45) (format : List Directive) (text : List UInt8) :
    sscanf (.space :: .hex :: format) (BLANK :: c :: text) = [] := by
  have hzero : c ≠ 48 := by
    rintro rfl
    exact absurd hdigit (by decide)
  rw [sscanf_space_hex, sscanf_hex_of_isspace _ (by decide)]
  exact sscanf_hex_of_none _ (scanNumber_eq_none hspace hdigit hzero hsign.1 hsign.2 text)

-- No digit is the letter that HAND starts with.
theorem sscanf_hand_of_digit {d : UInt8} (hd : isDigit 16 d) (format : List Directive)
    (text : List UInt8) : sscanf (.space :: .lit 72 :: format) (BLANK :: d :: text) = [] := by
  have hspace : isspace d = false := by
    rw [← Bool.not_eq_true]
    intro hspace
    rw [isDigit_of_isspace 16 (Nat.le_refl _) hspace] at hd
    cases hd
  have hne : d ≠ 72 := by
    rintro rfl
    exact absurd hd (by decide)
  rw [sscanf_space_of_isspace _ (by decide), sscanf_space_of_not _ hspace, sscanf]
  exact if_neg hne

-- A format that starts with numbers reads the numbers of the command, then goes on with what
-- is left of both.
theorem scan_spelled {format : String} {more : List Directive} {text digits : List UInt8}
    (htext : BLANK :: text = spellNumbers (digits :: numerals) ++ rest)
    (hformat : directives format.toList =
      .hex :: (numerals.flatMap (fun _ => [.space, .hex]) ++ more))
    (h : List.Forall₂ IsHex (digits :: numerals) values) (hrest : EndsNumeral 16 rest) :
    scan format text = values ++ (sscanf more rest).map UInt16.ofInt := by
  rw [scan, hformat, sscanf_hex_of_blank, htext, ← sscanf_spelled h hrest more]
  rfl

variable {linebuf tail : List UInt8}

theorem endsNumeral_of_isLineEnd (h : IsLineEnd tail) : EndsNumeral 16 tail :=
  endsNumeral_of_blank (Nat.le_refl _) h

theorem parseCallrm_numbers {c h s p q : List UInt8} {command handle subfunc param1 param2 : UInt16}
    (hc : IsHex c command) (hh : IsHex h handle) (hs : IsHex s subfunc) (hp : IsHex p param1)
    (hq : IsHex q param2) (htail : IsLineEnd tail) :
    parseCallrm linebuf (c ++ spellNumbers [h, s, p, q] ++ tail) =
      some (.callrm command handle subfunc param1 param2) := by
  have hnumbers : List.Forall₂ IsHex [c, h, s, p, q] [command, handle, subfunc, param1, param2] :=
    .cons hc (.cons hh (.cons hs (.cons hp (.cons hq .nil))))
  have hscan : scan "%X %X %X %X %X" (c ++ spellNumbers [h, s, p, q] ++ tail) =
      [command, handle, subfunc, param1, param2] ++ (sscanf [] tail).map UInt16.ofInt :=
    scan_spelled rfl rfl hnumbers (endsNumeral_of_isLineEnd htail)
  rw [parseCallrm, hscan]
  rfl

theorem parseCallrms_numbers {f s p q : List UInt8} {function subfunction param1 param2 : UInt16}
    (hf : IsHex f function) (hs : IsHex s subfunction) (hp : IsHex p param1) (hq : IsHex q param2)
    (htail : IsLineEnd tail) :
    parseCallrms (f ++ spellNumbers [s, p, q] ++ tail) =
      some (.callrms function subfunction param1 param2) := by
  have hnumbers : List.Forall₂ IsHex [f, s, p, q] [function, subfunction, param1, param2] :=
    .cons hf (.cons hs (.cons hp (.cons hq .nil)))
  have hscan : scan "%X %X %X %X" (f ++ spellNumbers [s, p, q] ++ tail) =
      [function, subfunction, param1, param2] ++ (sscanf [] tail).map UInt16.ofInt :=
    scan_spelled rfl rfl hnumbers (endsNumeral_of_isLineEnd htail)
  rw [parseCallrms, hscan]
  rfl

theorem parseCallvbios_numbers {f m s p q : List UInt8}
    {function param1 param2 param3 param4 : UInt16} (hf : IsHex f function) (hm : IsHex m param1)
    (hs : IsHex s param2) (hp : IsHex p param3) (hq : IsHex q param4) (htail : IsLineEnd tail) :
    parseCallvbios (f ++ spellNumbers [m, s, p, q] ++ tail) =
      some (.callvbios function param1 param2 param3 param4) := by
  have hnumbers : List.Forall₂ IsHex [f, m, s, p, q] [function, param1, param2, param3, param4] :=
    .cons hf (.cons hm (.cons hs (.cons hp (.cons hq .nil))))
  have hscan : scan "%X %X %X %X %X" (f ++ spellNumbers [m, s, p, q] ++ tail) =
      [function, param1, param2, param3, param4] ++ (sscanf [] tail).map UInt16.ofInt :=
    scan_spelled rfl rfl hnumbers (endsNumeral_of_isLineEnd htail)
  rw [parseCallvbios, hscan]
  rfl

-- The slot stands where the handle would, after a word that is no number.
theorem parseCallrm_hand {c n s p q : List UInt8} {command slot subfunc param1 param2 : UInt16}
    (hc : IsHex c command) (hn : IsHex n slot) (hs : IsHex s subfunc) (hp : IsHex p param1)
    (hq : IsHex q param2) (htail : IsLineEnd tail) :
    parseCallrm linebuf (c ++ (ascii " HAND" ++ (n ++ spellNumbers [s, p, q] ++ tail))) =
      some (.callrmHand command slot subfunc param1 param2) := by
  have hends : ∀ text, EndsNumeral 16 (ascii " HAND" ++ text) := fun text =>
    endsNumeral_cons_of_isspace (Nat.le_refl _) (by decide) _
  have htext : BLANK :: (c ++ (ascii " HAND" ++ (n ++ spellNumbers [s, p, q] ++ tail))) =
      spellNumbers [c] ++ (ascii " HAND" ++ (n ++ spellNumbers [s, p, q] ++ tail)) := by
    simp [spellNumbers]
  have hnumbers : scan "%X %X %X %X %X" (c ++ (ascii " HAND" ++ (n ++ spellNumbers [s, p, q] ++ tail))) =
      [command] ++ (sscanf [.space, .hex, .space, .hex, .space, .hex, .space, .hex]
        (ascii " HAND" ++ (n ++ spellNumbers [s, p, q] ++ tail))).map UInt16.ofInt :=
    scan_spelled htext rfl (.cons hc .nil) (hends _)
  have hword : sscanf [.space, .hex, .space, .hex, .space, .hex, .space, .hex]
      (ascii " HAND" ++ (n ++ spellNumbers [s, p, q] ++ tail)) = [] :=
    sscanf_of_word (c := 72) (by decide) (by decide) (by decide) _ _
  have hskip : sscanf [.space, .lit 72, .lit 65, .lit 78, .lit 68, .hex, .space, .hex, .space, .hex,
      .space, .hex] (ascii " HAND" ++ (n ++ spellNumbers [s, p, q] ++ tail)) =
        sscanf [.hex, .space, .hex, .space, .hex, .space, .hex] (n ++ spellNumbers [s, p, q] ++ tail) :=
    rfl
  have hslot : scan "%X HAND%X %X %X %X" (c ++ (ascii " HAND" ++ (n ++ spellNumbers [s, p, q] ++ tail))) =
      [command] ++ (sscanf [.space, .lit 72, .lit 65, .lit 78, .lit 68, .hex, .space, .hex, .space, .hex,
        .space, .hex] (ascii " HAND" ++ (n ++ spellNumbers [s, p, q] ++ tail))).map UInt16.ofInt :=
    scan_spelled htext rfl (.cons hc .nil) (hends _)
  have hrest : (sscanf [.hex, .space, .hex, .space, .hex, .space, .hex]
      (n ++ spellNumbers [s, p, q] ++ tail)).map UInt16.ofInt =
        [slot, subfunc, param1, param2] ++ (sscanf [] tail).map UInt16.ofInt := by
    rw [sscanf_hex_of_blank]
    exact sscanf_spelled (.cons hn (.cons hs (.cons hp (.cons hq .nil))))
      (endsNumeral_of_isLineEnd htail) []
  rw [parseCallrm, hnumbers, hword, hslot, hskip, hrest]
  rfl

-- Three numbers and a pointer: neither of the longer forms is read to its end.
theorem parseCallrm_pointer {c h s text : List UInt8} {command handle subfunc : UInt16}
    (hc : IsHex c command) (hh : IsHex h handle) (hs : IsHex s subfunc)
    (htext : (sscanf [.space, .hex, .space, .hex] (BLANK :: text)).length ≤ 1) :
    parseCallrm linebuf (c ++ spellNumbers [h, s] ++ BLANK :: text) =
      (parsePointer linebuf (c ++ spellNumbers [h, s] ++ BLANK :: text)).map
        (.callrmPtr command handle subfunc) := by
  have hends : EndsNumeral 16 (BLANK :: text) :=
    endsNumeral_cons_of_isspace (Nat.le_refl _) (by decide) _
  have hnumbers : scan "%X %X %X %X %X" (c ++ spellNumbers [h, s] ++ BLANK :: text) =
      [command, handle, subfunc] ++
        (sscanf [.space, .hex, .space, .hex] (BLANK :: text)).map UInt16.ofInt :=
    scan_spelled rfl rfl (.cons hc (.cons hh (.cons hs .nil))) hends
  have hptr : scan "%X %X %X " (c ++ spellNumbers [h, s] ++ BLANK :: text) =
      [command, handle, subfunc] ++ (sscanf [.space] (BLANK :: text)).map UInt16.ofInt :=
    scan_spelled rfl rfl (.cons hc (.cons hh (.cons hs .nil))) hends
  have hhand : scan "%X HAND%X %X %X %X" (c ++ spellNumbers [h, s] ++ BLANK :: text) = [command] := by
    obtain ⟨d, ds, rfl⟩ := List.exists_cons_of_ne_nil hh.1.1
    have hsplit : BLANK :: (c ++ spellNumbers [d :: ds, s] ++ BLANK :: text) =
        spellNumbers [c] ++ BLANK :: d :: (ds ++ (spellNumbers [s] ++ BLANK :: text)) := by
      simp [spellNumbers]
    have hscan : scan "%X HAND%X %X %X %X" (c ++ spellNumbers [d :: ds, s] ++ BLANK :: text) =
        [command] ++ (sscanf [.space, .lit 72, .lit 65, .lit 78, .lit 68, .hex, .space, .hex, .space,
          .hex, .space, .hex] (BLANK :: d :: (ds ++ (spellNumbers [s] ++ BLANK :: text)))).map
            UInt16.ofInt :=
      scan_spelled hsplit rfl (.cons hc .nil) (endsNumeral_cons_of_isspace (Nat.le_refl _) (by decide) _)
    rw [hscan, sscanf_hand_of_digit (hh.1.2 d List.mem_cons_self)]
    rfl
  rw [parseCallrm, hnumbers, hhand, hptr]
  generalize (sscanf [.space, .hex, .space, .hex] (BLANK :: text)) = extra at htext
  match extra, htext with
  | [], _ => rfl
  | [_], _ => rfl

end Scans

section Pointers

-- Digits and blanks, as in front of a pointer.
def IsNumbers (text : List UInt8) : Prop := ∀ d ∈ text, isDigit 16 d ∨ d = BLANK

theorem isNumbers_spellNumbers {numerals : List (List UInt8)}
    (h : ∀ digits ∈ numerals, IsNumeral 16 digits) : IsNumbers (spellNumbers numerals) := by
  intro d hd
  obtain ⟨digits, hdigits, hmem⟩ := List.mem_flatMap.mp hd
  rcases List.mem_cons.mp hmem with rfl | hmem
  · exact Or.inr rfl
  · exact Or.inl ((h digits hdigits).2 d hmem)

theorem not_mem_numbers {text : List UInt8} (h : IsNumbers text) {d : UInt8}
    (hd : isDigit 16 d = false ∧ d ≠ BLANK) : d ∉ text := by
  intro hmem
  rcases h d hmem with hdigit | hblank
  · rw [hd.1] at hdigit
    cases hdigit
  · exact hd.2 hblank

variable {linebuf before tail : List UInt8}

-- A character of neither the numbers nor the word is nowhere in the line.
theorem not_mem_pointer (hbefore : IsNumbers before) (htail : IsLineEnd tail) (word : List UInt8)
    {d : UInt8} (hd : isDigit 16 d = false ∧ d ≠ BLANK) (hspace : isspace d = false)
    (hword : d ∉ word) : d ∉ before ++ BLANK :: (word ++ tail) := by
  intro hmem
  rcases List.mem_append.mp hmem with hmem | hmem
  · exact not_mem_numbers hbefore hd hmem
  rcases List.mem_cons.mp hmem with hblank | hmem
  · exact hd.2 hblank
  rcases List.mem_append.mp hmem with hmem | hmem
  · exact hword hmem
  · have hisspace := htail d hmem
    rw [hspace] at hisspace
    cases hisspace

theorem isInfix_pointer (before word tail : List UInt8) : word <:+: before ++ BLANK :: (word ++ tail) :=
  ⟨before ++ [BLANK], tail, by simp⟩

theorem parsePointer_quoted {name : List UInt8} (hbefore : IsNumbers before) (hname : QUOTE ∉ name) :
    parsePointer linebuf (before ++ BLANK :: (QUOTE :: name ++ QUOTE :: tail)) =
      some (.quoted (linebuf.length - (name ++ QUOTE :: tail).length) name) := by
  have hquote : strchr (before ++ BLANK :: (QUOTE :: name ++ QUOTE :: tail)) QUOTE =
      some (QUOTE :: name ++ QUOTE :: tail) := by
    rw [strchr_append (not_mem_numbers hbefore ⟨by decide, by decide⟩), strchr, if_neg (by decide)]
    exact strchr_self _ _
  have hend : strchr (name ++ QUOTE :: tail) QUOTE = some (QUOTE :: tail) := by
    rw [strchr_append hname, strchr_self]
  have hdrop : (QUOTE :: name ++ QUOTE :: tail).drop 1 = name ++ QUOTE :: tail := rfl
  have htake : (name ++ QUOTE :: tail).take
      ((name ++ QUOTE :: tail).length - (QUOTE :: tail).length) = name := by
    rw [List.length_append, Nat.add_sub_cancel]
    exact List.take_left
  rw [parsePointer, hquote]
  simp only [hdrop, hend, Option.map_some, htake]

theorem parsePointer_word (hbefore : IsNumbers before) (htail : IsLineEnd tail) {word : List UInt8}
    (hword : QUOTE ∉ word) :
    parsePointer linebuf (before ++ BLANK :: (word ++ tail)) =
      if ascii "CBFUNC" <:+: before ++ BLANK :: (word ++ tail) then some .cbfunc
      else if ascii "STRBUF" <:+: before ++ BLANK :: (word ++ tail) then some .strbuf
      else if ascii "NULL" <:+: before ++ BLANK :: (word ++ tail) then some .null
      else none := by
  have hquote := strchr_of_not_mem
    (not_mem_pointer hbefore htail word ⟨by decide, by decide⟩ (by decide) hword)
  rw [parsePointer, hquote]
  simp only [strstr_isSome_iff]

theorem parsePointer_cbfunc (hbefore : IsNumbers before) (htail : IsLineEnd tail) :
    parsePointer linebuf (before ++ BLANK :: (ascii "CBFUNC" ++ tail)) = some .cbfunc := by
  rw [parsePointer_word hbefore htail (by decide)]
  exact if_pos (isInfix_pointer before _ tail)

theorem parsePointer_strbuf (hbefore : IsNumbers before) (htail : IsLineEnd tail) :
    parsePointer linebuf (before ++ BLANK :: (ascii "STRBUF" ++ tail)) = some .strbuf := by
  have hcbfunc : ¬ascii "CBFUNC" <:+: before ++ BLANK :: (ascii "STRBUF" ++ tail) := by
    intro hinfix
    have hmem := hinfix.subset (show 78 ∈ ascii "CBFUNC" by decide)
    exact not_mem_pointer hbefore htail _ ⟨by decide, by decide⟩ (by decide) (by decide) hmem
  rw [parsePointer_word hbefore htail (by decide), if_neg hcbfunc]
  exact if_pos (isInfix_pointer before _ tail)

-- The U of NULL is behind its N, that of CBFUNC in front of it.
theorem not_cbfunc_of_null (hbefore : IsNumbers before) (htail : IsLineEnd tail) :
    ¬ascii "CBFUNC" <:+: before ++ BLANK :: (ascii "NULL" ++ tail) := by
  intro hinfix
  have hnumbers : before.filter (fun c => c = 78 ∨ c = 85) = [] := by
    refine List.filter_eq_nil_iff.mpr ?_
    intro c hc hletter
    rcases of_decide_eq_true hletter with rfl | rfl
    · exact not_mem_numbers hbefore ⟨by decide, by decide⟩ hc
    · exact not_mem_numbers hbefore ⟨by decide, by decide⟩ hc
  have hspace : tail.filter (fun c => c = 78 ∨ c = 85) = [] := by
    refine List.filter_eq_nil_iff.mpr ?_
    intro c hc hletter
    have hisspace := htail c hc
    rcases of_decide_eq_true hletter with rfl | rfl
    · exact absurd hisspace (by decide)
    · exact absurd hisspace (by decide)
  have hsublist := hinfix.sublist.filter (fun c => c = 78 ∨ c = 85)
  have hletters : (before ++ BLANK :: (ascii "NULL" ++ tail)).filter (fun c => c = 78 ∨ c = 85) =
      [78, 85] := by
    rw [List.append_cons, List.filter_append, List.filter_append, List.filter_append, hnumbers, hspace]
    rfl
  rw [hletters] at hsublist
  exact absurd hsublist (by decide)

theorem parsePointer_null (hbefore : IsNumbers before) (htail : IsLineEnd tail) :
    parsePointer linebuf (before ++ BLANK :: (ascii "NULL" ++ tail)) = some .null := by
  have hstrbuf : ¬ascii "STRBUF" <:+: before ++ BLANK :: (ascii "NULL" ++ tail) := by
    intro hinfix
    have hmem := hinfix.subset (show 83 ∈ ascii "STRBUF" by decide)
    exact not_mem_pointer hbefore htail _ ⟨by decide, by decide⟩ (by decide) (by decide) hmem
  rw [parsePointer_word hbefore htail (by decide), if_neg (not_cbfunc_of_null hbefore htail),
    if_neg hstrbuf]
  exact if_pos (isInfix_pointer before _ tail)

-- After three numbers a pointer is at most one number more: CBFUNC starts with CBF.
theorem sscanf_pointer {ptr : PtrForm} {text : List UInt8} (h : SpellsPtr ptr text) :
    (sscanf [.space, .hex, .space, .hex] (BLANK :: text)).length ≤ 1 := by
  cases h with
  | quoted =>
      rw [List.cons_append, sscanf_of_word (by decide) (by decide) (by decide)]
      exact Nat.zero_le _
  | @cbfunc tail htail =>
      have hnumeral : ∀ digits ∈ [ascii "CBF"], IsNumeral 16 digits := by
        intro digits hdigits
        rw [List.mem_singleton.mp hdigits]
        exact isNumeral_of_all (by decide) (by decide)
      have hends : EndsNumeral 16 (ascii "UNC" ++ tail) := by
        intro c hc
        obtain rfl := Option.some.inj hc
        exact ⟨by decide, by decide, by decide⟩
      have hscan : sscanf [.space, .hex, .space, .hex] (BLANK :: (ascii "CBFUNC" ++ tail)) =
          0xCBF :: sscanf [.space, .hex] (ascii "UNC" ++ tail) :=
        sscanf_numerals [.space, .hex] [ascii "CBF"] hnumeral hends
      have hnone : scanNumber 16 (ascii "UNC" ++ tail) = none :=
        scanNumber_eq_none (c := 85) (by decide) (by decide) (by decide) (by decide) (by decide) _
      rw [hscan, sscanf_space_hex, sscanf_hex_of_none _ hnone]
      exact Nat.le_refl _
  | @strbuf tail =>
      have hscan : sscanf [.space, .hex, .space, .hex] (BLANK :: (ascii "STRBUF" ++ tail)) = [] :=
        sscanf_of_word (c := 83) (by decide) (by decide) (by decide) _ _
      rw [hscan]
      exact Nat.zero_le _
  | @null tail =>
      have hscan : sscanf [.space, .hex, .space, .hex] (BLANK :: (ascii "NULL" ++ tail)) = [] :=
        sscanf_of_word (c := 78) (by decide) (by decide) (by decide) _ _
      rw [hscan]
      exact Nat.zero_le _

end Pointers

-- What the spellings are parsed to. A name is found behind the first quote of the line.
def PtrForm.Means (linebuf : List UInt8) : PtrForm → Pointer → Prop
  | .quoted name, pointer => ∃ before after, QUOTE ∉ before ∧
      linebuf = before ++ QUOTE :: name ++ QUOTE :: after ∧
      pointer = .quoted (before.length + 1) name
  | .cbfunc, pointer => pointer = .cbfunc
  | .strbuf, pointer => pointer = .strbuf
  | .null, pointer => pointer = .null

def CallForm.Means (linebuf : List UInt8) : CallForm → Command → Prop
  | .callrm command handle subfunc param1 param2, parsed =>
      parsed = .callrm command.toUInt16 handle.toUInt16 subfunc param1 param2
  | .callrmHand command slot subfunc param1 param2, parsed =>
      parsed = .callrmHand command.toUInt16 (UInt16.ofNat slot.val) subfunc param1 param2
  | .callrmPtr command handle subfunc ptr, parsed => ∃ pointer, ptr.Means linebuf pointer ∧
      parsed = .callrmPtr command.toUInt16 handle.toUInt16 subfunc pointer
  | .callrms function subfunction param1 param2, parsed =>
      parsed = .callrms function.toUInt16 subfunction param1 param2
  | .callvbios function param1 param2 param3 param4, parsed =>
      parsed = .callvbios function.toUInt16 param1.toUInt16 param2 param3 param4

section

variable {linebuf : List UInt8}

theorem not_quote_of_sameLetters {word keyword : List UInt8} (h : SameLetters word keyword)
    (hkeyword : QUOTE ∉ keyword.map tolower) : QUOTE ∉ word := by
  intro hmem
  have hlower : tolower QUOTE ∈ word.map tolower := List.mem_map_of_mem hmem
  rw [h] at hlower
  exact hkeyword hlower

-- `start` is what stands in front of the numbers, up to a blank.
theorem exists_pointer {ptr : PtrForm} {start numbers text : List UInt8} (h : SpellsPtr ptr text)
    (hstart : QUOTE ∉ start) (hnumbers : IsNumbers numbers) :
    ∃ pointer, ptr.Means (start ++ (numbers ++ BLANK :: text)) pointer ∧
      parsePointer (start ++ (numbers ++ BLANK :: text)) (numbers ++ BLANK :: text) = some pointer := by
  cases h with
  | @quoted name tail hname =>
      refine ⟨_, ⟨start ++ (numbers ++ [BLANK]), tail, ?_, ?_, ?_⟩,
        parsePointer_quoted hnumbers hname⟩
      · intro hmem
        rcases List.mem_append.mp hmem with hmem | hmem
        · exact hstart hmem
        rcases List.mem_append.mp hmem with hmem | hmem
        · exact not_mem_numbers hnumbers ⟨by decide, by decide⟩ hmem
        · exact absurd (List.mem_singleton.mp hmem) (by decide)
      · simp
      · have hlength : (start ++ (numbers ++ BLANK :: (QUOTE :: name ++ QUOTE :: tail))).length -
            (name ++ QUOTE :: tail).length = (start ++ (numbers ++ [BLANK])).length + 1 := by
          simp only [List.length_append, List.length_cons, List.length_nil]
          omega
        rw [hlength]
  | cbfunc htail => exact ⟨_, rfl, parsePointer_cbfunc hnumbers htail⟩
  | strbuf htail => exact ⟨_, rfl, parsePointer_strbuf hnumbers htail⟩
  | null htail => exact ⟨_, rfl, parsePointer_null hnumbers htail⟩

-- A call is parsed to what it says.
theorem parse_spells {form : CallForm} {line : List UInt8} (h : Spells form line) (blanks : Nat) :
    ∃ command, parse (List.replicate blanks BLANK ++ line) = some command ∧
      form.Means (List.replicate blanks BLANK ++ line) command := by
  cases h with
  | @callrm command handle subfunc param1 param2 word c h s p q tail hword hc hh hs hp hq htail =>
      have hline : word ++ spellNumbers [c, h, s, p, q] ++ tail =
          word ++ BLANK :: (c ++ spellNumbers [h, s, p, q] ++ tail) := by
        simp [spellNumbers]
      rw [hline, parse_callrm blanks hword]
      exact ⟨_, parseCallrm_numbers hc hh hs hp hq htail, rfl⟩
  | @callrmHand command slot subfunc param1 param2 word c n s p q tail hword hc hn hs hp hq htail =>
      have hline : word ++ spellNumbers [c] ++ ascii " HAND" ++ n ++ spellNumbers [s, p, q] ++ tail =
          word ++ BLANK :: (c ++ (ascii " HAND" ++ (n ++ spellNumbers [s, p, q] ++ tail))) := by
        simp [spellNumbers]
      rw [hline, parse_callrm blanks hword]
      exact ⟨_, parseCallrm_hand hc hn hs hp hq htail, rfl⟩
  | @callrmPtr command handle subfunc ptr word c h s text hword hc hh hs htext =>
      have hline : word ++ spellNumbers [c, h, s] ++ BLANK :: text =
          word ++ BLANK :: (c ++ spellNumbers [h, s] ++ BLANK :: text) := by
        simp [spellNumbers]
      have hnumerals : ∀ digits ∈ [c, h, s], IsNumeral 16 digits := by
        simp only [List.mem_cons, List.not_mem_nil, or_false]
        rintro digits (rfl | rfl | rfl)
        · exact hc.1
        · exact hh.1
        · exact hs.1
      have hnumbers : IsNumbers (c ++ spellNumbers [h, s]) := by
        intro d hd
        exact isNumbers_spellNumbers hnumerals d (List.mem_cons_of_mem _ hd)
      have hstart : QUOTE ∉ List.replicate blanks BLANK ++ (word ++ [BLANK]) := by
        intro hmem
        rcases List.mem_append.mp hmem with hmem | hmem
        · exact absurd (List.eq_of_mem_replicate hmem) (by decide)
        rcases List.mem_append.mp hmem with hmem | hmem
        · exact not_quote_of_sameLetters hword (by decide) hmem
        · exact absurd (List.mem_singleton.mp hmem) (by decide)
      have hsplit : List.replicate blanks BLANK ++ (word ++ [BLANK]) ++
          (c ++ spellNumbers [h, s] ++ BLANK :: text) =
            List.replicate blanks BLANK ++ (word ++ BLANK :: (c ++ spellNumbers [h, s] ++ BLANK :: text)) := by
        simp
      obtain ⟨pointer, hmeans, hpointer⟩ := exists_pointer htext hstart hnumbers
      rw [hsplit] at hmeans hpointer
      rw [hline, parse_callrm blanks hword, parseCallrm_pointer hc hh hs (sscanf_pointer htext), hpointer]
      exact ⟨_, rfl, pointer, hmeans, rfl⟩
  | @callrms function subfunction param1 param2 word f s p q tail hword hf hs hp hq htail =>
      have hline : word ++ spellNumbers [f, s, p, q] ++ tail =
          word ++ BLANK :: (f ++ spellNumbers [s, p, q] ++ tail) := by
        simp [spellNumbers]
      rw [hline, parse_callrms blanks hword]
      exact ⟨_, parseCallrms_numbers hf hs hp hq htail, rfl⟩
  | @callvbios function param1 param2 param3 param4 word f m s p q tail hword hf hm hs hp hq htail =>
      have hline : word ++ spellNumbers [f, m, s, p, q] ++ tail =
          word ++ BLANK :: (f ++ spellNumbers [m, s, p, q] ++ tail) := by
        simp [spellNumbers]
      rw [hline, parse_callvbios blanks hword]
      exact ⟨_, parseCallvbios_numbers hf hm hs hp hq htail, rfl⟩

end

end ReelMagic.Rmprobe
