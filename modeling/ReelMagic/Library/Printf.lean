import Mathlib.Data.Nat.Digits.Lemmas
import ReelMagic.Library.Scanf

namespace Library.Printf

open Library.Scanf

-- The character of a digit, in upper case.
def digit (n : Nat) : UInt8 := if n < 10 then UInt8.ofNat (48 + n) else UInt8.ofNat (55 + n)

-- A number without leading zeros. Zero has one digit.
def numeral (base n : Nat) : List UInt8 :=
  if n = 0 then [digit 0] else (Nat.digits base n).reverse.map digit

-- `%0nX` with `n` for the width. A number that needs more digits gets them.
def hex (width n : Nat) : List UInt8 :=
  List.replicate (width - (numeral 16 n).length) (digit 0) ++ numeral 16 n

-- The parts of a format: a character, and `%0nX`.
inductive Piece where
  | lit (c : UInt8)
  | hex (width : Nat)
deriving DecidableEq

def pieces : List Char → List Piece
  | '%' :: '0' :: width :: 'X' :: rest => .hex (width.toNat - 48) :: pieces rest
  | c :: rest => .lit (UInt8.ofNat c.toNat) :: pieces rest
  | [] => []

-- What is printed for the values, which are taken in their order.
def sprintf : List Piece → List Nat → List UInt8
  | [], _ => []
  | .lit c :: format, values => c :: sprintf format values
  | .hex width :: format, value :: values => hex width value ++ sprintf format values
  | .hex _ :: _, [] => []

-- The values of a text that has been printed with the format, and what follows it. A number is
-- taken to have as many digits as its width says.
def unprint : List Piece → List UInt8 → Option (List Nat × List UInt8)
  | [], text => some ([], text)
  | .lit _ :: _, [] => none
  | .lit c :: format, d :: text => if d = c then unprint format text else none
  | .hex width :: format, text =>
      match unprint format (text.drop width) with
      | none => none
      | some (values, rest) =>
          if width ≤ text.length ∧ (text.take width).all (isDigit 16) then
            some (numeralValue 16 (text.take width) :: values, rest)
          else none

def widths : List Piece → List Nat
  | [] => []
  | .lit _ :: format => widths format
  | .hex width :: format => width :: widths format

def FitsIn (width value : Nat) : Prop := 0 < width ∧ value < 16 ^ width

-- One value for each number of the format, and none too large for its width.
def Fits (format : List Piece) (values : List Nat) : Prop :=
  List.Forall₂ FitsIn (widths format) values

section

variable {base n width : Nat}

theorem digitValue_digit {d : Nat} (h : d < 16) : digitValue (digit d) = d := by
  interval_cases d <;> rfl

theorem isDigit_digit {d : Nat} (h : d < base) (hbase : base ≤ 16) : isDigit base (digit d) = true := by
  rw [isDigit, digitValue_digit (by omega)]
  exact decide_eq_true h

theorem numeralValue_append_digit (digits : List UInt8) (d : UInt8) :
    numeralValue base (digits ++ [d]) = numeralValue base digits * base + digitValue d := by
  rw [numeralValue, List.foldl_append]
  rfl

theorem numeralValue_reverse_map {ds : List Nat} (hds : ∀ d ∈ ds, d < base) (hbase : base ≤ 16) :
    numeralValue base (ds.reverse.map digit) = Nat.ofDigits base ds := by
  induction ds with
  | nil => rfl
  | cons d ds ih =>
      have hd := hds d List.mem_cons_self
      have hrest := ih fun e he => hds e (List.mem_cons_of_mem _ he)
      rw [List.reverse_cons, List.map_append, List.map_singleton, numeralValue_append_digit, hrest,
        digitValue_digit (by omega), Nat.ofDigits_cons]
      ring

theorem numeralValue_numeral (hone : 1 < base) (hbase : base ≤ 16) (n : Nat) :
    numeralValue base (numeral base n) = n := by
  unfold numeral
  split
  · rename_i hzero
    rw [hzero]
    simp [numeralValue, digitValue_digit]
  · rw [numeralValue_reverse_map (fun d hd => Nat.digits_lt_base hone hd) hbase, Nat.ofDigits_digits]

theorem isDigit_of_mem_numeral (hone : 1 < base) (hbase : base ≤ 16) {c : UInt8}
    (hc : c ∈ numeral base n) : isDigit base c = true := by
  unfold numeral at hc
  split at hc
  · obtain rfl := List.mem_singleton.mp hc
    exact isDigit_digit (by omega) hbase
  · obtain ⟨d, hd, rfl⟩ := List.mem_map.mp hc
    exact isDigit_digit (Nat.digits_lt_base hone (List.mem_reverse.mp hd)) hbase

theorem numeral_length_pos : 0 < (numeral base n).length := by
  unfold numeral
  split
  · exact Nat.one_pos
  · rename_i hne
    rw [List.length_map, List.length_reverse]
    exact List.length_pos_of_ne_nil (Nat.digits_ne_nil_iff_ne_zero.mpr hne)

theorem isNumeral_numeral (hone : 1 < base) (hbase : base ≤ 16) (n : Nat) :
    IsNumeral base (numeral base n) :=
  ⟨List.ne_nil_of_length_pos numeral_length_pos, fun _ hc => isDigit_of_mem_numeral hone hbase hc⟩

theorem numeral_length_le (hone : 1 < base) (hwidth : 0 < width) (h : n < base ^ width) :
    (numeral base n).length ≤ width := by
  unfold numeral
  split
  · exact hwidth
  · rw [List.length_map, List.length_reverse]
    exact (Nat.digits_length_le_iff hone n).mpr h

theorem numeralValue_zeros (count : Nat) (digits : List UInt8) :
    numeralValue base (List.replicate count (digit 0) ++ digits) = numeralValue base digits := by
  induction count with
  | zero => rfl
  | succ count ih =>
      rw [List.replicate_succ, List.cons_append, ← ih]
      simp [numeralValue, digitValue_digit]

theorem numeralValue_hex (width n : Nat) : numeralValue 16 (hex width n) = n := by
  rw [hex, numeralValue_zeros, numeralValue_numeral (by omega) (Nat.le_refl 16)]

theorem isNumeral_hex (width n : Nat) : IsNumeral 16 (hex width n) := by
  have hnumeral : IsNumeral 16 (numeral 16 n) := isNumeral_numeral (by omega) (Nat.le_refl 16) n
  obtain ⟨hne, hdigits⟩ := hnumeral
  refine ⟨List.append_ne_nil_of_right_ne_nil _ hne, fun c hc => ?_⟩
  rcases List.mem_append.mp hc with hzero | hdigit
  · rw [(List.mem_replicate.mp hzero).2]
    exact isDigit_digit (by omega) (Nat.le_refl 16)
  · exact hdigits c hdigit

theorem hex_length (hwidth : 0 < width) (h : n < 16 ^ width) : (hex width n).length = width := by
  have hle := numeral_length_le (by omega) hwidth h
  rw [hex, List.length_append, List.length_replicate]
  omega

end

-- What has been printed is read back.
theorem unprint_sprintf {format : List Piece} {values : List Nat} (h : Fits format values)
    (rest : List UInt8) : unprint format (sprintf format values ++ rest) = some (values, rest) := by
  induction format generalizing values with
  | nil =>
      cases h
      rfl
  | cons piece format ih =>
      cases piece with
      | lit c =>
          have hrest : Fits format values := h
          rw [sprintf, List.cons_append, unprint, if_pos rfl]
          exact ih hrest
      | hex width =>
          rw [Fits, widths] at h
          cases h with
          | @cons _ value _ values hfits hrest =>
              obtain ⟨hwidth, hvalue⟩ := hfits
              have hlength := hex_length hwidth hvalue
              have hdrop : (hex width value ++ (sprintf format values ++ rest)).drop width =
                  sprintf format values ++ rest := List.drop_left' hlength
              have htake : (hex width value ++ (sprintf format values ++ rest)).take width =
                  hex width value := List.take_left' hlength
              have hdigits : (hex width value).all (isDigit 16) = true :=
                List.all_eq_true.mpr (isNumeral_hex width value).2
              have hle : width ≤ (hex width value ++ (sprintf format values ++ rest)).length := by
                rw [List.length_append]
                omega
              simp only [sprintf, List.append_assoc, unprint, hdrop, htake, ih hrest, hle, hdigits,
                and_true, if_true, numeralValue_hex]

-- The characters before the first number.
def literal : List Piece → List UInt8
  | .lit c :: format => c :: literal format
  | _ => []

theorem literal_isPrefix_sprintf (format : List Piece) (values : List Nat) :
    literal format <+: sprintf format values := by
  induction format with
  | nil => exact List.nil_prefix
  | cons piece format ih =>
      cases piece with
      | lit c => exact List.cons_prefix_cons.mpr ⟨rfl, ih⟩
      | hex width => exact List.nil_prefix

theorem literal_isPrefix_of_unprint {format : List Piece} {text : List UInt8}
    {result : List Nat × List UInt8} (h : unprint format text = some result) :
    literal format <+: text := by
  induction format generalizing text with
  | nil => exact List.nil_prefix
  | cons piece format ih =>
      cases piece with
      | lit c =>
          cases text with
          | nil => cases h
          | cons d text =>
              rw [unprint] at h
              split at h
              · rename_i heq
                rw [heq]
                exact List.cons_prefix_cons.mpr ⟨rfl, ih h⟩
              · cases h
      | hex width => exact List.nil_prefix

-- A text that was printed with one format is not read with another that starts differently.
theorem unprint_other {format other : List Piece} (values : List Nat) (rest : List UInt8)
    (h : ¬literal other <+: literal format) (h' : ¬literal format <+: literal other) :
    unprint other (sprintf format values ++ rest) = none := by
  cases hunprint : unprint other (sprintf format values ++ rest) with
  | none => rfl
  | some result =>
      have hother := literal_isPrefix_of_unprint hunprint
      have hown := (literal_isPrefix_sprintf format values).trans (List.prefix_append _ rest)
      rcases List.prefix_or_prefix_of_prefix hother hown with hle | hle
      · exact absurd hle h
      · exact absurd hle h'

-- The number that stands at a column of a line.
def numberAt (base column : Nat) (line : List UInt8) : Nat :=
  numeralValue base ((line.drop column).takeWhile (isDigit base))

theorem numberAt_append {base column : Nat} {label digits rest : List UInt8}
    (hlabel : label.length = column) (hdigits : ∀ c ∈ digits, isDigit base c = true)
    (hrest : ∀ c ∈ rest.head?, isDigit base c = false) :
    numberAt base column (label ++ (digits ++ rest)) = numeralValue base digits := by
  have hends : rest.takeWhile (isDigit base) = [] := by
    cases rest with
    | nil => rfl
    | cons c rest => rw [List.takeWhile_cons_of_neg (by simp [hrest c rfl])]
  rw [numberAt, List.drop_left' hlabel, List.takeWhile_append_of_pos hdigits, hends, List.append_nil]

theorem numberAt_hex {column : Nat} {label rest : List UInt8} (hlabel : label.length = column)
    (hrest : ∀ c ∈ rest.head?, isDigit 16 c = false) (width n : Nat) :
    numberAt 16 column (label ++ (hex width n ++ rest)) = n := by
  rw [numberAt_append hlabel (isNumeral_hex width n).2 hrest, numeralValue_hex]

theorem numberAt_numeral {column : Nat} {label : List UInt8} (hlabel : label.length = column) (n : Nat) :
    numberAt 10 column (label ++ numeral 10 n) = n := by
  have hdigits : ∀ c ∈ numeral 10 n, isDigit 10 c = true :=
    fun _ hc => isDigit_of_mem_numeral (by omega) (by omega) hc
  have hread : numberAt 10 column (label ++ (numeral 10 n ++ [])) = numeralValue 10 (numeral 10 n) :=
    numberAt_append hlabel hdigits nofun
  rw [List.append_nil] at hread
  rw [hread, numeralValue_numeral (by omega) (by omega)]

theorem numeralValue_append (base : Nat) (digits more : List UInt8) :
    numeralValue base (digits ++ more) =
      numeralValue base digits * base ^ more.length + numeralValue base more := by
  induction more using List.reverseRecOn with
  | nil => simp [numeralValue]
  | append_singleton more d ih =>
      rw [← List.append_assoc, numeralValue_append_digit, numeralValue_append_digit, ih,
        List.length_append, List.length_singleton]
      ring

-- A digit is none of the characters that end a line.
theorem isDigit_ne_newline {base : Nat} (hbase : base ≤ 16) : isDigit base 10 = false :=
  isDigit_of_isspace base hbase (by decide)

theorem newline_not_mem_digits {base : Nat} (hbase : base ≤ 16) {digits : List UInt8}
    (h : ∀ c ∈ digits, isDigit base c = true) : 10 ∉ digits := by
  intro hmem
  have hfalse := h 10 hmem
  rw [isDigit_ne_newline hbase] at hfalse
  cases hfalse

theorem newline_not_mem_sprintf {format : List Piece} {values : List Nat}
    (h : .lit 10 ∉ format) : 10 ∉ sprintf format values := by
  induction format generalizing values with
  | nil => exact List.not_mem_nil
  | cons piece format ih =>
      have hformat : .lit 10 ∉ format := fun hmem => h (List.mem_cons_of_mem _ hmem)
      cases piece with
      | lit c =>
          rw [sprintf]
          intro hmem
          rcases List.mem_cons.mp hmem with rfl | hrest
          · exact h List.mem_cons_self
          · exact ih hformat hrest
      | hex width =>
          cases values with
          | nil => exact List.not_mem_nil
          | cons value values =>
              rw [sprintf]
              intro hmem
              rcases List.mem_append.mp hmem with hdigit | hrest
              · exact newline_not_mem_digits (Nat.le_refl 16) (isNumeral_hex width value).2 hdigit
              · exact ih hformat hrest

end Library.Printf
