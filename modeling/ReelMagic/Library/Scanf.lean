import Mathlib.Data.List.DropRight
import Mathlib.Data.List.TakeWhile

namespace Library.Scanf

-- The parts of a format: white space, a character that has to match, `%X` and `%u`.
inductive Directive where
  | space
  | lit (c : UInt8)
  | hex
  | dec
deriving DecidableEq

def directives : List Char → List Directive
  | '%' :: 'X' :: rest => .hex :: directives rest
  | '%' :: 'u' :: rest => .dec :: directives rest
  | ' ' :: rest => .space :: directives rest
  | c :: rest => .lit (UInt8.ofNat c.toNat) :: directives rest
  | [] => []

def isspace (c : UInt8) : Bool := c = 32 ∨ 9 ≤ c ∧ c ≤ 13

-- 16 for what is no digit in any base up to sixteen.
def digitValue (c : UInt8) : Nat :=
  if 48 ≤ c ∧ c ≤ 57 then c.toNat - 48
  else if 65 ≤ c ∧ c ≤ 70 then c.toNat - 55
  else if 97 ≤ c ∧ c ≤ 102 then c.toNat - 87
  else 16

def isDigit (base : Nat) (c : UInt8) : Bool := digitValue c < base

def numeralValue (base : Nat) (digits : List UInt8) : Nat :=
  digits.foldl (fun n c => n * base + digitValue c) 0

-- `true` for a minus sign.
def scanSign : List UInt8 → Bool × List UInt8
  | 43 :: text => (false, text)
  | 45 :: text => (true, text)
  | text => (false, text)

-- The `0x` that may come before a hexadecimal numeral.
def skipHexMark : List UInt8 → List UInt8
  | 48 :: 120 :: text => text
  | 48 :: 88 :: text => text
  | text => text

-- One number, as `strtoul` reads it, except that `0x` with no digit after it is no number.
def scanNumber (base : Nat) (text : List UInt8) : Option (Int × List UInt8) :=
  let (negative, text) := scanSign (text.dropWhile isspace)
  let text := if base = 16 then skipHexMark text else text
  match text.takeWhile (isDigit base) with
  | [] => none
  | digits =>
      let value : Int := numeralValue base digits
      some (if negative then -value else value, text.dropWhile (isDigit base))

-- The values assigned, up to the first directive that fails. Their number is what `sscanf`
-- returns, which has EOF for 0 where the text ends before anything could fail.
def sscanf : List Directive → List UInt8 → List Int
  | [], _ => []
  | .space :: format, text => sscanf format (text.dropWhile isspace)
  | .lit c :: format, text =>
      match text with
      | [] => []
      | d :: rest => if d = c then sscanf format rest else []
  | .hex :: format, text =>
      match scanNumber 16 text with
      | none => []
      | some (value, rest) => value :: sscanf format rest
  | .dec :: format, text =>
      match scanNumber 10 text with
      | none => []
      | some (value, rest) => value :: sscanf format rest

-- A hexadecimal numeral without sign and mark.
def IsNumeral (base : Nat) (digits : List UInt8) : Prop :=
  digits ≠ [] ∧ ∀ c ∈ digits, isDigit base c

theorem isNumeral_of_all {base : Nat} {digits : List UInt8} (hne : digits ≠ [])
    (h : digits.all (isDigit base) = true) : IsNumeral base digits :=
  ⟨hne, List.all_eq_true.mp h⟩

-- What may follow a numeral without being taken for a part of it.
def EndsNumeral (base : Nat) (rest : List UInt8) : Prop :=
  ∀ c ∈ rest.head?, isDigit base c = false ∧ c ≠ 120 ∧ c ≠ 88

theorem isDigit_of_isspace {c : UInt8} (base : Nat) (hbase : base ≤ 16) (h : isspace c) :
    isDigit base c = false := by
  simp only [isspace, decide_eq_true_eq, ← UInt8.toNat_inj, UInt8.le_iff_toNat_le] at h
  simp only [isDigit, digitValue, decide_eq_false_iff_not, UInt8.le_iff_toNat_le]
  simp at h ⊢
  split_ifs <;> omega

theorem endsNumeral_nil (base : Nat) : EndsNumeral base [] :=
  fun _ hc => absurd hc (Option.not_mem_none _)

theorem endsNumeral_cons_of_isspace {c : UInt8} {base : Nat} (hbase : base ≤ 16) (h : isspace c)
    (rest : List UInt8) : EndsNumeral base (c :: rest) := by
  intro d hd
  obtain rfl := Option.some.inj hd
  refine ⟨isDigit_of_isspace base hbase h, ?_, ?_⟩
  · rintro rfl
    exact absurd h (by decide)
  · rintro rfl
    exact absurd h (by decide)

theorem endsNumeral_of_blank {rest : List UInt8} {base : Nat} (hbase : base ≤ 16)
    (h : ∀ c ∈ rest, isspace c) : EndsNumeral base rest := by
  cases rest with
  | nil => exact endsNumeral_nil base
  | cons c rest => exact endsNumeral_cons_of_isspace hbase (h c List.mem_cons_self) rest

theorem scanNumber_of_isspace {c : UInt8} (h : isspace c) (base : Nat) (text : List UInt8) :
    scanNumber base (c :: text) = scanNumber base text := by
  rw [scanNumber, scanNumber, List.dropWhile_cons_of_pos h]

theorem scanSign_of_isDigit {c : UInt8} {base : Nat} (h : isDigit base c) (hbase : base ≤ 16)
    (text : List UInt8) : scanSign (c :: text) = (false, c :: text) := by
  have hc : digitValue c < 16 := Nat.lt_of_lt_of_le (of_decide_eq_true h) hbase
  unfold scanSign
  split
  · rename_i heq
    obtain ⟨rfl, _⟩ := List.cons.inj heq
    exact absurd hc (by decide)
  · rename_i heq
    obtain ⟨rfl, _⟩ := List.cons.inj heq
    exact absurd hc (by decide)
  · rfl

-- No digit is an `x`, so the zeros a numeral starts with are not taken for a mark.
theorem skipHexMark_numeral {digits rest : List UInt8} (h : IsNumeral 16 digits)
    (hrest : EndsNumeral 16 rest) : skipHexMark (digits ++ rest) = digits ++ rest := by
  have hsecond : ∀ c text, digits ++ rest = 48 :: c :: text → c ≠ 120 ∧ c ≠ 88 := by
    intro c text htext
    obtain ⟨hne, hdigits⟩ := h
    match digits, hne, hdigits with
    | [_], _, _ =>
        obtain ⟨_, rfl⟩ := List.cons.inj htext
        exact (hrest c rfl).2
    | _ :: d :: _, _, hdigits =>
        obtain ⟨_, htail⟩ := List.cons.inj htext
        obtain ⟨rfl, _⟩ := List.cons.inj htail
        have hd := hdigits d (List.mem_cons_of_mem _ List.mem_cons_self)
        constructor
        · rintro rfl
          exact absurd hd (by decide)
        · rintro rfl
          exact absurd hd (by decide)
  unfold skipHexMark
  split
  · rename_i text heq
    exact absurd rfl (hsecond 120 text heq).1
  · rename_i text heq
    exact absurd rfl (hsecond 88 text heq).2
  · rfl

theorem scanNumber_numeral {digits rest : List UInt8} (h : IsNumeral 16 digits)
    (hrest : EndsNumeral 16 rest) :
    scanNumber 16 (digits ++ rest) = some ((numeralValue 16 digits : Int), rest) := by
  have hmark := skipHexMark_numeral h hrest
  have htake : (digits ++ rest).takeWhile (isDigit 16) = digits := by
    rw [List.takeWhile_append_of_pos h.2]
    cases rest with
    | nil => rw [List.takeWhile_nil, List.append_nil]
    | cons c rest => rw [List.takeWhile_cons_of_neg (by simp [(hrest c rfl).1]), List.append_nil]
  have hdrop : (digits ++ rest).dropWhile (isDigit 16) = rest := by
    rw [List.dropWhile_append_of_pos h.2]
    cases rest with
    | nil => rfl
    | cons c rest => rw [List.dropWhile_cons_of_neg (by simp [(hrest c rfl).1])]
  obtain ⟨hne, hdigits⟩ := h
  obtain ⟨d, ds, rfl⟩ := List.exists_cons_of_ne_nil hne
  have hd := hdigits d List.mem_cons_self
  have hspace : ¬isspace d := fun hs => by
    rw [isDigit_of_isspace 16 (Nat.le_refl _) hs] at hd
    cases hd
  rw [List.cons_append] at hmark htake hdrop ⊢
  rw [scanNumber, List.dropWhile_cons_of_neg hspace, scanSign_of_isDigit hd (Nat.le_refl _)]
  simp only [if_true, hmark, htake, hdrop, Bool.false_eq_true, if_false]

-- What starts with neither a digit nor a sign is no number.
theorem scanNumber_eq_none {c : UInt8} {base : Nat} (hspace : isspace c = false)
    (hdigit : isDigit base c = false) (hzero : c ≠ 48) (hplus : c ≠ 43) (hminus : c ≠ 45)
    (text : List UInt8) : scanNumber base (c :: text) = none := by
  have hsign : scanSign (c :: text) = (false, c :: text) := by
    unfold scanSign
    split
    · rename_i heq
      exact absurd (List.cons.inj heq).1 hplus
    · rename_i heq
      exact absurd (List.cons.inj heq).1 hminus
    · rfl
  have hmark : skipHexMark (c :: text) = c :: text := by
    unfold skipHexMark
    split
    · rename_i heq
      exact absurd (List.cons.inj heq).1 hzero
    · rename_i heq
      exact absurd (List.cons.inj heq).1 hzero
    · rfl
  rw [scanNumber, List.dropWhile_cons_of_neg (by simp [hspace]), hsign]
  simp only [hmark, ite_self]
  rw [List.takeWhile_cons_of_neg (by simp [hdigit])]

section

variable (format : List Directive)

theorem sscanf_hex_numeral {digits rest : List UInt8} (h : IsNumeral 16 digits)
    (hrest : EndsNumeral 16 rest) :
    sscanf (.hex :: format) (digits ++ rest) =
      (numeralValue 16 digits : Int) :: sscanf format rest := by
  rw [sscanf, scanNumber_numeral h hrest]

theorem sscanf_hex_of_isspace {c : UInt8} (h : isspace c) (text : List UInt8) :
    sscanf (.hex :: format) (c :: text) = sscanf (.hex :: format) text := by
  rw [sscanf, sscanf, scanNumber_of_isspace h]

theorem sscanf_hex_of_none {text : List UInt8} (h : scanNumber 16 text = none) :
    sscanf (.hex :: format) text = [] := by
  rw [sscanf, h]

theorem sscanf_space_of_isspace {c : UInt8} (h : isspace c) (text : List UInt8) :
    sscanf (.space :: format) (c :: text) = sscanf (.space :: format) text := by
  rw [sscanf, sscanf, List.dropWhile_cons_of_pos h]

theorem sscanf_space_of_not {c : UInt8} (h : isspace c = false) (text : List UInt8) :
    sscanf (.space :: format) (c :: text) = sscanf format (c :: text) := by
  rw [sscanf, List.dropWhile_cons_of_neg (by simp [h])]

-- White space in a format changes nothing in front of a number.
theorem sscanf_space_hex (text : List UInt8) :
    sscanf (.space :: .hex :: format) text = sscanf (.hex :: format) text := by
  have hdrop : (text.dropWhile isspace).dropWhile isspace = text.dropWhile isspace :=
    List.dropWhile_idempotent isspace text
  rw [sscanf, sscanf, sscanf, scanNumber, scanNumber, hdrop]

-- Numerals with a blank in front of each are read one after the other.
theorem sscanf_numerals (numerals : List (List UInt8)) (h : ∀ digits ∈ numerals, IsNumeral 16 digits)
    {rest : List UInt8} (hrest : EndsNumeral 16 rest) :
    sscanf (numerals.flatMap (fun _ => [.space, .hex]) ++ format) (numerals.flatMap (32 :: ·) ++ rest) =
      numerals.map (fun digits => (numeralValue 16 digits : Int)) ++ sscanf format rest := by
  induction numerals with
  | nil => rfl
  | cons digits numerals ih =>
      obtain ⟨hdigits, hnumerals⟩ := List.forall_mem_cons.mp h
      have hends : EndsNumeral 16 (numerals.flatMap (32 :: ·) ++ rest) := by
        cases numerals with
        | nil => exact hrest
        | cons next numerals =>
            exact endsNumeral_cons_of_isspace (Nat.le_refl _) (by decide) _
      rw [List.flatMap_cons, List.flatMap_cons, List.append_assoc, List.append_assoc, List.cons_append,
        List.cons_append, List.cons_append, List.nil_append, sscanf_space_hex,
        sscanf_hex_of_isspace _ (by decide), sscanf_hex_numeral _ hdigits hends, ih hnumerals,
        List.map_cons, List.cons_append]

end

end Library.Scanf
