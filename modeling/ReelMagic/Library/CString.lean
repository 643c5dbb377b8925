import Mathlib.Data.List.Infix
import Mathlib.Data.List.TakeWhile

namespace Library.CString

-- A C string is the list of its characters, without the NUL that ends it.

def ascii (text : String) : List UInt8 :=
  text.toList.map fun c => UInt8.ofNat c.toNat

abbrev NEWLINE : UInt8 := 10

-- The string that starts a piece of memory.
def cString (memory : List UInt8) : List UInt8 :=
  memory.takeWhile (· ≠ 0)

def tolower (c : UInt8) : UInt8 :=
  if 65 ≤ c ∧ c ≤ 90 then c + 32 else c

-- `strncasecmp(s, t, n) == 0`.
def strncasecmpEq (s t : List UInt8) (n : Nat) : Bool :=
  (s.take n).map tolower = (t.take n).map tolower

-- The part of `s` from the first `c` on.
def strchr (s : List UInt8) (c : UInt8) : Option (List UInt8) :=
  match s with
  | [] => none
  | d :: rest => if d = c then some s else strchr rest c

def strstr (s t : List UInt8) : Option (List UInt8) :=
  if t <+: s then some s
  else
    match s with
    | [] => none
    | _ :: rest => strstr rest t

theorem cString_of_not_mem {memory : List UInt8} (h : 0 ∉ memory) : cString memory = memory := by
  refine List.takeWhile_eq_self_iff.mpr ?_
  intro c hc
  rw [decide_eq_true_eq]
  rintro rfl
  exact h hc

theorem cString_length_le (memory : List UInt8) : (cString memory).length ≤ memory.length :=
  (List.takeWhile_sublist _).length_le

theorem strchr_append {s : List UInt8} {c : UInt8} (h : c ∉ s) (rest : List UInt8) :
    strchr (s ++ rest) c = strchr rest c := by
  induction s with
  | nil => rfl
  | cons d s ih =>
      obtain ⟨hd, hs⟩ := not_or.mp (mt List.mem_cons.mpr h)
      rw [List.cons_append, strchr, if_neg (Ne.symm hd), ih hs]

theorem strchr_self (c : UInt8) (rest : List UInt8) : strchr (c :: rest) c = some (c :: rest) := by
  rw [strchr, if_pos rfl]

theorem strchr_of_not_mem {s : List UInt8} {c : UInt8} (h : c ∉ s) : strchr s c = none := by
  have happend := strchr_append h []
  rw [List.append_nil] at happend
  exact happend

-- What `strchr` finds is where the string divides.
theorem strchr_eq_some {s found : List UInt8} {c : UInt8} (h : strchr s c = some found) :
    ∃ before after, s = before ++ c :: after ∧ found = c :: after ∧ c ∉ before := by
  induction s with
  | nil => cases h
  | cons d s ih =>
      rw [strchr] at h
      split at h
      · rename_i hd
        obtain rfl := Option.some.inj h
        exact ⟨[], s, by rw [hd, List.nil_append], by rw [hd], List.not_mem_nil⟩
      · rename_i hd
        obtain ⟨before, after, rfl, rfl, hbefore⟩ := ih h
        refine ⟨d :: before, after, rfl, rfl, ?_⟩
        intro hmem
        rcases List.mem_cons.mp hmem with rfl | hmem
        · exact hd rfl
        · exact hbefore hmem

theorem strstr_isSome_iff (s t : List UInt8) : (strstr s t).isSome ↔ t <:+: s := by
  induction s with
  | nil =>
      rw [strstr]
      split
      · rename_i h
        exact ⟨fun _ => h.isInfix, fun _ => rfl⟩
      · rename_i h
        refine ⟨fun hnone => Bool.noConfusion hnone, fun hin => ?_⟩
        rw [List.infix_nil] at hin
        rw [hin] at h
        exact absurd List.nil_prefix h
  | cons c s ih =>
      rw [strstr, List.infix_cons_iff]
      split
      · rename_i h
        exact ⟨fun _ => Or.inl h, fun _ => rfl⟩
      · rename_i h
        rw [ih]
        exact ⟨Or.inr, fun hor => hor.resolve_left h⟩

end Library.CString
