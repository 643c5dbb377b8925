import Mathlib.Algebra.GroupWithZero.Nat
import ReelMagic.Library.Runs

namespace Library

-- What a token does to the number of brackets that are open.
inductive Bracket where
  | opening
  | closing
  | other
deriving DecidableEq

variable {τ : Type*} (bracket : τ → Bracket)

-- A step from one number of open brackets to the next. A token stands with the number of
-- brackets around it: a bracket does not count itself. There are never more than `limit`.
inductive Nesting (limit : Nat) : Nat → Nat × τ → Nat → Prop
  | opening {level : Nat} {token : τ} : bracket token = .opening → level < limit →
      Nesting limit level (level, token) (level + 1)
  | closing {level : Nat} {token : τ} : bracket token = .closing →
      Nesting limit (level + 1) (level, token) level
  | other {level : Nat} {token : τ} : bracket token = .other →
      Nesting limit level (level, token) level

-- What a token does to the brackets that are open, where a bracket has a name.
inductive Label (γ : Type*) where
  | opening (name : γ)
  | closing (name : γ)
  | other

section Matching

variable {τ γ : Type*} (label : τ → Label γ) (weight : γ → Nat)

-- A step from the names of the brackets that are open, innermost first, to the next. A closing
-- bracket has the name of the innermost. A token stands at the weights of the brackets around it,
-- counted from `base` on.
inductive Matching (base : Nat) : List γ → Nat × τ → List γ → Prop
  | opening {names : List γ} {name : γ} {token : τ} : label token = .opening name →
      Matching base names (base + (names.map weight).sum, token) (name :: names)
  | closing {names : List γ} {name : γ} {token : τ} : label token = .closing name →
      Matching base (name :: names) (base + (names.map weight).sum, token) names
  | other {names : List γ} {token : τ} : label token = .other →
      Matching base names (base + (names.map weight).sum, token) names

variable {label} {weight} {base : Nat} {names : List γ} {tokens : List (Nat × τ)}

-- What is matched by itself is matched behind an opening bracket, as much deeper as that one
-- weighs.
theorem Matching.under (name : γ) (run : Run [] (Matching label weight (base + weight name)) tokens names) :
    Run [name] (Matching label weight base) tokens (names ++ [name]) := by
  induction run with
  | nil => exact .nil
  | @snoc tokens before after entry _ hstep ih =>
      refine ih.snoc ?_
      have hsum : ∀ inner : List γ, base + weight name + (inner.map weight).sum =
          base + ((inner ++ [name]).map weight).sum := by
        intro inner
        rw [List.map_append, List.sum_append, List.map_singleton, List.sum_singleton]
        omega
      cases hstep with
      | opening hlabel =>
          rw [hsum]
          exact .opening hlabel
      | closing hlabel =>
          rw [hsum]
          exact .closing hlabel
      | other hlabel =>
          rw [hsum]
          exact .other hlabel

-- What is matched as far as it goes, behind an opening bracket.
theorem Matching.opened {name : γ} {first : τ} (hfirst : label first = .opening name)
    (run : Run [] (Matching label weight (base + weight name)) tokens names) :
    Run [] (Matching label weight base) ((base, first) :: tokens) (names ++ [name]) :=
  Run.cons (Matching.opening hfirst) (Matching.under name run)

-- A pair of brackets around what is matched.
theorem Matching.enclose {name : γ} {first last : τ} (hfirst : label first = .opening name)
    (hlast : label last = .closing name)
    (run : Run [] (Matching label weight (base + weight name)) tokens []) :
    Run [] (Matching label weight base) ((base, first) :: tokens ++ [(base, last)]) [] :=
  (Matching.opened hfirst run).snoc (Matching.closing hlast)

end Matching

end Library
