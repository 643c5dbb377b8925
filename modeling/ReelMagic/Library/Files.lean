import Mathlib.Logic.Function.Basic

namespace Library

structure OpenFile (α : Type*) where
  data : List α
  position : Nat

-- The files a system holds open, by handle.
structure Files (α : Type*) where
  table : Nat → Option (OpenFile α)

namespace Files

variable {α : Type*}

def none : Files α := ⟨fun _ => .none⟩

def IsOpen (files : Files α) (handle : Nat) : Prop :=
  files.table handle ≠ .none

def openAt (files : Files α) (handle : Nat) (data : List α) : Files α :=
  ⟨Function.update files.table handle (some ⟨data, 0⟩)⟩

def close (files : Files α) (handle : Nat) : Files α :=
  ⟨Function.update files.table handle .none⟩

def seek (files : Files α) (handle position : Nat) : Files α :=
  ⟨Function.update files.table handle
    ((files.table handle).map fun file => { file with position })⟩

-- A read of `count` elements. It may deliver fewer: at most `limit`, and never more
-- than there are up to the end of the file. With no limit given, and on a handle that
-- is not open, it fails and leaves the position alone.
def read (files : Files α) (handle count : Nat) (limit : Option Nat) : List α × Files α :=
  match files.table handle, limit with
  | some file, some limit =>
      let items := (file.data.drop file.position).take (min limit count)
      (items, ⟨Function.update files.table handle
        (some { file with position := file.position + items.length })⟩)
  | _, _ => ([], files)

theorem openAt_table (files : Files α) (handle : Nat) (data : List α) (other : Nat) :
    (files.openAt handle data).table other =
      if other = handle then some ⟨data, 0⟩ else files.table other :=
  Function.update_apply _ _ _ _

theorem seek_table (files : Files α) (handle position other : Nat) (data : List α) (old : Nat)
    (h : files.table handle = some ⟨data, old⟩) :
    (files.seek handle position).table other =
      if other = handle then some ⟨data, position⟩ else files.table other := by
  rw [seek, h, Option.map_some]
  exact Function.update_apply _ _ _ _

-- A read delivers what stands at the position and moves past it. A failed one does so
-- with nothing delivered.
theorem read_spec (files : Files α) (handle count : Nat) (limit : Option Nat) (data : List α)
    (position : Nat) (h : files.table handle = some ⟨data, position⟩) :
    ∃ items, (files.read handle count limit).1 = items ∧ items.length ≤ count ∧
      items = (data.drop position).take items.length ∧
      ∀ other, (files.read handle count limit).2.table other =
        if other = handle then some ⟨data, position + items.length⟩ else files.table other := by
  refine ⟨_, rfl, ?_⟩
  cases limit with
  | none =>
      simp only [read, h, List.length_nil, Nat.zero_le, List.take_zero, Nat.add_zero, true_and]
      intro other
      split
      · rename_i ho
        rw [ho, h]
      · rfl
  | some limit =>
      simp only [read, h]
      refine ⟨?_, ?_, fun other => Function.update_apply _ _ _ _⟩
      · rw [List.length_take]
        omega
      · rw [List.length_take, List.take_eq_take_iff]
        omega

-- With nothing to limit it a read delivers all it was asked for, up to the end of the file.
theorem read_full (files : Files α) (handle count limit : Nat) (data : List α) (position : Nat)
    (h : files.table handle = some ⟨data, position⟩) (hl : count ≤ limit) :
    (files.read handle count (some limit)).1 = (data.drop position).take count := by
  simp only [read, h, Nat.min_eq_right hl]

end Files

end Library
