import Mathlib.Data.List.Perm.Basic
import Mathlib.Logic.Function.Basic

namespace Library

-- Memory from the base of an array on, with the index of every store made so far.
-- Nothing stops a store past the end of the array; `Within` says that none was made.
structure Buffer (α : Type*) where
  contents : Nat → α
  stored : List Nat

-- A property that each write keeps on a condition of its own holds after a list of
-- writes exactly when it held before and every condition does.
theorem foldl_iff {σ τ : Type*} (P : σ → Prop) (Q : τ → Prop) (write : σ → τ → σ)
    (h : ∀ s t, P (write s t) ↔ P s ∧ Q t) (s : σ) (writes : List τ) :
    P (writes.foldl write s) ↔ P s ∧ ∀ t ∈ writes, Q t := by
  induction writes generalizing s with
  | nil => simp
  | cons t writes ih => rw [List.foldl_cons, ih, h, and_assoc, List.forall_mem_cons]

namespace Buffer

variable {α : Type*}

def filled (a : α) : Buffer α := ⟨fun _ => a, []⟩

def store (buffer : Buffer α) (i : Nat) (a : α) : Buffer α :=
  ⟨Function.update buffer.contents i a, buffer.stored ++ [i]⟩

def memcpy (buffer : Buffer α) (i : Nat) : List α → Buffer α
  | [] => buffer
  | a :: rest => memcpy (buffer.store i a) (i + 1) rest

-- The `count` elements from `i` on.
def slice (buffer : Buffer α) (i count : Nat) : List α :=
  (List.range count).map fun k => buffer.contents (i + k)

def Within (buffer : Buffer α) (size : Nat) : Prop :=
  ∀ i ∈ buffer.stored, i < size

instance (buffer : Buffer α) (size : Nat) : Decidable (buffer.Within size) :=
  inferInstanceAs (Decidable (∀ i ∈ buffer.stored, i < size))

@[simp] theorem filled_stored (a : α) : (filled a).stored = [] := rfl

@[simp] theorem store_contents (buffer : Buffer α) (i : Nat) (a : α) (j : Nat) :
    (buffer.store i a).contents j = if j = i then a else buffer.contents j :=
  Function.update_apply _ _ _ _

@[simp] theorem store_stored (buffer : Buffer α) (i : Nat) (a : α) :
    (buffer.store i a).stored = buffer.stored ++ [i] := rfl

@[simp] theorem memcpy_cons (buffer : Buffer α) (i : Nat) (a : α) (rest : List α) :
    buffer.memcpy i (a :: rest) = (buffer.store i a).memcpy (i + 1) rest := rfl

@[simp] theorem within_filled (a : α) (size : Nat) : (filled a).Within size := by
  simp [Within]

@[simp] theorem within_store_iff (buffer : Buffer α) (i : Nat) (a : α) (size : Nat) :
    (buffer.store i a).Within size ↔ buffer.Within size ∧ i < size := by
  simp only [Within, store_stored, List.mem_append, List.mem_singleton]
  constructor
  · intro h
    exact ⟨fun j hj => h j (Or.inl hj), h i (Or.inr rfl)⟩
  · rintro ⟨h, hi⟩ j (hj | rfl)
    · exact h j hj
    · exact hi

-- Copying `values` keeps inside exactly when the last byte does.
theorem within_memcpy_iff (buffer : Buffer α) (i : Nat) (values : List α) (size : Nat)
    (hne : values ≠ []) :
    (buffer.memcpy i values).Within size ↔ buffer.Within size ∧ i + values.length ≤ size := by
  induction values generalizing buffer i with
  | nil => exact False.elim (hne rfl)
  | cons a rest ih =>
      cases rest with
      | nil => exact within_store_iff buffer i a size
      | cons b rest =>
          rw [memcpy_cons, ih _ _ (by simp), within_store_iff]
          simp only [List.length_cons]
          constructor
          · rintro ⟨⟨h, _⟩, hlen⟩
            exact ⟨h, by omega⟩
          · rintro ⟨h, hlen⟩
            exact ⟨⟨h, by omega⟩, by omega⟩

theorem memcpy_contents_outside (buffer : Buffer α) (i : Nat) (values : List α) (j : Nat)
    (h : j < i ∨ i + values.length ≤ j) :
    (buffer.memcpy i values).contents j = buffer.contents j := by
  induction values generalizing buffer i with
  | nil => rfl
  | cons a rest ih =>
      rw [List.length_cons] at h
      rw [memcpy_cons, ih _ _ (by omega), store_contents, if_neg (by omega)]

theorem memcpy_contents_inside (buffer : Buffer α) (i : Nat) (values : List α) (k : Nat)
    (h : k < values.length) : (buffer.memcpy i values).contents (i + k) = values[k] := by
  induction values generalizing buffer i k with
  | nil => simp at h
  | cons a rest ih =>
      rw [memcpy_cons]
      cases k with
      | zero =>
          rw [memcpy_contents_outside _ _ _ _ (Or.inl (by omega)), store_contents, if_pos (by omega)]
          rfl
      | succ k =>
          rw [← Nat.add_assoc, Nat.add_right_comm, ih _ _ _ (by simpa using h)]
          rfl

-- A list of stores, each of an index and what goes there, made in order.
def storeAll (buffer : Buffer α) (stores : List (Nat × α)) : Buffer α :=
  stores.foldl (fun buffer store => buffer.store store.1 store.2) buffer

theorem storeAll_append (buffer : Buffer α) (stores later : List (Nat × α)) :
    buffer.storeAll (stores ++ later) = (buffer.storeAll stores).storeAll later :=
  List.foldl_append

theorem storeAll_contents_of_not_mem (buffer : Buffer α) {stores : List (Nat × α)} {j : Nat}
    (h : j ∉ stores.map Prod.fst) : (buffer.storeAll stores).contents j = buffer.contents j := by
  induction stores generalizing buffer with
  | nil => rfl
  | cons store stores ih =>
      rw [List.map_cons, List.mem_cons, not_or] at h
      rw [storeAll, List.foldl_cons]
      rw [← storeAll, ih _ h.2, store_contents, if_neg h.1]

-- With no index stored to twice, every store is still there at the end.
theorem storeAll_contents_of_mem (buffer : Buffer α) {stores : List (Nat × α)}
    (hapart : (stores.map Prod.fst).Nodup) {j : Nat} {a : α} (h : (j, a) ∈ stores) :
    (buffer.storeAll stores).contents j = a := by
  induction stores generalizing buffer with
  | nil => simp at h
  | cons store stores ih =>
      rw [List.map_cons, List.nodup_cons] at hapart
      rw [storeAll, List.foldl_cons, ← storeAll]
      rcases List.mem_cons.mp h with hfirst | hlater
      · subst hfirst
        rw [storeAll_contents_of_not_mem _ hapart.1, store_contents, if_pos rfl]
      · exact ih _ hapart.2 hlater

-- Then the order of the stores does not matter.
theorem storeAll_contents_of_perm (buffer : Buffer α) {stores other : List (Nat × α)}
    (hperm : stores.Perm other) (hapart : (stores.map Prod.fst).Nodup) :
    (buffer.storeAll stores).contents = (buffer.storeAll other).contents := by
  funext j
  have hapart' : (other.map Prod.fst).Nodup := (hperm.map Prod.fst).nodup_iff.mp hapart
  by_cases h : j ∈ stores.map Prod.fst
  · obtain ⟨⟨i, a⟩, hmem, rfl⟩ := List.mem_map.mp h
    rw [storeAll_contents_of_mem buffer hapart hmem,
      storeAll_contents_of_mem buffer hapart' (hperm.mem_iff.mp hmem)]
  · have h' : j ∉ other.map Prod.fst := by
      rwa [← (hperm.map Prod.fst).mem_iff]
    rw [storeAll_contents_of_not_mem buffer h, storeAll_contents_of_not_mem buffer h']

theorem slice_congr {buffer other : Buffer α} (h : buffer.contents = other.contents)
    (i count : Nat) : buffer.slice i count = other.slice i count := by
  rw [slice, slice, h]

@[simp] theorem slice_length (buffer : Buffer α) (i count : Nat) :
    (buffer.slice i count).length = count := by
  rw [slice, List.length_map, List.length_range]

theorem slice_memcpy (buffer : Buffer α) (i : Nat) (values : List α) :
    (buffer.memcpy i values).slice i values.length = values := by
  refine List.ext_getElem (slice_length _ _ _) ?_
  intro k _ hk
  simp only [slice, List.getElem_map, List.getElem_range]
  exact memcpy_contents_inside buffer i values k hk

theorem slice_memcpy_outside (buffer : Buffer α) (i : Nat) (values : List α) (j count : Nat)
    (h : j + count ≤ i ∨ i + values.length ≤ j) :
    (buffer.memcpy i values).slice j count = buffer.slice j count := by
  refine List.map_congr_left ?_
  intro k hk
  rw [List.mem_range] at hk
  exact memcpy_contents_outside buffer i values (j + k) (by omega)

end Buffer

end Library
