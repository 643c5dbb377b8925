import Mathlib.Data.List.Basic

namespace Library

-- A self-delimiting encoding: `next` takes one item off the front of a stream,
-- and succeeds exactly on the streams that start with an encoded item.
structure Frames (α β : Type*) where
  encode : β → List α
  next : List α → Option (β × List α)
  next_eq_some_iff : ∀ stream item rest,
    next stream = some (item, rest) ↔ stream = encode item ++ rest

namespace Frames

variable {α β : Type*} (frames : Frames α β)

def encodeAll (items : List β) : List α :=
  items.flatMap frames.encode

-- At most `count` items off the front, and what follows them.
def leading : Nat → List α → List β × List α
  | 0, stream => ([], stream)
  | count + 1, stream =>
      match frames.next stream with
      | none => ([], stream)
      | some (item, rest) => (item :: (leading count rest).1, (leading count rest).2)

@[simp] theorem encodeAll_cons (item : β) (items : List β) :
    frames.encodeAll (item :: items) = frames.encode item ++ frames.encodeAll items := rfl

theorem next_encode (item : β) (rest : List α) :
    frames.next (frames.encode item ++ rest) = some (item, rest) :=
  (frames.next_eq_some_iff _ _ _).mpr rfl

theorem leading_append (count : Nat) (stream : List α) :
    stream = frames.encodeAll (frames.leading count stream).1 ++ (frames.leading count stream).2 := by
  induction count generalizing stream with
  | zero => rfl
  | succ count ih =>
      simp only [leading]
      split
      · rfl
      · rename_i item rest hn
        rw [encodeAll_cons, List.append_assoc, ← ih rest]
        exact (frames.next_eq_some_iff _ _ _).mp hn

theorem leading_length_le (count : Nat) (stream : List α) :
    (frames.leading count stream).1.length ≤ count := by
  induction count generalizing stream with
  | zero => simp [leading]
  | succ count ih =>
      simp only [leading]
      split
      · simp
      · simpa using ih _

-- Nothing longer can be taken: every list of items that starts the stream is a
-- prefix of the leading ones.
theorem prefix_leading {count : Nat} {items : List β} {stream rest : List α}
    (hlen : items.length ≤ count) (h : stream = frames.encodeAll items ++ rest) :
    items <+: (frames.leading count stream).1 := by
  induction items generalizing count stream with
  | nil => exact List.nil_prefix
  | cons item items ih =>
      cases count with
      | zero => simp at hlen
      | succ count =>
          have hn : frames.next stream = some (item, frames.encodeAll items ++ rest) := by
            rw [frames.next_eq_some_iff, h, encodeAll_cons, List.append_assoc]
          simp only [leading, hn]
          exact (List.cons_prefix_cons).mpr ⟨rfl, ih (by simpa using hlen) rfl⟩

theorem leading_encodeAll_append (items : List β) (rest : List α) :
    frames.leading items.length (frames.encodeAll items ++ rest) = (items, rest) := by
  induction items with
  | nil => rfl
  | cons item items ih =>
      simp only [List.length_cons, leading, encodeAll_cons, List.append_assoc, next_encode, ih]

end Frames

section Cut

variable {α β : Type*} (encode : β → List α)

-- The items that are over before `n` elements of the encoded stream are.
def whole (n : Nat) : List β → List β
  | [] => []
  | item :: items =>
      if (encode item).length ≤ n then item :: whole (n - (encode item).length) items else []

-- What is left of an item that was cut short.
def IsCut (tail : List α) : Prop :=
  tail = [] ∨ ∃ item n, n < (encode item).length ∧ tail = (encode item).take n

-- A stream cut at any point is its whole items and what is left of the next.
theorem take_flatMap (n : Nat) (items : List β) :
    ∃ tail, (items.flatMap encode).take n = (whole encode n items).flatMap encode ++ tail ∧
      IsCut encode tail := by
  induction items generalizing n with
  | nil => exact ⟨[], List.take_nil, Or.inl rfl⟩
  | cons item items ih =>
      rw [whole, List.flatMap_cons, List.take_append]
      split
      · rename_i hle
        obtain ⟨tail, htail, hcut⟩ := ih (n - (encode item).length)
        refine ⟨tail, ?_, hcut⟩
        rw [List.take_of_length_le hle, htail, List.flatMap_cons, List.append_assoc]
      · rename_i hlt
        refine ⟨(encode item).take n, ?_, Or.inr ⟨item, n, by omega, rfl⟩⟩
        have hzero : n - (encode item).length = 0 := by omega
        rw [hzero, List.take_zero, List.append_nil, List.flatMap_nil, List.nil_append]

theorem whole_map {γ : Type*} (f : γ → β) (n : Nat) (items : List γ) :
    whole encode n (items.map f) = (whole (fun item => encode (f item)) n items).map f := by
  induction items generalizing n with
  | nil => rfl
  | cons item items ih =>
      rw [List.map_cons, whole, whole]
      split
      · rw [List.map_cons, ih]
      · rfl

-- A stream that has been cut short stops inside the item after its whole ones.
theorem exists_cut_item {n : Nat} {items : List β} (h : n < (items.flatMap encode).length) :
    ∃ item rest left, items = whole encode n items ++ item :: rest ∧
      left < (encode item).length ∧
      n = ((whole encode n items).flatMap encode).length + left ∧
      (items.flatMap encode).take n =
        (whole encode n items).flatMap encode ++ (encode item).take left := by
  induction items generalizing n with
  | nil =>
      rw [List.flatMap_nil, List.length_nil] at h
      omega
  | cons item items ih =>
      rw [List.flatMap_cons, List.length_append] at h
      rw [whole, List.flatMap_cons, List.take_append]
      split
      · rename_i hle
        obtain ⟨next, rest, left, hitems, hleft, hn, htake⟩ :=
          ih (show n - (encode item).length < (items.flatMap encode).length by omega)
        refine ⟨next, rest, left, ?_, hleft, ?_, ?_⟩
        · rw [List.cons_append, ← hitems]
        · rw [List.flatMap_cons, List.length_append]
          omega
        · rw [List.take_of_length_le hle, htake, List.flatMap_cons, List.append_assoc]
      · rename_i hlt
        have hzero : n - (encode item).length = 0 := by omega
        refine ⟨item, items, n, rfl, by omega, by simp, ?_⟩
        rw [hzero, List.take_zero, List.append_nil, List.flatMap_nil, List.nil_append]

-- Of an item that is appended to a stream only the first elements may be stored.
def stored (entry : β × Nat) : List α :=
  (encode entry.1).take entry.2

def Torn (entry : β × Nat) : Prop :=
  stored encode entry ≠ [] ∧ stored encode entry ≠ encode entry.1

instance [DecidableEq α] (entry : β × Nat) : Decidable (Torn encode entry) :=
  inferInstanceAs (Decidable (_ ∧ _))

-- What stands in a stream in which nothing comes after an item that was torn: some of the
-- items, each of them whole, and what is left of one more.
theorem flatMap_stored {entries : List (β × Nat)}
    (h : entries.Pairwise fun earlier later => Torn encode earlier → stored encode later = []) :
    ∃ (items : List β) (tail : List α),
      entries.flatMap (stored encode) = items.flatMap encode ++ tail ∧
      items.Sublist (entries.map Prod.fst) ∧ IsCut encode tail := by
  induction entries with
  | nil => exact ⟨[], [], rfl, List.Sublist.refl _, Or.inl rfl⟩
  | cons entry entries ih =>
      obtain ⟨hlater, hentries⟩ := List.pairwise_cons.mp h
      obtain ⟨items, tail, heq, hsub, hcut⟩ := ih hentries
      rw [List.flatMap_cons, List.map_cons]
      by_cases hnil : stored encode entry = []
      · refine ⟨items, tail, ?_, hsub.cons _, hcut⟩
        rw [hnil, heq, List.nil_append]
      · by_cases hwhole : stored encode entry = encode entry.1
        · refine ⟨entry.1 :: items, tail, ?_, hsub.cons_cons _, hcut⟩
          rw [hwhole, heq, List.flatMap_cons, List.append_assoc]
        · have hrest : entries.flatMap (stored encode) = [] := by
            rw [List.flatMap_eq_nil_iff]
            exact fun later hmem => hlater later hmem ⟨hnil, hwhole⟩
          have hlt : entry.2 < (encode entry.1).length := by
            rw [← Nat.not_le]
            exact fun hle => hwhole (List.take_of_length_le hle)
          refine ⟨[], stored encode entry, ?_, List.nil_sublist _, Or.inr ⟨entry.1, entry.2, hlt, rfl⟩⟩
          rw [hrest, List.append_nil, List.flatMap_nil, List.nil_append]

end Cut

end Library
