import Mathlib.Data.List.Basic

namespace Library.Lines

variable {α : Type*} [DecidableEq α] (newline : α)

-- Up to a newline, and at most `room` characters, with what is left of the stream.
def takeLine : Nat → List α → List α × List α
  | 0, stream => ([], stream)
  | _ + 1, [] => ([], [])
  | room + 1, c :: stream =>
      if c = newline then ([c], stream)
      else (c :: (takeLine room stream).1, (takeLine room stream).2)

-- `fgets` into a buffer of `size` characters, one of which is for the NUL.
def fgets (size : Nat) (stream : List α) : Option (List α × List α) :=
  if stream = [] then none else some (takeLine newline (size - 1) stream)

-- The lines of a text, each with the newline that ends it.
def lines : List α → List (List α)
  | [] => []
  | c :: text =>
      if c = newline then [c] :: lines text
      else
        match lines text with
        | [] => [[c]]
        | line :: rest => (c :: line) :: rest

-- What `lines` makes of a text: only the last line may lack its newline.
inductive Lined : List (List α) → Prop
  | nil : Lined []
  | last {line : List α} : line ≠ [] → newline ∉ line → Lined [line]
  | cons {line : List α} {rest : List (List α)} :
      newline ∉ line → Lined rest → Lined ((line ++ [newline]) :: rest)

theorem takeLine_append (room : Nat) (stream : List α) :
    (takeLine newline room stream).1 ++ (takeLine newline room stream).2 = stream := by
  induction stream generalizing room with
  | nil => cases room <;> rfl
  | cons c stream ih =>
      cases room with
      | zero => rfl
      | succ room =>
          rw [takeLine]
          split
          · rfl
          · rw [List.cons_append, ih]

theorem takeLine_length_le (room : Nat) (stream : List α) :
    (takeLine newline room stream).1.length ≤ room := by
  induction stream generalizing room with
  | nil => cases room <;> exact Nat.zero_le _
  | cons c stream ih =>
      cases room with
      | zero => exact Nat.le_refl _
      | succ room =>
          have hle := ih room
          rw [takeLine]
          split
          · rw [List.length_singleton]
            omega
          · rw [List.length_cons]
            omega

theorem fgets_spec {size : Nat} {stream chunk rest : List α}
    (h : fgets newline size stream = some (chunk, rest)) :
    stream = chunk ++ rest ∧ chunk.length ≤ size - 1 := by
  unfold fgets at h
  split at h
  · cases h
  · have happend := takeLine_append newline (size - 1) stream
    have hlength := takeLine_length_le newline (size - 1) stream
    rw [Option.some.inj h] at happend hlength
    exact ⟨happend.symm, hlength⟩

theorem fgets_rest_lt {size : Nat} {stream chunk rest : List α} (hsize : 1 < size)
    (h : fgets newline size stream = some (chunk, rest)) : rest.length < stream.length := by
  obtain ⟨hstream, _⟩ := fgets_spec newline h
  have hchunk : chunk ≠ [] := by
    unfold fgets at h
    split at h
    · cases h
    · rename_i hne
      obtain ⟨c, stream', rfl⟩ := List.exists_cons_of_ne_nil hne
      obtain ⟨room, hroom⟩ : ∃ room, size - 1 = room + 1 := ⟨size - 2, by omega⟩
      rw [hroom, takeLine] at h
      split at h
      · obtain ⟨rfl, _⟩ := Prod.mk.inj (Option.some.inj h)
        exact List.cons_ne_nil _ _
      · obtain ⟨rfl, _⟩ := Prod.mk.inj (Option.some.inj h)
        exact List.cons_ne_nil _ _
  have hpos := List.length_pos_of_ne_nil hchunk
  rw [hstream, List.length_append]
  omega

theorem lines_append_newline {line : List α} (h : newline ∉ line) (text : List α) :
    lines newline (line ++ newline :: text) = (line ++ [newline]) :: lines newline text := by
  induction line with
  | nil => rw [List.nil_append, lines, if_pos rfl, List.nil_append]
  | cons c line ih =>
      obtain ⟨hc, hline⟩ := not_or.mp (mt List.mem_cons.mpr h)
      rw [List.cons_append, lines, if_neg (Ne.symm hc), ih hline]
      rfl

theorem lines_of_not_mem {line : List α} (hne : line ≠ []) (h : newline ∉ line) :
    lines newline line = [line] := by
  induction line with
  | nil => exact absurd rfl hne
  | cons c line ih =>
      obtain ⟨hc, hline⟩ := not_or.mp (mt List.mem_cons.mpr h)
      rw [lines, if_neg (Ne.symm hc)]
      cases line with
      | nil => rfl
      | cons d line => rw [ih (List.cons_ne_nil _ _) hline]

theorem lines_flatten {parts : List (List α)} (h : Lined newline parts) :
    lines newline parts.flatten = parts := by
  induction h with
  | nil => rfl
  | last hne hline => rw [List.flatten_singleton, lines_of_not_mem newline hne hline]
  | cons hline _ ih =>
      rw [List.flatten_cons, List.append_assoc, List.singleton_append,
        lines_append_newline newline hline, ih]

omit [DecidableEq α] in
theorem lined_map_newline {parts : List (List α)} (h : ∀ line ∈ parts, newline ∉ line) :
    Lined newline (parts.map (· ++ [newline])) := by
  induction parts with
  | nil => exact .nil
  | cons line parts ih =>
      obtain ⟨hline, hparts⟩ := List.forall_mem_cons.mp h
      exact .cons hline (ih hparts)

-- Lines that were printed one after the other are read back as they were.
theorem lines_flatMap_newline {parts : List (List α)} (h : ∀ line ∈ parts, newline ∉ line) :
    (lines newline (parts.flatMap (· ++ [newline]))).map List.dropLast = parts := by
  rw [List.flatMap_def, lines_flatten newline (lined_map_newline newline h), List.map_map]
  conv_rhs => rw [← List.map_id parts]
  apply List.map_congr_left
  intro line _
  exact List.dropLast_concat

-- Every text is a list of lines put together.
theorem exists_lined (text : List α) : ∃ parts, Lined newline parts ∧ text = parts.flatten := by
  induction text with
  | nil => exact ⟨[], .nil, rfl⟩
  | cons c text ih =>
      obtain ⟨parts, hparts, rfl⟩ := ih
      by_cases hc : c = newline
      · refine ⟨([] ++ [newline]) :: parts, .cons List.not_mem_nil hparts, ?_⟩
        rw [hc]
        rfl
      · cases hparts with
        | nil =>
            refine ⟨[[c]], .last (List.cons_ne_nil _ _) ?_, rfl⟩
            rw [List.mem_singleton]
            exact Ne.symm hc
        | @last line hne hline =>
            refine ⟨[c :: line], .last (List.cons_ne_nil _ _) ?_, rfl⟩
            exact mt List.mem_cons.mp (not_or.mpr ⟨Ne.symm hc, hline⟩)
        | @cons line rest hline hrest =>
            exact ⟨(c :: line ++ [newline]) :: rest,
              .cons (mt List.mem_cons.mp (not_or.mpr ⟨Ne.symm hc, hline⟩)) hrest, rfl⟩

theorem lined_lines (text : List α) : Lined newline (lines newline text) := by
  obtain ⟨parts, hparts, rfl⟩ := exists_lined newline text
  rw [lines_flatten newline hparts]
  exact hparts

theorem flatten_lines (text : List α) : (lines newline text).flatten = text := by
  obtain ⟨parts, hparts, rfl⟩ := exists_lined newline text
  rw [lines_flatten newline hparts]

omit [DecidableEq α] in
theorem Lined.tail {line : List α} {rest : List (List α)} (h : Lined newline (line :: rest)) :
    Lined newline rest := by
  cases h with
  | last => exact .nil
  | cons _ hrest => exact hrest

-- A line may be taken out.
omit [DecidableEq α] in
theorem Lined.delete {before after : List (List α)} {line : List α}
    (h : Lined newline (before ++ line :: after)) : Lined newline (before ++ after) := by
  induction before with
  | nil => exact h.tail
  | cons first before ih =>
      rw [List.cons_append] at h ⊢
      generalize hparts : before ++ line :: after = parts at h ih
      cases h with
      | last => exact absurd hparts (List.append_ne_nil_of_right_ne_nil _ (List.cons_ne_nil _ _))
      | cons hline hrest => exact .cons hline (ih hrest)

theorem takeLine_newline {room : Nat} {line : List α} (h : newline ∉ line)
    (hroom : line.length < room) (text : List α) :
    takeLine newline room (line ++ newline :: text) = (line ++ [newline], text) := by
  induction line generalizing room with
  | nil =>
      obtain ⟨room, rfl⟩ : ∃ k, room = k + 1 := ⟨room - 1, by omega⟩
      rw [List.nil_append, takeLine, if_pos rfl, List.nil_append]
  | cons c line ih =>
      obtain ⟨room, rfl⟩ : ∃ k, room = k + 1 := ⟨room - 1, by omega⟩
      obtain ⟨hc, hline⟩ := not_or.mp (mt List.mem_cons.mpr h)
      rw [List.length_cons] at hroom
      rw [List.cons_append, takeLine, if_neg (Ne.symm hc), ih hline (by omega)]
      rfl

theorem takeLine_of_not_mem {room : Nat} {line : List α} (h : newline ∉ line)
    (hroom : line.length ≤ room) : takeLine newline room line = (line, []) := by
  induction line generalizing room with
  | nil => cases room <;> rfl
  | cons c line ih =>
      obtain ⟨hc, hline⟩ := not_or.mp (mt List.mem_cons.mpr h)
      rw [List.length_cons] at hroom
      obtain ⟨room, rfl⟩ : ∃ k, room = k + 1 := ⟨room - 1, by omega⟩
      rw [takeLine, if_neg (Ne.symm hc), ih hline (by omega)]

-- A line that does not fit is cut.
theorem takeLine_long {room : Nat} {line : List α} (h : newline ∉ line) (hroom : line.length = room)
    (text : List α) : takeLine newline room (line ++ text) = (line, text) := by
  induction line generalizing room with
  | nil =>
      obtain rfl : room = 0 := hroom.symm
      rfl
  | cons c line ih =>
      obtain ⟨hc, hline⟩ := not_or.mp (mt List.mem_cons.mpr h)
      rw [List.length_cons] at hroom
      obtain rfl := hroom
      rw [List.cons_append, takeLine, if_neg (Ne.symm hc), ih hline rfl]

-- A line that fits is read whole.
theorem fgets_first {size : Nat} {text line : List α} {rest : List (List α)}
    (h : lines newline text = line :: rest) (hfit : line.length ≤ size - 1) :
    fgets newline size text = some (line, rest.flatten) := by
  have hlined := lined_lines newline text
  have htext := flatten_lines newline text
  rw [h] at hlined htext
  have hne : text ≠ [] := by
    rintro rfl
    cases h
  rw [fgets, if_neg hne, ← htext, List.flatten_cons]
  cases hlined with
  | last _ hline => rw [List.flatten_nil, List.append_nil, takeLine_of_not_mem newline hline hfit]
  | cons hline _ =>
      rw [List.length_append, List.length_singleton] at hfit
      rw [List.append_assoc, List.singleton_append, takeLine_newline newline hline (by omega)]

-- What is read does not depend on how much of the rest is there.
theorem takeLine_cut {room : Nat} {stream chunk rest kept : List α}
    (h : takeLine newline room stream = (chunk, rest)) (hkept : kept <+: rest) :
    takeLine newline room (chunk ++ kept) = (chunk, kept) := by
  induction stream generalizing room chunk with
  | nil =>
      have hnil : chunk = [] ∧ rest = [] := by
        cases room with
        | zero => exact ⟨(Prod.mk.inj h).1.symm, (Prod.mk.inj h).2.symm⟩
        | succ room => exact ⟨(Prod.mk.inj h).1.symm, (Prod.mk.inj h).2.symm⟩
      obtain ⟨rfl, rfl⟩ := hnil
      obtain rfl := List.prefix_nil.mp hkept
      cases room <;> rfl
  | cons c stream ih =>
      cases room with
      | zero =>
          obtain ⟨rfl, _⟩ := Prod.mk.inj h
          rfl
      | succ room =>
          rw [takeLine] at h
          split at h
          · rename_i hc
            obtain ⟨rfl, rfl⟩ := Prod.mk.inj h
            rw [List.singleton_append, takeLine, if_pos hc]
          · rename_i hc
            obtain ⟨rfl, rfl⟩ := Prod.mk.inj h
            rw [List.cons_append, takeLine, if_neg hc, ih rfl]

theorem fgets_cut {size : Nat} {stream chunk rest kept : List α} (hsize : 1 < size)
    (h : fgets newline size stream = some (chunk, rest)) (hkept : kept <+: rest) :
    fgets newline size (chunk ++ kept) = some (chunk, kept) := by
  have hlt := fgets_rest_lt newline hsize h
  obtain ⟨hstream, _⟩ := fgets_spec newline h
  have hne : chunk ++ kept ≠ [] := by
    intro hnil
    obtain ⟨rfl, _⟩ := List.append_eq_nil_iff.mp hnil
    rw [hstream] at hlt
    exact absurd hlt (Nat.lt_irrefl _)
  unfold fgets at h
  split at h
  · cases h
  · rw [fgets, if_neg hne, takeLine_cut newline (Option.some.inj h) hkept]

theorem fgets_eq_none_iff (size : Nat) (text : List α) :
    fgets newline size text = none ↔ text = [] := by
  unfold fgets
  split
  · rename_i h
    exact ⟨fun _ => h, fun _ => rfl⟩
  · rename_i h
    exact ⟨fun hnone => absurd hnone (Option.some_ne_none _), fun hnil => absurd hnil h⟩

end Library.Lines
