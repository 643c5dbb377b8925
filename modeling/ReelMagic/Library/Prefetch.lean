import Mathlib.Data.List.Basic

namespace Library

structure Block (α : Type*) where
  position : Nat
  items : List α

-- A reader that keeps two blocks of the data it reads: the one it hands out and one read
-- ahead. The next read starts at the cursor.
structure Prefetch (α : Type*) where
  current : Block α
  next : Block α
  cursor : Nat

namespace Prefetch

variable {α : Type*}

def start : Prefetch α := ⟨⟨0, []⟩, ⟨0, []⟩, 0⟩

def readCurrent (reader : Prefetch α) (items : List α) : Prefetch α :=
  ⟨⟨reader.cursor, items⟩, reader.next, reader.cursor + items.length⟩

def readNext (reader : Prefetch α) (items : List α) : Prefetch α :=
  ⟨reader.current, ⟨reader.cursor, items⟩, reader.cursor + items.length⟩

def rotate (reader : Prefetch α) : Prefetch α :=
  ⟨reader.next, ⟨reader.current.position, []⟩, reader.cursor⟩

def seek (reader : Prefetch α) (position : Nat) : Prefetch α :=
  ⟨⟨reader.current.position, []⟩, ⟨reader.next.position, []⟩, position⟩

-- What the blocks hold is in the data at their positions, the block read ahead follows the
-- current one, and the cursor is at the end of what was read.
structure Follows (reader : Prefetch α) (data : List α) : Prop where
  current : reader.current.items <+: data.drop reader.current.position
  next : reader.next.items <+: data.drop reader.next.position
  inOrder : reader.current.items = [] → reader.next.items = []
  contiguous : reader.next.items ≠ [] →
    reader.next.position = reader.current.position + reader.current.items.length ∧
      reader.cursor = reader.next.position + reader.next.items.length
  cursor : reader.current.items ≠ [] → reader.next.items = [] →
    reader.cursor = reader.current.position + reader.current.items.length

variable {reader : Prefetch α} {data items : List α}

theorem follows_of_empty (reader : Prefetch α) (data : List α) (hc : reader.current.items = [])
    (hn : reader.next.items = []) : reader.Follows data := by
  refine ⟨?_, ?_, fun _ => hn, fun h => absurd hn h, fun h => absurd hc h⟩
  · rw [hc]
    exact List.nil_prefix
  · rw [hn]
    exact List.nil_prefix

theorem follows_seek (reader : Prefetch α) (data : List α) (position : Nat) :
    (reader.seek position).Follows data :=
  follows_of_empty _ _ rfl rfl

-- A read into the current block is right only when both blocks are empty, since what was
-- read ahead would no longer follow it.
theorem Follows.readCurrent (h : reader.Follows data) (hempty : reader.current.items = [])
    (hitems : items <+: data.drop reader.cursor) : (reader.readCurrent items).Follows data := by
  have hn := h.inOrder hempty
  exact ⟨hitems, h.next, fun _ => hn, fun hne => absurd hn hne, fun _ _ => rfl⟩

theorem Follows.readNext (h : reader.Follows data) (hcurrent : reader.current.items ≠ [])
    (hempty : reader.next.items = []) (hitems : items <+: data.drop reader.cursor) :
    (reader.readNext items).Follows data := by
  have hcursor := h.cursor hcurrent hempty
  refine ⟨h.current, hitems, fun hc => absurd hc hcurrent, fun _ => ⟨hcursor, rfl⟩, ?_⟩
  intro _ (hnil : items = [])
  rw [Prefetch.readNext, hnil]
  exact hcursor

theorem Follows.rotate (h : reader.Follows data) (hnext : reader.next.items ≠ []) :
    reader.rotate.Follows data :=
  ⟨h.next, List.nil_prefix, fun _ => rfl, fun hne => absurd rfl hne,
    fun _ _ => (h.contiguous hnext).2⟩

theorem Follows.length_le (h : reader.Follows data) (hne : reader.current.items ≠ []) :
    reader.current.position + reader.current.items.length ≤ data.length := by
  have hlen := h.current.length_le
  rw [List.length_drop] at hlen
  have hpos := List.length_pos_iff.mpr hne
  omega

-- The two requests. `read` says what a read at a position may deliver.
section Requests

variable (read : Nat → List α → Prop)

-- Reading ahead: one read, into the first empty block.
inductive Fills (reader : Prefetch α) : Prefetch α → Prop
  | current {items : List α} :
      reader.current.items = [] → read reader.cursor items → Fills reader (reader.readCurrent items)
  | next {items : List α} :
      reader.current.items ≠ [] → reader.next.items = [] → read reader.cursor items →
        Fills reader (reader.readNext items)
  | full : reader.current.items ≠ [] → reader.next.items ≠ [] → Fills reader reader

-- Making the block at `position` the current one.
inductive Selects (position : Nat) (reader : Prefetch α) : Prefetch α → Prop
  | same : reader.current.position = position → Selects position reader reader
  | rotated :
      reader.current.position ≠ position → reader.next.position = position →
        reader.next.items ≠ [] → Selects position reader reader.rotate
  | reset {items : List α} :
      reader.current.position ≠ position →
        ¬(reader.next.position = position ∧ reader.next.items ≠ []) → read position items →
          Selects position reader ((reader.seek position).readCurrent items)

end Requests

section Reads

variable {read : Nat → List α → Prop} {next : Prefetch α} {position : Nat}

-- Whatever block is current afterwards is labelled with the position asked for.
theorem Selects.position_eq (step : Selects read position reader next) :
    next.current.position = position := by
  cases step with
  | same h => exact h
  | rotated _ h _ => exact h
  | reset => rfl

variable (hread : ∀ position items, read position items → items <+: data.drop position)

include hread

theorem Follows.fills (h : reader.Follows data)
    (step : Fills read reader next) : next.Follows data := by
  cases step with
  | current hempty hitems => exact h.readCurrent hempty (hread _ _ hitems)
  | next hcurrent hempty hitems => exact h.readNext hcurrent hempty (hread _ _ hitems)
  | full => exact h

theorem Follows.selects (h : reader.Follows data)
    (step : Selects read position reader next) : next.Follows data := by
  cases step with
  | same => exact h
  | rotated _ _ hnext => exact h.rotate hnext
  | reset _ _ hitems => exact (follows_seek _ _ _).readCurrent rfl (hread _ _ hitems)

end Reads

-- Handing the data out in order: the first `total` items are out. Either the current block
-- is the last one handed out, or it is the one to hand out next.
structure Plays (reader : Prefetch α) (data : List α) (total : Nat) : Prop where
  follows : reader.Follows data
  position : (reader.current.items ≠ [] ∧
      reader.current.position + reader.current.items.length = total) ∨
    (reader.current.position = total ∧
      (reader.current.items = [] → data.length ≤ total ∧ reader.cursor = total))

section Playback

variable {read : Nat → List α → Prop} {next : Prefetch α} {total : Nat}
  (hread : ∀ position items, read position items → items <+: data.drop position)
  (hprogress : ∀ position items, read position items → position < data.length → items ≠ [])

include hread hprogress

theorem plays_of_read (hfollows : reader.Follows data)
    (hempty : reader.current.items = []) (hitems : read reader.cursor items) :
    (reader.readCurrent items).Plays data reader.cursor := by
  refine ⟨hfollows.readCurrent hempty (hread _ _ hitems), Or.inr ⟨rfl, ?_⟩⟩
  intro (hnil : items = [])
  have hlen : ¬reader.cursor < data.length := fun h => hprogress _ _ hitems h hnil
  refine ⟨by omega, ?_⟩
  show reader.cursor + items.length = reader.cursor
  rw [hnil, List.length_nil, Nat.add_zero]

theorem Plays.fills (h : reader.Plays data total)
    (step : Fills read reader next) : next.Plays data total := by
  have hfollows := h.follows.fills hread step
  cases step with
  | current hempty hitems =>
      rcases h.position with ⟨hne, _⟩ | ⟨_, hend⟩
      · exact absurd hempty hne
      · have hplays := plays_of_read hread hprogress h.follows hempty hitems
        rw [(hend hempty).2] at hplays
        exact hplays
  | next hcurrent _ _ =>
      rcases h.position with hlast | ⟨hposition, _⟩
      · exact ⟨hfollows, Or.inl hlast⟩
      · exact ⟨hfollows, Or.inr ⟨hposition, fun hnil => absurd hnil hcurrent⟩⟩
  | full => exact h

-- A request for what comes next gets a block while there is data left.
theorem Plays.selects (h : reader.Plays data total)
    (step : Selects read total reader next) :
    (total < data.length → next.current.items ≠ []) ∧
      next.Plays data (total + next.current.items.length) := by
  have hfollows := h.follows.selects hread step
  have hposition := step.position_eq
  have hend : next.current.items = [] → data.length ≤ total ∧ next.cursor = total := by
    cases step with
    | same =>
        rcases h.position with ⟨hne, hlast⟩ | ⟨_, hend⟩
        · have hpos := List.length_pos_iff.mpr hne
          omega
        · exact hend
    | rotated _ _ hnext => exact fun hnil => absurd hnil hnext
    | reset _ _ hitems =>
        have hplays := plays_of_read hread hprogress (follows_seek reader data total) rfl hitems
        rcases hplays.position with ⟨hne, _⟩ | ⟨_, hend⟩
        · exact fun hnil => absurd hnil hne
        · exact hend
  by_cases hnil : next.current.items = []
  · obtain ⟨hlen, hcursor⟩ := hend hnil
    refine ⟨fun h => absurd h (by omega), hfollows, Or.inr ?_⟩
    rw [hnil, List.length_nil, Nat.add_zero]
    exact ⟨hposition, fun _ => ⟨hlen, hcursor⟩⟩
  · exact ⟨fun _ => hnil, hfollows, Or.inl ⟨hnil, by rw [hposition]⟩⟩

end Playback

end Prefetch

end Library
