import ReelMagic.Analyze.RoundTrip
import ReelMagic.Library.Runs

namespace ReelMagic.Analyze

open Library ReelMagic.Recorder

-- An event with what DOS makes of its appends, one or two.
structure Appended where
  event : Event
  append : Append
  append' : Append

def Appended.appends (appended : Appended) : List (Record × Nat) :=
  appended.event.appends appended.append appended.append'

-- The recorder from its installation on, and what it has come to after some events.
def Recording : List Appended → Statics → Prop :=
  Run .start fun s appended next => record appended.append appended.append' s appended.event = next

def emitted (events : List Appended) : List Record :=
  events.flatMap (·.event.records)

-- Records may be missing, but what is printed was recorded, in this order.
def ReadsBack (w : Nat) (records : List Record) (log : List UInt8) : Prop :=
  ((analyze w log).map Line.entry).Sublist (records.map entryOf)

-- Nothing is stored behind a record of which some bytes, but not all, were stored.
def NothingAfterTorn (events : List Appended) : Prop :=
  (events.flatMap Appended.appends).Pairwise fun earlier later =>
    Torn Record.toBytes earlier → stored Record.toBytes later = []

instance (events : List Appended) : Decidable (NothingAfterTorn events) :=
  inferInstanceAs (Decidable (List.Pairwise _ _))

theorem Recording.log {events : List Appended} {s : Statics} (run : Recording events s) :
    s.log = (events.flatMap Appended.appends).flatMap (stored Record.toBytes) := by
  refine run.invariant (fun events s =>
    s.log = (events.flatMap Appended.appends).flatMap (stored Record.toBytes)) rfl ?_
  rintro events s appended _ ih rfl
  rw [record_appends_log, ih, List.flatMap_append, List.flatMap_append, List.flatMap_singleton]
  rfl

theorem emitted_eq_appends (events : List Appended) :
    emitted events = (events.flatMap Appended.appends).map Prod.fst := by
  rw [List.map_flatMap, emitted]
  refine List.flatMap_congr fun appended _ => ?_
  exact (appended.event.appends_records appended.append appended.append').symm

-- The log is cut at its end at most: a record that was torn is the last of it.
theorem readsBack_of_nothingAfterTorn (w : Nat) {events : List Appended} {s : Statics}
    (run : Recording events s) (h : NothingAfterTorn events) :
    ReadsBack w (emitted events) s.log := by
  obtain ⟨items, tail, hlog, hsub, hcut⟩ := flatMap_stored Record.toBytes h
  have hlines : (analyze w s.log).map Line.entry = items.map entryOf := by
    rw [run.log, hlog]
    exact decodeLoop_records items tail hcut ⟨[], 0, []⟩
  rw [ReadsBack, hlines, emitted_eq_appends]
  exact hsub.map entryOf

-- The disk fills up in the middle of the record of an exit. What comes of the next append?
def fullDisk (later : Append) : List Appended :=
  [⟨.rmdevsysCallEnter ⟨0x9800, 1, 2, 3⟩, .full, .full⟩,
    ⟨.rmdevsysCallExit ⟨4, 5, 6, 7⟩, .stored 4, .full⟩,
    ⟨.rmdevsysCallEnter ⟨0x9801, 8, 9, 10⟩, later, .full⟩]

theorem readsBack_fullDisk_openFailed : ∃ s, Recording (fullDisk .openFailed) s ∧
    ReadsBack 16 (emitted (fullDisk .openFailed)) s.log := by
  have run : Recording (fullDisk .openFailed) _ := .snoc (.snoc (.snoc .nil rfl) rfl) rfl
  exact ⟨_, run, readsBack_of_nothingAfterTorn 16 run (by decide)⟩

-- With space again, the line of the exit has its AX from the exit and all else from the call.
theorem not_readsBack_fullDisk : ∃ s, Recording (fullDisk .full) s ∧
    ¬ReadsBack 16 (emitted (fullDisk .full)) s.log := by
  have run : Recording (fullDisk .full) _ := .snoc (.snoc (.snoc .nil rfl) rfl) rfl
  refine ⟨_, run, ?_⟩
  have hlines : analyze 16 (((fullDisk .full).flatMap Appended.appends).flatMap
      (stored Record.toBytes)) =
        [⟨0, .rmdevsysCall 0x9800 1 2 3⟩, ⟨0, .rmdevsysReturn 4 0x2F00 0x9801 8⟩] := by
    rw [analyze, decodeLoop_of_some rfl, decodeLoop_of_some rfl, decodeLoop_of_none rfl]
    rfl
  rw [run.log, ReadsBack, hlines]
  decide

end ReelMagic.Analyze
