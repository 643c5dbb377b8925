import ReelMagic.Analyze.Indentation
import ReelMagic.Recorder.Hook
import ReelMagic.Recorder.Session

namespace ReelMagic.Analyze

open Library Library.Bytes Library.Stdio ReelMagic.Recorder

variable {w : Nat}

-- The records of an event, each with the number of calls around it, where `level` calls are
-- open before the event.
def entriesAt (level : Nat) : Event → List (Nat × Record)
  | .fmpdrvCallEnter regs filename =>
      (level, .fmpdrvCallEnter regs) ::
        if regs.bx >>> 8 = 1 then [(level + 1, .filename filename)] else []
  | .fmpdrvCallExit regs => [(level - 1, .fmpdrvCallExit regs)]
  | .rmdevsysCallEnter regs => [(level, .rmdevsysCallEnter regs)]
  | .rmdevsysCallExit regs => [(level - 1, .rmdevsysCallExit regs)]
  | .callbackEnter regs callargs => [(level, .callbackRegs regs), (level, .callbackStack callargs)]

-- A step, with the records it writes, that leaves no more than `limit` calls open.
def Writes (limit : Nat) (s : Session) (label : Deed × List (Nat × Record)) (next : Session) : Prop :=
  s.Step label.1 next ∧ label.2 = label.1.events.flatMap (entriesAt s.calls.length) ∧
    next.calls.length ≤ limit

theorem entriesAt_records (level : Nat) (event : Event) :
    (entriesAt level event).map Prod.snd = event.records := by
  cases event with
  | fmpdrvCallEnter regs filename =>
      simp only [entriesAt, Event.records, List.map_cons]
      split
      · rfl
      · rfl
  | fmpdrvCallExit | rmdevsysCallEnter | rmdevsysCallExit | callbackEnter => rfl

theorem flatMap_entriesAt_records (level : Nat) (events : List Event) :
    (events.flatMap (entriesAt level)).map Prod.snd = events.flatMap Event.records := by
  rw [List.map_flatMap]
  exact List.flatMap_congr fun event _ => entriesAt_records level event

-- The records of a step keep to the nesting of the calls that are open around it.
theorem nesting_of_follows {limit : Nat} {calls next : List Kind} {events : List Event}
    (h : Follows calls events next) (hlimit : next.length ≤ limit) :
    Run calls.length (Nesting bracketOf limit) (events.flatMap (entriesAt calls.length))
      next.length := by
  cases h with
  | @entered _ event kind henters =>
      rw [List.flatMap_singleton]
      rw [List.length_cons] at hlimit ⊢
      cases event with
      | fmpdrvCallEnter regs filename =>
          refine .cons (.opening rfl (by omega)) ?_
          split
          · exact .cons (.other rfl) .nil
          · exact .nil
      | rmdevsysCallEnter regs => exact .cons (.opening rfl (by omega)) .nil
      | fmpdrvCallExit | rmdevsysCallExit | callbackEnter => cases henters
  | @left _ event kind hleaves =>
      rw [List.flatMap_singleton, List.length_cons]
      cases event with
      | fmpdrvCallExit regs => exact .cons (.closing rfl) .nil
      | rmdevsysCallExit regs => exact .cons (.closing rfl) .nil
      | fmpdrvCallEnter | rmdevsysCallEnter | callbackEnter => cases hleaves
  | callback => exact .cons (.other rfl) (.cons (.other rfl) .nil)
  | unseen => exact .nil

theorem foldl_record_log {calls next : List Kind} {events : List Event}
    (h : Follows calls events next) (recorder : Statics) :
    (events.foldl (record .full .full) recorder).log =
      recorder.log ++ (events.flatMap Event.records).flatMap Record.toBytes := by
  cases h with
  | unseen => exact (List.append_nil _).symm
  | @entered _ event _ _ =>
      rw [List.flatMap_singleton]
      exact record_log recorder event
  | @left _ event _ _ =>
      rw [List.flatMap_singleton]
      exact record_log recorder event
  | @callback _ regs callargs =>
      rw [List.flatMap_singleton]
      exact record_log recorder (.callbackEnter regs callargs)

section

variable {limit : Nat} {labels : List (Deed × List (Nat × Record))} {s : Session}

theorem nesting_of_writes (run : Run Session.start (Writes limit) labels s) :
    Run 0 (Nesting bracketOf limit) (labels.flatMap Prod.snd) s.calls.length := by
  refine run.invariant
    (fun labels s => Run 0 (Nesting bracketOf limit) (labels.flatMap Prod.snd) s.calls.length) .nil ?_
  rintro labels s ⟨deed, entries⟩ next ih ⟨step, hentries, hlimit⟩
  dsimp only at step hentries
  rw [List.flatMap_append, List.flatMap_singleton, hentries]
  exact ih.append (nesting_of_follows (follows_of_step step).1 hlimit)

theorem log_of_writes (run : Run Session.start (Writes limit) labels s) :
    s.recorder.log = ((labels.flatMap Prod.snd).map Prod.snd).flatMap Record.toBytes := by
  refine run.invariant (fun labels s =>
    s.recorder.log = ((labels.flatMap Prod.snd).map Prod.snd).flatMap Record.toBytes) rfl ?_
  rintro labels s ⟨deed, entries⟩ next ih ⟨step, hentries, _⟩
  dsimp only at step hentries
  obtain ⟨hfollows, hrecorder⟩ := follows_of_step step
  have hrecords := flatMap_entriesAt_records s.calls.length deed.events
  rw [List.flatMap_append, List.flatMap_singleton, hentries, List.map_append, hrecords,
    List.flatMap_append, ← ih, hrecorder]
  exact foldl_record_log hfollows s.recorder

-- At any moment of a session, each line stands at the number of calls that were open around
-- what it tells of, and `_indent` ends up at the number of calls that are open still.
theorem analyze_session (hlimit : limit < 2 ^ w)
    (run : Run Session.start (Writes limit) labels s) :
    analyze w s.recorder.log = (labels.flatMap Prod.snd).map lineOf ∧
      (decodeLoop (⟨s.recorder.log, 0, []⟩ : State w)).indent.toNat = s.calls.length := by
  have hstart : (⟨[], 0, []⟩ : State w).indent.toNat = 0 := by simp
  obtain ⟨hindent, hprinted⟩ := printAll_nesting hlimit hstart (nesting_of_writes run)
  have hloop := decodeLoop_append ((labels.flatMap Prod.snd).map Prod.snd) [] (⟨[], 0, []⟩ : State w)
  rw [List.append_nil, ← log_of_writes run] at hloop
  rw [analyze, hloop, decodeLoop_of_none (decodeStep_of_short (by simp))]
  exact ⟨hprinted, hindent⟩

end

-- Calls of RMDEV.SYS and of the driver, one inside of the other, with a callback in between. The
-- driver call is still open.
theorem analyze_session_open :
    ∃ labels s, Run Session.start (Writes 2) labels s ∧ analyze 16 s.recorder.log =
      [⟨0, .rmdevsysCall 0x9803 1 2 3⟩, ⟨1, .driverCall 2 0 3 1 4⟩, ⟨2, .callbackReg 5 6 7 8⟩,
        ⟨2, .callbackStk 9 10 11 12⟩] ∧
      (decodeLoop (⟨s.recorder.log, 0, []⟩ : State 16)).indent.toNat = 2 := by
  have called : Run Session.start (Writes 2)
      [(.rmdevsysCall ⟨0x9803, 1, 2, 3⟩, [(0, .rmdevsysCallEnter ⟨0x9803, 1, 2, 3⟩)])] _ :=
    .snoc .nil ⟨rfl, rfl, by decide⟩
  have inner : Run Session.start (Writes 2) ([_] ++
      [(.fmpdrvCall ⟨1, 0x0200, 3, 4⟩ (Vector.replicate 128 0),
        [(1, .fmpdrvCallEnter ⟨1, 0x0200, 3, 4⟩)])]) _ :=
    .snoc called ⟨rfl, rfl, by decide⟩
  have run : Run Session.start (Writes 2) ([_] ++ [_] ++
      [(.callback ⟨5, 6, 7, 8⟩ ⟨9, 10, 11, 12⟩,
        [(2, .callbackRegs ⟨5, 6, 7, 8⟩), (2, .callbackStack ⟨9, 10, 11, 12⟩)])]) _ :=
    .snoc inner ⟨rfl, rfl, by decide⟩
  exact ⟨_, _, run, analyze_session (by decide) run⟩

-- Forests side by side.
def Forest.append : Forest → Forest → Forest
  | .nil, more => more
  | .callback regs callargs rest, more => .callback regs callargs (rest.append more)
  | .fmpdrvCall enter filename inside exit rest, more =>
      .fmpdrvCall enter filename inside exit (rest.append more)
  | .rmdevsysCall enter inside exit rest, more => .rmdevsysCall enter inside exit (rest.append more)

theorem Forest.append_events (f more : Forest) : (f.append more).events = f.events ++ more.events := by
  induction f with
  | nil => rfl
  | callback regs callargs rest ih =>
      rw [Forest.append, Forest.events, ih]
      rfl
  | fmpdrvCall enter filename inside exit rest _ ih =>
      rw [Forest.append, Forest.events, ih, Forest.events]
      simp
  | rmdevsysCall enter inside exit rest _ ih =>
      rw [Forest.append, Forest.events, ih, Forest.events]
      simp

theorem Forest.append_depth (f more : Forest) : (f.append more).depth = max f.depth more.depth := by
  induction f with
  | nil => simp [Forest.append, Forest.depth]
  | callback regs callargs rest ih => exact ih
  | fmpdrvCall enter filename inside exit rest _ ih =>
      rw [Forest.append, Forest.depth, ih, Forest.depth, Nat.max_assoc]
  | rmdevsysCall enter inside exit rest _ ih =>
      rw [Forest.append, Forest.depth, ih, Forest.depth, Nat.max_assoc]

-- What has happened while these calls are open: a forest before the first, and one inside of
-- each, up to now. No more than `limit` calls have been open at once.
inductive Unfinished (limit : Nat) : List Kind → List Event → Prop
  | outside {f : Forest} : f.depth ≤ limit → Unfinished limit [] f.events
  | inside {calls : List Kind} {before : List Event} {event : Event} {kind : Kind} {f : Forest} :
      event.enters = some kind → f.depth + (calls.length + 1) ≤ limit →
        Unfinished limit calls before → Unfinished limit (kind :: calls) (before ++ event :: f.events)

section

variable {limit : Nat} {calls next : List Kind} {events before : List Event}

theorem Unfinished.extend (more : Forest) (h : Unfinished limit calls events)
    (hmore : more.depth + calls.length ≤ limit) :
    Unfinished limit calls (events ++ more.events) := by
  cases h with
  | @outside f hdepth =>
      rw [← f.append_events]
      apply Unfinished.outside
      rw [Forest.append_depth]
      exact Nat.max_le.mpr ⟨hdepth, hmore⟩
  | @inside _ _ _ _ f henters hdepth hbefore =>
      rw [List.append_assoc, List.cons_append, ← f.append_events]
      refine .inside henters ?_ hbefore
      rw [List.length_cons] at hmore
      rw [Forest.append_depth]
      omega

-- An exit closes the call that was entered last.
theorem Unfinished.close {kind : Kind} {exit : Event}
    (h : Unfinished limit (kind :: calls) events) (hleaves : exit.leaves = some kind) :
    Unfinished limit calls (events ++ [exit]) := by
  cases h with
  | @inside _ before event _ f henters hdepth hbefore =>
      rw [List.append_assoc, List.cons_append]
      have hclosed : max (f.depth + 1) 0 + calls.length ≤ limit := by omega
      cases event with
      | fmpdrvCallEnter enter filename =>
          obtain rfl := Option.some.inj henters
          cases exit with
          | fmpdrvCallExit regs =>
              exact hbefore.extend (.fmpdrvCall enter filename f regs .nil) hclosed
          | rmdevsysCallExit | fmpdrvCallEnter | rmdevsysCallEnter | callbackEnter => cases hleaves
      | rmdevsysCallEnter enter =>
          obtain rfl := Option.some.inj henters
          cases exit with
          | rmdevsysCallExit regs =>
              exact hbefore.extend (.rmdevsysCall enter f regs .nil) hclosed
          | fmpdrvCallExit | fmpdrvCallEnter | rmdevsysCallEnter | callbackEnter => cases hleaves
      | fmpdrvCallExit | rmdevsysCallExit | callbackEnter => cases henters

theorem Unfinished.length_le (h : Unfinished limit calls events) : calls.length ≤ limit := by
  cases h with
  | outside _ => exact Nat.zero_le _
  | inside _ hdepth _ =>
      rw [List.length_cons]
      omega

theorem unfinished_of_follows (h : Unfinished limit calls before) (hfollows : Follows calls events next)
    (hlimit : next.length ≤ limit) : Unfinished limit next (before ++ events) := by
  have hcalls := h.length_le
  cases hfollows with
  | entered henters =>
      rw [List.length_cons] at hlimit
      exact .inside (f := .nil) henters (by rw [Forest.depth]; omega) h
  | left hleaves => exact h.close hleaves
  | @callback _ regs callargs =>
      exact h.extend (.callback regs callargs .nil) (by rw [Forest.depth, Forest.depth]; omega)
  | unseen =>
      rw [List.append_nil]
      exact h

end

-- A step of the driver's machine, with the events that it records, that leaves no more than
-- `limit` recorded calls open.
def Records (limit : Nat) (s : Machine) (label : Action × List Event) (next : Machine) : Prop :=
  AppendingStep s label.1 next ∧ label.2 = s.events label.1 ∧ next.session.calls.length ≤ limit

section

variable {limit : Nat} {labels : List (Action × List Event)} {s : Machine}

theorem recorder_of_records (run : Run Machine.start (Records limit) labels s) :
    s.recorder = recordAll (labels.flatMap Prod.snd) := by
  refine run.invariant (fun labels s => s.recorder = recordAll (labels.flatMap Prod.snd)) rfl ?_
  rintro labels s ⟨action, events⟩ next ih ⟨step, hevents, _⟩
  dsimp only at step hevents
  rw [(follows_of_appendingStep step).2, ih, recordAll, recordAll, List.flatMap_append,
    List.foldl_append, List.flatMap_singleton, hevents]

theorem unfinished_of_records (run : Run Machine.start (Records limit) labels s) :
    Unfinished limit s.session.calls (labels.flatMap Prod.snd) := by
  refine run.invariant (fun labels s => Unfinished limit s.session.calls (labels.flatMap Prod.snd))
    (.outside (f := .nil) (Nat.zero_le _)) ?_
  rintro labels s ⟨action, events⟩ next ih ⟨step, hevents, hlimit⟩
  dsimp only at step hevents
  rw [List.flatMap_append, List.flatMap_singleton, hevents]
  exact unfinished_of_follows ih (follows_of_appendingStep step).1 hlimit

end

end ReelMagic.Analyze
