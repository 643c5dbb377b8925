import ReelMagic.Streamer.Soundness

namespace ReelMagic.Streamer

open Library

-- The DOS handles opened and not yet closed, from the calls made.
def Call.heldAfter (held : List Nat) : Call → List Nat
  | .dosOpen (some (handle, _)) => handle.val :: held
  | .dosClose handle => held.erase handle
  | _ => held

def heldAfter (held : List Nat) (calls : List Call) : List Nat := calls.foldl Call.heldAfter held

-- The handle a read, a seek or a close is made on.
def Call.usedHandle : Call → Option Nat
  | .dosClose handle => some handle
  | .dosSeek handle _ => some handle
  | .dosRead handle _ => some handle
  | _ => none

-- Every one of the calls uses a handle that is held when it is made.
def UsesHeld (held : List Nat) : List Call → Prop
  | [] => True
  | call :: calls =>
      (∀ handle ∈ call.usedHandle, handle ∈ held) ∧ UsesHeld (call.heldAfter held) calls

def callLog (events : List Event) : List Call := events.flatMap Event.calls

-- At most one DOS handle is held, and then the program still knows it.
def Tidy (events : List Event) (w : World) : Prop :=
  (heldAfter [] (callLog events) = [] ∨
    ∃ handle, heldAfter [] (callLog events) = [handle] ∧ w.hds0.dosFileHandle = handle) ∧
  UsesHeld [] (callLog events)

-- DOS gives out a handle that is not open.
def FreshStep (w : World) (event : Event) (next : World) : Prop :=
  Step w event next ∧
    ∀ handle file, event.reply.opened = some (handle, file) → ¬w.dos.IsOpen handle.val

-- Handle 1 is opened only when nothing is open under it.
def CarefulStep (w : World) (event : Event) (next : World) : Prop :=
  Step w event next ∧ (event.command = 4 → event.handle = 1 → ¬w.checkHd 1)

theorem heldAfter_append (held : List Nat) (calls rest : List Call) :
    heldAfter held (calls ++ rest) = heldAfter (heldAfter held calls) rest :=
  List.foldl_append

theorem usesHeld_append (held : List Nat) (calls rest : List Call) :
    UsesHeld held (calls ++ rest) ↔ UsesHeld held calls ∧ UsesHeld (heldAfter held calls) rest := by
  induction calls generalizing held with
  | nil => exact (true_and _).to_iff.symm
  | cons call calls ih =>
      rw [List.cons_append, UsesHeld, UsesHeld, ih, and_assoc]
      rfl

theorem callLog_append (events : List Event) (event : Event) :
    callLog (events ++ [event]) = callLog events ++ event.calls := by
  rw [callLog, callLog, List.flatMap_append, List.flatMap_singleton]

-- Calls that open and close nothing and use one handle only.
theorem heldAfter_of_neutral (handle : Nat) (calls : List Call)
    (h : ∀ call ∈ calls, (∀ used ∈ call.usedHandle, used = handle) ∧
      ∀ held, call.heldAfter held = held) :
    heldAfter [handle] calls = [handle] ∧ UsesHeld [handle] calls := by
  induction calls with
  | nil => exact ⟨rfl, trivial⟩
  | cons call calls ih =>
      obtain ⟨⟨hused, hkeep⟩, hrest⟩ := List.forall_mem_cons.mp h
      obtain ⟨hheld, huses⟩ := ih hrest
      rw [UsesHeld, heldAfter, List.foldl_cons, hkeep]
      exact ⟨hheld, fun used hmem => List.mem_singleton.mpr (hused used hmem), huses⟩

theorem usesHeld_of_none (held : List Nat) (calls : List Call)
    (h : ∀ call ∈ calls, call.usedHandle = none) : UsesHeld held calls := by
  induction calls generalizing held with
  | nil => trivial
  | cons call calls ih =>
      obtain ⟨hcall, hrest⟩ := List.forall_mem_cons.mp h
      rw [UsesHeld, hcall]
      exact ⟨fun _ hmem => absurd hmem (Option.not_mem_none _), ih _ hrest⟩

def Accounted (events : List Event) (w : World) : Prop :=
  UsesHeld [] (callLog events) ∧
    ((Idle w ∧ heldAfter [] (callLog events) = []) ∨
      ∃ file handle current, Attached w file handle current ∧
        heldAfter [] (callLog events) = [handle.val])

theorem Accounted.tidy {events : List Event} {w : World} (h : Accounted events w) : Tidy events w := by
  obtain ⟨huses, ⟨_, hheld⟩ | ⟨file, handle, current, hatt, hheld⟩⟩ := h
  · exact ⟨Or.inl hheld, huses⟩
  · exact ⟨Or.inr ⟨handle.val, hheld, hatt.dosFileHandle⟩, huses⟩

theorem accounted_of_opens {events : List Event} {w next : World} {event : Event} {calls : List Call}
    (hcalls : event.calls = calls) (huses : UsesHeld [] (callLog events))
    (hheld : heldAfter [] (callLog events) = []) (h : Opens w event.reply next calls) :
    Accounted (events ++ [event]) next := by
  rw [Accounted, callLog_append, usesHeld_append, heldAfter_append, hcalls, hheld]
  cases h with
  | @granted file handle _ hatt _ _ =>
      refine ⟨⟨huses, usesHeld_of_none _ _ ?_⟩, Or.inr ⟨file, handle, .buf2, hatt, rfl⟩⟩
      simp [Call.usedHandle]
  | refused _ hclosed _ =>
      refine ⟨⟨huses, usesHeld_of_none _ _ ?_⟩, Or.inl ⟨idle_of_dosFileHandle hclosed, rfl⟩⟩
      simp [Call.usedHandle]

theorem accounted_of_neutral {events : List Event} {next : World} {event : Event}
    {file : DosFile} {handle : DosHandle} {current : BufRef}
    (huses : UsesHeld [] (callLog events)) (hheld : heldAfter [] (callLog events) = [handle.val])
    (hatt : Attached next file handle current)
    (h : ∀ call ∈ event.calls, (∀ used ∈ call.usedHandle, used = handle.val) ∧
      ∀ held, call.heldAfter held = held) : Accounted (events ++ [event]) next := by
  have hcalls := heldAfter_of_neutral handle.val event.calls h
  rw [Accounted, callLog_append, usesHeld_append, heldAfter_append, hheld]
  exact ⟨⟨huses, hcalls.2⟩, Or.inr ⟨file, handle, current, hatt, hcalls.1⟩⟩

theorem accounted_step {events : List Event} {w next : World} {event : Event}
    (h : Accounted events w) (step : CarefulStep w event next) :
    Accounted (events ++ [event]) next := by
  obtain ⟨step, hcareful⟩ := step
  obtain ⟨command, target, param1, param2, reply, calls⟩ := event
  have hcall : myCallback command target param1 param2 reply w = some (next, calls) := step
  obtain ⟨huses, ⟨hidle, hheld⟩ | ⟨file, handle, current, hatt, hheld⟩⟩ := h
  · rcases idleStep_of_eq hidle hcall with ⟨rfl, rfl⟩ | ⟨_, _, hopens⟩
    · rw [Accounted, callLog_append, List.append_nil]
      exact ⟨huses, Or.inl ⟨hidle, hheld⟩⟩
    · exact accounted_of_opens rfl huses hheld hopens
  · cases attachedStep_of_eq hatt hcall with
    | opened hcommand htarget _ =>
        exact absurd ((hatt.checkHd_iff 1).mpr rfl) (hcareful hcommand htarget)
    | ignored =>
        refine accounted_of_neutral huses hheld hatt ?_
        exact fun call hmem => absurd hmem List.not_mem_nil
    | filled _ _ hatt' hcalls _ =>
        refine accounted_of_neutral huses hheld hatt' ?_
        intro call hmem
        rw [hcalls call hmem]
        exact ⟨fun used h => (Option.some.inj h).symm, fun _ => rfl⟩
    | reported current' _ _ hatt' hbefore _ =>
        refine accounted_of_neutral huses hheld hatt' ?_
        intro call hmem
        rcases List.mem_append.mp hmem with hmem | hmem
        · rcases hbefore call hmem with rfl | rfl
          · exact ⟨fun used h => (Option.some.inj h).symm, fun _ => rfl⟩
          · exact ⟨fun used h => (Option.some.inj h).symm, fun _ => rfl⟩
        · rw [(eq_of_mem_submission hmem).2]
          exact ⟨fun used h => absurd h (Option.not_mem_none used), fun _ => rfl⟩
    | closed _ _ hidle _ =>
        rw [Accounted, callLog_append, usesHeld_append, heldAfter_append, hheld]
        refine ⟨⟨huses, ?_⟩, Or.inl ⟨hidle, List.erase_cons_head handle.val []⟩⟩
        refine ⟨fun used h => ?_, usesHeld_of_none _ _ (by simp [Call.usedHandle])⟩
        rw [← Option.some.inj h]
        exact List.mem_singleton_self _

-- A step of the other kind always loses a handle.
theorem not_tidy_of_reopen {events : List Event} {w next : World} {event : Event}
    (h : Accounted events w) (step : Step w event next) (hcommand : event.command = 4)
    (htarget : event.handle = 1) (hcheck : w.checkHd 1) : ¬Tidy (events ++ [event]) next := by
  obtain ⟨_, ⟨hidle, _⟩ | ⟨file, handle, current, hatt, hheld⟩⟩ := h
  · exact absurd hcheck (hidle 1)
  obtain ⟨next', calls, hopen, hopens⟩ := openHandle_spec event.reply w
  have hcall : Step w { event with calls } next' := by
    show myCallback event.command event.handle event.param1 event.param2 event.reply w = _
    rw [hcommand, htarget]
    exact congrArg some hopen
  obtain ⟨rfl, hcalls⟩ := Prod.mk.inj (Option.some.inj (step.symm.trans hcall))
  rw [Tidy, callLog_append, heldAfter_append, hheld, hcalls]
  cases hopens with
  | granted =>
      rintro ⟨hnone | ⟨_, hone, _⟩, _⟩
      · exact List.cons_ne_nil _ _ hnone
      · exact List.cons_ne_nil _ _ (List.cons.inj hone).2
  | refused _ hclosed _ =>
      rintro ⟨hnone | ⟨_, hone, hknown⟩, _⟩
      · exact List.cons_ne_nil _ _ hnone
      · rw [hclosed] at hknown
        omega

-- DOS handles are not leaked and not used after they are closed, as long as command 4 does
-- not come for a handle that has a file open.
theorem handles_never_leaked {events : List Event} {w : World}
    (run : Run World.start CarefulStep events w) : Tidy events w := by
  have h : Accounted events w := by
    refine run.invariant Accounted ⟨trivial, Or.inl ⟨idle_start, rfl⟩⟩ ?_
    intro events w event next h step
    exact accounted_step h step
  exact h.tidy

def closeShortFile : Event :=
  ⟨5, 1, 0, 0, ⟨none, none⟩, [.dosClose 5, .rmSetPtr 1 0x208 .null]⟩

theorem handles_never_leaked_short :
    ∃ w, Run World.start CarefulStep [openShortFile, closeShortFile] w ∧
      Tidy [openShortFile, closeShortFile] w := by
  have hidle : ¬World.start.checkHd 1 := idle_start 1
  have opened : Run World.start CarefulStep [openShortFile] _ := .snoc .nil ⟨rfl, fun _ _ => hidle⟩
  have closed : Run World.start CarefulStep [openShortFile, closeShortFile] _ :=
    .snoc opened ⟨rfl, fun h => absurd h (by decide)⟩
  exact ⟨_, closed, handles_never_leaked closed⟩

def reopenShortFile : Event :=
  ⟨4, 1, 0, 0, ⟨some (⟨6, by decide⟩, shortFile), none⟩,
    [.dosOpen (some (⟨6, by decide⟩, shortFile)), .rmSetPtr 1 0x208 .hds0, .rmSet 1 0x302 1 0]⟩

-- The first handle is neither closed nor known any more.
theorem reopen_leaks_handle :
    ¬∀ events w, Run World.start FreshStep events w → Tidy events w := by
  intro h
  let opened := (openHandle 1 openShortFile.reply .start).1
  let reopened := (openHandle 1 reopenShortFile.reply opened).1
  have hopened : Run World.start FreshStep [openShortFile] opened :=
    .snoc .nil ⟨rfl, fun _ _ _ hopen => hopen rfl⟩
  have hreopened : Run World.start FreshStep [openShortFile, reopenShortFile] reopened := by
    refine .snoc hopened ⟨rfl, ?_⟩
    intro handle file hreply hopen
    obtain ⟨rfl, rfl⟩ := Prod.mk.inj (Option.some.inj hreply)
    exact hopen rfl
  have hheld : heldAfter [] (callLog [openShortFile, reopenShortFile]) = [6, 5] := rfl
  rcases (h _ _ hreopened).1 with hnone | ⟨handle, hone, _⟩
  · rw [hheld] at hnone
    exact List.cons_ne_nil _ _ hnone
  · rw [hheld] at hone
    exact List.cons_ne_nil _ _ (List.cons.inj hone).2

end ReelMagic.Streamer
