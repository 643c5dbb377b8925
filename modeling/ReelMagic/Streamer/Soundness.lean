import ReelMagic.Streamer.Commands

namespace ReelMagic.Streamer

open Library

theorem lastOpened_append (events : List Event) (event : Event) :
    lastOpened (events ++ [event]) =
      (event.calls.reverse.findSome? Call.openedFile).or (lastOpened events) := by
  simp [lastOpened, List.findSome?_append]

theorem lastOpened_append_of_no_open (events : List Event) (event : Event)
    (h : ∀ call ∈ event.calls, call.openedFile = none) :
    lastOpened (events ++ [event]) = lastOpened events := by
  have hnone : event.calls.reverse.findSome? Call.openedFile = none :=
    List.findSome?_eq_none_iff.mpr fun call hcall => h call (List.mem_reverse.mp hcall)
  rw [lastOpened_append, hnone, Option.none_or]

-- A file is open, it is the last one opened, and what the buffers hold is a stretch of it.
def Playing (events : List Event) (w : World) : Prop :=
  ∃ file handle current, lastOpened events = some file ∧ Attached w file handle current ∧
    (w.prefetch current).Follows file.val

theorem eq_of_mem_submission {target : UInt16} {ref : BufRef} {block : Block UInt8} {call : Call}
    (h : call ∈ submission target ref block) :
    block.items ≠ [] ∧ call = .rmSubmitBuffer target.toUInt8 ref.area block.items.length := by
  rw [submission] at h
  split at h
  · exact absurd h List.not_mem_nil
  · rename_i hne
    exact ⟨hne, List.mem_singleton.mp h⟩

theorem Delivers.sound {file : DosFile} {reply : Reply} (position : Nat) (items : List UInt8)
    (h : Delivers file reply position items) : items <+: file.val.drop position :=
  h.1

theorem playing_of_opens {w next : World} {event : Event} {events : List Event} {calls : List Call}
    (h : Opens w event.reply next calls) (hcalls : event.calls = calls) :
    Idle next ∨ Playing (events ++ [event]) next := by
  cases h with
  | @granted file handle _ hatt hstart _ =>
      refine Or.inr ⟨file, handle, .buf2, ?_, hatt, ?_⟩
      · rw [lastOpened_append, hcalls]
        rfl
      · rw [hstart]
        exact Prefetch.follows_of_empty _ _ rfl rfl
  | refused _ hclosed _ => exact Or.inl (idle_of_dosFileHandle hclosed)

theorem playing_step {events : List Event} {w next : World} {event : Event}
    (h : Idle w ∨ Playing events w) (step : Step w event next) :
    Idle next ∨ Playing (events ++ [event]) next := by
  obtain ⟨command, target, param1, param2, reply, calls⟩ := event
  have hcall : myCallback command target param1 param2 reply w = some (next, calls) := step
  rcases h with hidle | ⟨file, handle, current, hlast, hatt, hfollows⟩
  · rcases idleStep_of_eq hidle hcall with ⟨rfl, _⟩ | ⟨_, _, hopens⟩
    · exact Or.inl hidle
    · exact playing_of_opens hopens rfl
  · cases attachedStep_of_eq hatt hcall with
    | ignored =>
        refine Or.inr ⟨file, handle, current, ?_, hatt, hfollows⟩
        rw [lastOpened_append_of_no_open, hlast]
        exact fun call hmem => absurd hmem List.not_mem_nil
    | opened _ _ hopens => exact playing_of_opens hopens rfl
    | filled _ _ hatt' hcalls hfills =>
        refine Or.inr ⟨file, handle, current, ?_, hatt', hfollows.fills Delivers.sound hfills⟩
        rw [lastOpened_append_of_no_open, hlast]
        intro call hmem
        rw [hcalls call hmem]
        rfl
    | reported current' _ _ hatt' hbefore hselects =>
        refine Or.inr ⟨file, handle, current', ?_, hatt', hfollows.selects Delivers.sound hselects⟩
        rw [lastOpened_append_of_no_open, hlast]
        intro call hmem
        rcases List.mem_append.mp hmem with hmem | hmem
        · rcases hbefore call hmem with rfl | rfl
          · rfl
          · rfl
        · rw [(eq_of_mem_submission hmem).2]
          rfl
    | closed _ _ hidle _ => exact Or.inl hidle

theorem playing_of_reached {events : List Event} {w : World} (run : Reached events w) :
    Idle w ∨ Playing events w := by
  refine run.invariant (fun events w => Idle w ∨ Playing events w) (Or.inl idle_start) ?_
  intro events w event next h step
  exact playing_step h step

-- In no state reached does a callback go through a NULL pointer.
theorem callback_defined {events : List Event} {w : World} (run : Reached events w)
    (command target param1 param2 : UInt16) (reply : Reply) :
    ∃ next calls, myCallback command target param1 param2 reply w = some (next, calls) := by
  rcases playing_of_reached run with hidle | ⟨_, _, _, _, hatt, _⟩
  · obtain ⟨next, calls, h, _⟩ := myCallback_idle hidle command target param1 param2 reply
    exact ⟨next, calls, h⟩
  · obtain ⟨next, calls, h, _⟩ := myCallback_attached hatt command target param1 param2 reply
    exact ⟨next, calls, h⟩

-- What stands in the current buffer, if anything does, is the file from its label on.
theorem current_block_spec {w : World} {file : DosFile} {handle : DosHandle} {current : BufRef}
    (hatt : Attached w file handle current) (hfollows : (w.prefetch current).Follows file.val)
    (hne : (w.block current).items ≠ []) :
    1 ≤ (w.block current).items.length ∧ (w.block current).items.length ≤ DMA_BUF_SIZE ∧
      (w.block current).position + (w.block current).items.length ≤ file.val.length ∧
      w.dmaBuf.slice current.area (w.block current).items.length =
        (file.val.drop (w.block current).position).take (w.block current).items.length := by
  have hsize := hatt.readSize_le current
  rw [← World.block_items_length] at hsize
  have hslice : w.dmaBuf.slice current.area (w.block current).items.length =
      (w.block current).items := by
    rw [World.block_items_length]
    rfl
  exact ⟨List.length_pos_iff.mpr hne, hsize, hfollows.length_le hne,
    hslice.trans (List.prefix_iff_eq_take.mp hfollows.current)⟩

-- What a report submits is what the last file opened has at the position asked for. The
-- submission is the last call of the report, so `next` has the memory the driver is given.
theorem submits_requested_bytes {events : List Event} {w next : World}
    {handle param1 param2 : UInt16} {reply : Reply} {calls : List Call} {target : UInt8}
    {ptr size : Nat} (run : Reached events w)
    (step : myCallback 2 handle param1 param2 reply w = some (next, calls))
    (submit : .rmSubmitBuffer target ptr size ∈ calls) :
    ∃ file, lastOpened events = some file ∧ 1 ≤ size ∧ size ≤ DMA_BUF_SIZE ∧
      param2.toNat * 65536 + param1.toNat + size ≤ file.val.length ∧
      next.dmaBuf.slice ptr size =
        (file.val.drop (param2.toNat * 65536 + param1.toNat)).take size := by
  rcases playing_of_reached run with hidle | ⟨file, dosHandle, current, hlast, hatt, hfollows⟩
  · rcases idleStep_of_eq hidle step with ⟨_, rfl⟩ | ⟨h, _, _⟩
    · exact absurd submit List.not_mem_nil
    · exact absurd h (by decide)
  · refine ⟨file, hlast, ?_⟩
    cases attachedStep_of_eq hatt step with
    | ignored => exact absurd submit List.not_mem_nil
    | opened h _ _ => exact absurd h (by decide)
    | filled h _ _ _ _ => exact absurd h (by decide)
    | closed h _ _ _ => exact absurd h (by decide)
    | reported current' _ _ hatt' hbefore hselects =>
        have hsubmitted : .rmSubmitBuffer target ptr size ∈
            submission handle current' (next.block current') := by
          rcases List.mem_append.mp submit with h | h
          · rcases hbefore _ h with h | h
            · exact Call.noConfusion h
            · exact Call.noConfusion h
          · exact h
        obtain ⟨hne, hcall⟩ := eq_of_mem_submission hsubmitted
        obtain ⟨_, rfl, rfl⟩ := Call.rmSubmitBuffer.inj hcall
        have hblock := current_block_spec hatt' (hfollows.selects Delivers.sound hselects) hne
        have hposition : (next.block current').position = requestedPosition param1 param2 :=
          hselects.position_eq
        rw [hposition, requestedPosition_eq] at hblock
        exact hblock

-- Three bytes, opened under DOS handle 5.
def shortFile : DosFile := ⟨[10, 20, 30], by decide⟩

def openShortFile : Event :=
  ⟨4, 1, 0, 0, ⟨some (⟨5, by decide⟩, shortFile), none⟩,
    [.dosOpen (some (⟨5, by decide⟩, shortFile)), .rmSetPtr 1 0x208 .hds0, .rmSet 1 0x302 1 0]⟩

theorem submits_requested_bytes_short :
    ∃ w next, Reached [openShortFile] w ∧
      myCallback 2 1 1 0 ⟨none, some DMA_BUF_SIZE⟩ w =
        some (next, [.dosSeek 5 1, .dosRead 5 DMA_BUF_SIZE, .rmSubmitBuffer 1 DMA_BUF_SIZE 2]) ∧
      ∃ file, lastOpened [openShortFile] = some file ∧ 1 ≤ 2 ∧ 2 ≤ DMA_BUF_SIZE ∧
        (0 : UInt16).toNat * 65536 + (1 : UInt16).toNat + 2 ≤ file.val.length ∧
        next.dmaBuf.slice DMA_BUF_SIZE 2 =
          (file.val.drop ((0 : UInt16).toNat * 65536 + (1 : UInt16).toNat)).take 2 := by
  have run : Reached [openShortFile] (openHandle 1 openShortFile.reply .start).1 := .snoc .nil rfl
  obtain ⟨next, calls, step⟩ := callback_defined run 2 1 1 0 ⟨none, some DMA_BUF_SIZE⟩
  have hcalls : some calls = some [.dosSeek 5 1, .dosRead 5 DMA_BUF_SIZE,
      .rmSubmitBuffer 1 DMA_BUF_SIZE 2] := (congrArg (Option.map Prod.snd) step).symm.trans rfl
  obtain rfl := Option.some.inj hcalls
  have submit := List.mem_append_right [.dosSeek 5 1, .dosRead 5 DMA_BUF_SIZE]
    (List.mem_singleton_self (Call.rmSubmitBuffer 1 DMA_BUF_SIZE 2))
  exact ⟨_, next, run, step, submits_requested_bytes run step submit⟩

end ReelMagic.Streamer
