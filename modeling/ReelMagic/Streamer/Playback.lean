import ReelMagic.Streamer.Soundness

namespace ReelMagic.Streamer

open Library

-- Playing from the beginning: the world and the blocks the driver was given.
structure Playback where
  world : World
  submitted : List (List UInt8)

-- A fill (command 1), or a report (command 2) for what comes next.
inductive Tick where
  | fill (param1 param2 : UInt16)
  | report
deriving DecidableEq

def Playback.total (playback : Playback) : Nat := playback.submitted.flatten.length

def Call.submittedBlock (w : World) : Call → Option (List UInt8)
  | .rmSubmitBuffer _ ptr size => some (w.dmaBuf.slice ptr size)
  | _ => none

-- Every read delivers what a buffer has room for, up to the end of the file.
def fullReads : Reply := ⟨none, some DMA_BUF_SIZE⟩

def Playback.callback (playback : Playback) (command param1 param2 : UInt16) : Option Playback := do
  let (world, calls) ← myCallback command 1 param1 param2 fullReads playback.world
  return ⟨world, playback.submitted ++ calls.filterMap (Call.submittedBlock world)⟩

def Playback.tick (playback : Playback) : Tick → Option Playback
  | .fill param1 param2 => playback.callback 1 param1 param2
  | .report =>
      playback.callback 2 (UInt16.ofNat playback.total) (UInt16.ofNat (playback.total / 65536))

-- At every moment the blocks in order are a prefix of the file, and every report before the
-- end of the file adds a block that is not empty.
def NeverStarves (file : DosFile) (playback : Playback) : List Tick → Prop
  | [] => playback.submitted.flatten <+: file.val
  | tick :: ticks =>
      playback.submitted.flatten <+: file.val ∧ ∃ next, playback.tick tick = some next ∧
        (tick = .report → playback.total < file.val.length →
          ∃ block, block ≠ [] ∧ next.submitted = playback.submitted ++ [block]) ∧
        NeverStarves file next ticks

def OnTrack (file : DosFile) (handle : DosHandle) (playback : Playback) : Prop :=
  playback.submitted.flatten <+: file.val ∧ ∃ current,
    Attached playback.world file handle current ∧
      (playback.world.prefetch current).Plays file.val playback.total

theorem requestedPosition_ofNat {position : Nat} (h : position < 0x100000000) :
    requestedPosition (UInt16.ofNat position) (UInt16.ofNat (position / 65536)) = position := by
  rw [requestedPosition_eq, UInt16.toNat_ofNat', UInt16.toNat_ofNat']
  omega

theorem prefix_append_of_prefix_drop {α : Type*} {played items data : List α} (h : played <+: data)
    (hitems : items <+: data.drop played.length) : played ++ items <+: data := by
  obtain ⟨rest, rfl⟩ := h
  rw [List.drop_left] at hitems
  exact (List.prefix_append_right_inj played).mpr hitems

theorem Delivers.progress {file : DosFile} (position : Nat) (items : List UInt8)
    (h : Delivers file fullReads position items) (hp : position < file.val.length) : items ≠ [] := by
  have htake := h.2.2 DMA_BUF_SIZE rfl (Nat.le_refl _)
  have hlen := congrArg List.length htake
  rw [List.length_take, List.length_drop] at hlen
  simp only [DMA_BUF_SIZE] at hlen
  intro hnil
  rw [hnil, List.length_nil] at hlen
  omega

theorem submittedBlock_submission (w : World) (target : UInt16) (ref : BufRef) :
    (submission target ref (w.block ref)).filterMap (Call.submittedBlock w) =
      if (w.block ref).items = [] then [] else [(w.block ref).items] := by
  rw [submission]
  split
  · rfl
  · show [w.dmaBuf.slice ref.area (w.block ref).items.length] = _
    rw [World.block_items_length]
    rfl

section

variable {file : DosFile} {handle : DosHandle} {playback : Playback} {current : BufRef}

theorem fill_spec (playback : Playback) (hatt : Attached playback.world file handle current) (param1 param2 : UInt16) :
    ∃ next, playback.tick (.fill param1 param2) = some next ∧
      next.submitted = playback.submitted ∧ Attached next.world file handle current ∧
      Prefetch.Fills (Delivers file fullReads) (playback.world.prefetch current)
        (next.world.prefetch current) := by
  obtain ⟨world, calls, hfill, hatt', hcalls, hfills⟩ := fillBuffers_spec hatt fullReads
  have hcall : myCallback 1 1 param1 param2 fullReads playback.world = some (world, calls) := by
    show (if playback.world.checkHd 1 then fillBuffers fullReads playback.world else _) = _
    rw [if_pos ((hatt.checkHd_iff 1).mpr rfl), hfill]
  have hnone : calls.filterMap (Call.submittedBlock world) = [] := by
    rw [List.filterMap_eq_nil_iff]
    intro call hmem
    rw [hcalls call hmem]
    rfl
  refine ⟨⟨world, playback.submitted⟩, ?_, rfl, hatt', hfills⟩
  simp only [Playback.tick, Playback.callback, hcall, Option.bind_eq_bind, Option.bind_some,
    Option.pure_def, hnone, List.append_nil]

theorem report_spec (playback : Playback) (hatt : Attached playback.world file handle current)
    (htotal : playback.total < 0x100000000) :
    ∃ next current', playback.tick .report = some next ∧
      next.submitted = playback.submitted ++
        (if (next.world.block current').items = [] then []
          else [(next.world.block current').items]) ∧
      Attached next.world file handle current' ∧
      Prefetch.Selects (Delivers file fullReads) playback.total (playback.world.prefetch current)
        (next.world.prefetch current') := by
  obtain ⟨world, calls, current', hselect, hatt', hcalls, hselects⟩ :=
    selectBuffer_spec hatt fullReads playback.total htotal
  have hcall : myCallback 2 1 (UInt16.ofNat playback.total)
      (UInt16.ofNat (playback.total / 65536)) fullReads playback.world =
      some (world, calls ++ submission 1 current' (world.block current')) := by
    show (if playback.world.checkHd 1 then reportBuffer _ _ _ fullReads playback.world else _) = _
    simp only [if_pos ((hatt.checkHd_iff 1).mpr rfl), reportBuffer, requestedPosition_ofNat htotal,
      hselect, submitCurrent_spec hatt', Option.bind_eq_bind, Option.bind_some, Option.pure_def]
  have hnone : calls.filterMap (Call.submittedBlock world) = [] := by
    rw [List.filterMap_eq_nil_iff]
    intro call hmem
    rcases hcalls call hmem with rfl | rfl
    · rfl
    · rfl
  refine ⟨⟨world, playback.submitted ++ (if (world.block current').items = [] then []
    else [(world.block current').items])⟩, current', ?_, rfl, hatt', hselects⟩
  simp only [Playback.tick, Playback.callback, hcall, Option.bind_eq_bind, Option.bind_some,
    Option.pure_def, List.filterMap_append, hnone, List.nil_append, submittedBlock_submission]

theorem tick_onTrack (h : OnTrack file handle playback) (tick : Tick) :
    ∃ next, playback.tick tick = some next ∧ OnTrack file handle next ∧
      (tick = .report → playback.total < file.val.length →
        ∃ block, block ≠ [] ∧ next.submitted = playback.submitted ++ [block]) := by
  obtain ⟨hplayed, current, hatt, hplays⟩ := h
  cases tick with
  | fill param1 param2 =>
      obtain ⟨next, htick, hsame, hatt', hfills⟩ := fill_spec playback hatt param1 param2
      refine ⟨next, htick, ⟨by rw [hsame]; exact hplayed, current, hatt', ?_⟩, fun h => nomatch h⟩
      rw [Playback.total, hsame]
      exact hplays.fills Delivers.sound Delivers.progress hfills
  | report =>
      have htotal : playback.total < 0x100000000 := Nat.lt_of_le_of_lt hplayed.length_le file.property
      obtain ⟨next, current', htick, hsubmitted, hatt', hselects⟩ := report_spec playback hatt htotal
      obtain ⟨hne, hplays'⟩ := hplays.selects Delivers.sound Delivers.progress hselects
      have hfollows := hplays.follows.selects Delivers.sound hselects
      have hflatten : next.submitted.flatten =
          playback.submitted.flatten ++ (next.world.block current').items := by
        rw [hsubmitted]
        split
        · rename_i hnil
          rw [hnil, List.append_nil, List.append_nil]
        · rw [List.flatten_append, List.flatten_singleton]
      have hitems := hfollows.current
      rw [hselects.position_eq] at hitems
      refine ⟨next, htick, ⟨?_, current', hatt', ?_⟩, ?_⟩
      · rw [hflatten]
        exact prefix_append_of_prefix_drop hplayed hitems
      · rw [Playback.total, hflatten, List.length_append]
        exact hplays'
      · intro _ hlt
        have hblock : (next.world.block current').items ≠ [] := hne hlt
        refine ⟨_, hblock, ?_⟩
        rw [hsubmitted, if_neg hblock]

theorem OnTrack.neverStarves (h : OnTrack file handle playback) (ticks : List Tick) :
    NeverStarves file playback ticks := by
  induction ticks generalizing playback with
  | nil => exact h.1
  | cons tick ticks ih =>
      obtain ⟨next, htick, hnext, hreport⟩ := tick_onTrack h tick
      exact ⟨h.1, next, htick, hreport, ih hnext⟩

end

section Opened

variable {opened : World} {file : DosFile} {handle : DosHandle} {current : BufRef}
  (hatt : Attached opened file handle current) (hstart : opened.prefetch current = .start)

include hatt hstart

-- A report for position 0 that comes before any fill finds the label of the empty current
-- buffer to be 0 already, so it reads nothing and submits nothing.
theorem starves_of_report (hne : file.val ≠ []) (ticks : List Tick) :
    ¬NeverStarves file ⟨opened, []⟩ (.report :: ticks) := by
  rintro ⟨_, next, htick, hreport, _⟩
  obtain ⟨block, _, hsubmitted⟩ := hreport rfl (List.length_pos_iff.mpr hne)
  obtain ⟨next', current', htick', hsubmitted', _, hselects⟩ :=
    report_spec ⟨opened, []⟩ hatt (Nat.zero_lt_succ _)
  obtain rfl := Option.some.inj (htick'.symm.trans htick)
  rw [hstart] at hselects
  have hempty : (next'.world.block current').items = [] := by
    show (next'.world.prefetch current').current.items = []
    generalize next'.world.prefetch current' = reader at hselects
    cases hselects with
    | same => rfl
    | rotated h _ _ => exact absurd rfl h
    | reset h _ _ => exact absurd rfl h
  rw [hsubmitted', if_pos hempty] at hsubmitted
  exact List.cons_ne_nil _ _ hsubmitted.symm

theorem onTrack_of_empty_file (hempty : file.val = []) : OnTrack file handle ⟨opened, []⟩ := by
  refine ⟨List.nil_prefix, current, hatt, ?_⟩
  show (opened.prefetch current).Plays file.val 0
  rw [hstart, hempty]
  exact ⟨Prefetch.follows_of_empty _ _ rfl rfl, Or.inr ⟨rfl, fun _ => ⟨Nat.le_refl _, rfl⟩⟩⟩

theorem onTrack_of_fill (param1 param2 : UInt16) :
    ∃ next, Playback.tick ⟨opened, []⟩ (.fill param1 param2) = some next ∧
      OnTrack file handle next := by
  obtain ⟨next, htick, hsame, hatt', hfills⟩ := fill_spec ⟨opened, []⟩ hatt param1 param2
  refine ⟨next, htick, by rw [hsame]; exact List.nil_prefix, current, hatt', ?_⟩
  rw [Playback.total, hsame]
  rw [hstart] at hfills
  generalize next.world.prefetch current = reader at hfills
  cases hfills with
  | current hempty hitems =>
      exact Prefetch.plays_of_read Delivers.sound Delivers.progress
        (Prefetch.follows_of_empty _ _ rfl rfl) hempty hitems
  | next hne => exact absurd rfl hne
  | full hne => exact absurd rfl hne

end Opened

-- Playback from a fresh open never starves exactly when a fill comes before the first
-- report, or there is nothing to play.
theorem never_starves_iff (w : World) (handle : DosHandle) (file : DosFile) (limit : Option Nat)
    (param1 param2 : UInt16) (ticks : List Tick) :
    ∃ opened calls,
      myCallback 4 1 param1 param2 ⟨some (handle, file), limit⟩ w = some (opened, calls) ∧
      (NeverStarves file ⟨opened, []⟩ ticks ↔
        file.val = [] ∨ ticks.head? ≠ some .report) := by
  obtain ⟨opened, calls, hopen, hopens⟩ := openHandle_spec ⟨some (handle, file), limit⟩ w
  refine ⟨opened, calls, congrArg some hopen, ?_⟩
  cases hopens with
  | refused h => exact nomatch h
  | granted hreply hatt hstart =>
      obtain ⟨rfl, rfl⟩ := Prod.mk.inj (Option.some.inj hreply)
      by_cases hempty : file.val = []
      · refine ⟨fun _ => Or.inl hempty, fun _ => ?_⟩
        exact (onTrack_of_empty_file hatt hstart hempty).neverStarves ticks
      · cases ticks with
        | nil => exact ⟨fun _ => Or.inr (fun h => nomatch h), fun _ => List.nil_prefix⟩
        | cons tick ticks =>
            cases tick with
            | fill fillParam1 fillParam2 =>
                obtain ⟨next, htick, hnext⟩ := onTrack_of_fill hatt hstart fillParam1 fillParam2
                refine ⟨fun _ => Or.inr (fun h => nomatch h), fun _ => ?_⟩
                refine ⟨List.nil_prefix, next, htick, fun h => ?_, hnext.neverStarves ticks⟩
                exact Tick.noConfusion h
            | report =>
                refine ⟨fun h => ?_, fun h => ?_⟩
                · exact absurd h (starves_of_report hatt hstart hempty ticks)
                · rcases h with h | h
                  · exact absurd h hempty
                  · exact absurd rfl h

theorem report_before_fill_starves :
    ¬∀ (w : World) (handle : DosHandle) (file : DosFile) (opened : World) (calls : List Call)
      (ticks : List Tick), myCallback 4 1 0 0 ⟨some (handle, file), none⟩ w = some (opened, calls) →
        NeverStarves file ⟨opened, []⟩ ticks := by
  intro h
  obtain ⟨_, next, htick, hreport, _⟩ := h .start 5 shortFile _ _ [.report] rfl
  obtain ⟨block, _, hsubmitted⟩ := hreport rfl (by decide)
  obtain rfl := Option.some.inj htick
  exact List.cons_ne_nil _ _ hsubmitted.symm

end ReelMagic.Streamer
