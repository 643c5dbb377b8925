import ReelMagic.Analyze.Session
import ReelMagic.Analyze.Text
import ReelMagic.Player.Sessions

namespace ReelMagic.Player

open Library Library.Registers
open ReelMagic.Analyze (Forest analyze analyze_forest lineOf)
open ReelMagic.Recorder (Event FarPtr Regs recordAll)
open ReelMagic.Rmsdk (InitTalk Interrupt Polled driverCall rmdevCall)

-- The interrupts that the recorder records: all of the driver's, and those of INT 2Fh that are
-- for RMDEV.SYS.
def Recorded (i : Interrupt) : Prop := i.vector = 0x80 ∨ i.vector = 0x2F ∧ i.regs.ax >>> 8 = 0x98

-- What the recorder sees of it, without a callback during the call. `filename` is what stands in
-- memory.
def eventsOf (filename : FarPtr → Vector UInt8 128) (i : Interrupt) : List Event :=
  if i.vector = 0x80 then
    [.fmpdrvCallEnter i.regs (filename ⟨i.regs.dx, i.regs.ax⟩), .fmpdrvCallExit i.reply]
  else if i.regs.ax >>> 8 = 0x98 then [.rmdevsysCallEnter i.regs, .rmdevsysCallExit i.reply]
  else []

def callsOf (filename : FarPtr → Vector UInt8 128) : List Interrupt → Forest
  | [] => .nil
  | i :: talk =>
      if i.vector = 0x80 then
        .fmpdrvCall i.regs (filename ⟨i.regs.dx, i.regs.ax⟩) .nil i.reply (callsOf filename talk)
      else if i.regs.ax >>> 8 = 0x98 then
        .rmdevsysCall i.regs .nil i.reply (callsOf filename talk)
      else callsOf filename talk

-- A reader of the report: the calls with their registers, names of files aside.
def readCalls : List Analyze.Line → Option (List Interrupt)
  | [] => some []
  | ⟨0, .driverCall bh bl cx ax dx⟩ :: ⟨1, .filename _⟩ :: ⟨0, .driverReturn dx' ax' bx' cx'⟩ ::
      lines =>
      (readCalls lines).map
        (⟨0x80, ⟨ax, bh * 256 + bl, cx, dx⟩, ⟨ax', bx', cx', dx'⟩⟩ :: ·)
  | ⟨0, .driverCall bh bl cx ax dx⟩ :: ⟨0, .driverReturn dx' ax' bx' cx'⟩ :: lines =>
      (readCalls lines).map
        (⟨0x80, ⟨ax, bh * 256 + bl, cx, dx⟩, ⟨ax', bx', cx', dx'⟩⟩ :: ·)
  | ⟨0, .rmdevsysCall ax bx cx dx⟩ :: ⟨0, .rmdevsysReturn ax' bx' cx' dx'⟩ :: lines =>
      (readCalls lines).map (⟨0x2F, ⟨ax, bx, cx, dx⟩, ⟨ax', bx', cx', dx'⟩⟩ :: ·)
  | _ => none

section

variable (filename : FarPtr → Vector UInt8 128)

theorem callsOf_events (talk : List Interrupt) :
    (callsOf filename talk).events = talk.flatMap (eventsOf filename) := by
  induction talk with
  | nil => rfl
  | cons i talk ih =>
      rw [callsOf, List.flatMap_cons, eventsOf]
      split
      · rw [Forest.events, ih]
        rfl
      split
      · rw [Forest.events, ih]
        rfl
      · exact ih

theorem callsOf_depth (talk : List Interrupt) : (callsOf filename talk).depth ≤ 1 := by
  induction talk with
  | nil => exact Nat.zero_le 1
  | cons i talk ih =>
      rw [callsOf]
      split
      · exact Nat.max_le.mpr ⟨Nat.le_refl 1, ih⟩
      split
      · exact Nat.max_le.mpr ⟨Nat.le_refl 1, ih⟩
      · exact ih

theorem readCalls_callsOf (talk : List Interrupt) (h : ∀ i ∈ talk, Recorded i) :
    readCalls (callsOf filename talk).lines = some talk := by
  induction talk with
  | nil => rfl
  | cons i talk ih =>
      obtain ⟨hi, htalk⟩ := List.forall_mem_cons.mp h
      have hread := ih htalk
      obtain ⟨vector, regs, reply⟩ := i
      have hbx : ∀ value : UInt16, (value >>> 8) * 256 + (value &&& 0xFF) = value :=
        Analyze.bytes_of_uint16
      rw [callsOf]
      rcases hi with hdriver | ⟨hmultiplex, hax⟩
      · obtain rfl : vector = 0x80 := hdriver
        rw [if_pos rfl]
        by_cases hopen : regs.bx >>> 8 = 1
        · show readCalls ((Forest.records 0 _).map lineOf) = _
          rw [Forest.records, if_pos hopen]
          show Option.map _ (readCalls (callsOf filename talk).lines) = _
          rw [hread, hbx]
          rfl
        · show readCalls ((Forest.records 0 _).map lineOf) = _
          rw [Forest.records, if_neg hopen]
          show Option.map _ (readCalls (callsOf filename talk).lines) = _
          rw [hread, hbx]
          rfl
      · obtain rfl : vector = 0x2F := hmultiplex
        rw [if_neg (show ¬(0x2F : UInt8) = 0x80 by decide), if_pos hax]
        show Option.map _ (readCalls (callsOf filename talk).lines) = _
        rw [hread]
        rfl

end

-- The call that closes a stream.
def IsClose (i : Interrupt) : Prop := i.vector = 0x80 ∧ i.regs.bx >>> 8 = 2

section

variable {found : Surroundings} {talk : List Interrupt} {exit : Exit}

theorem isClose_driverCall (command handle : UInt8) (subfunc param1 param2 : UInt16) (reply : Regs) :
    IsClose (driverCall command handle subfunc param1 param2 reply) ↔ command = 2 := by
  have hcommand : (driverCall command handle subfunc param1 param2 reply).regs.bx >>> 8 =
      command.toUInt16 := word_shiftRight command handle
  rw [IsClose, hcommand]
  constructor
  · rintro ⟨_, htwo⟩
    exact UInt8.toUInt16_inj.mp htwo
  · rintro rfl
    exact ⟨rfl, rfl⟩

theorem not_isClose_rmdevCall (function : UInt8) (subfunction param1 param2 : UInt16) (reply : Regs) :
    ¬IsClose (rmdevCall function subfunction param1 param2 reply) := by
  rintro ⟨hvector, _⟩
  have hne : (0x2F : UInt8) ≠ 0x80 := by decide
  exact hne hvector

theorem recorded_driverCall (command handle : UInt8) (subfunc param1 param2 : UInt16) (reply : Regs) :
    Recorded (driverCall command handle subfunc param1 param2 reply) := Or.inl rfl

-- The function is one that fits beside the 98h.
theorem recorded_rmdevCall {function : UInt8} (h : (0x9800 ||| function.toUInt16) >>> 8 = 0x98)
    (subfunction param1 param2 : UInt16) (reply : Regs) :
    Recorded (rmdevCall function subfunction param1 param2 reply) := Or.inr ⟨rfl, h⟩

theorem initTalk_calls {memory : Rmsdk.Memory} {loc : FarPtr} {rv : Int}
    (h : InitTalk memory loc talk rv) : ∀ i ∈ talk, Recorded i ∧ ¬IsClose i := by
  have hhello : ∀ subfunction reply, Recorded (rmdevCall 0 subfunction 0 0 reply) ∧
      ¬IsClose (rmdevCall 0 subfunction 0 0 reply) := fun subfunction reply =>
    ⟨recorded_rmdevCall (by decide) subfunction 0 0 reply,
      not_isClose_rmdevCall 0 subfunction 0 0 reply⟩
  have hpath : ∀ reply, Recorded (rmdevCall 3 loc.off 0 loc.seg reply) ∧
      ¬IsClose (rmdevCall 3 loc.off 0 loc.seg reply) := fun reply =>
    ⟨recorded_rmdevCall (by decide) loc.off 0 loc.seg reply,
      not_isClose_rmdevCall 3 loc.off 0 loc.seg reply⟩
  cases h with
  | noRmdev => simp [hhello]
  | notResident => simp [hhello, hpath]
  | found => simp [hhello, hpath]

theorem polled_calls {handle : UInt8} {done : Regs} (h : Polled handle talk done) :
    ∀ i ∈ talk, Recorded i := by
  obtain ⟨playing, _, _, rfl⟩ := h
  intro i hi
  obtain ⟨reply, _, rfl⟩ := List.mem_map.mp hi
  exact recorded_driverCall 0xA handle 0x204 0 0 reply

theorem fileTalk_recorded {ptr : FarPtr} (h : FileTalk ptr talk exit) : ∀ i ∈ talk, Recorded i := by
  cases h with
  | openFailed => simp [openingCalls, recorded_driverCall]
  | unreadable => simp [openingCalls, recorded_driverCall]
  | played _ _ hpolls =>
      have hpolled := polled_calls hpolls
      intro i hi
      simp only [openingCalls, List.mem_append, List.mem_cons, List.not_mem_nil, or_false] at hi
      rcases hi with (((rfl | rfl | rfl) | rfl | rfl) | hi) | rfl
      all_goals first | exact recorded_driverCall _ _ _ _ _ _ | exact hpolled i hi

theorem fileTalk_close {ptr : FarPtr} (h : FileTalk ptr talk exit) :
    exit = .returned 0 ↔ ∃ i ∈ talk, IsClose i := by
  cases h with
  | openFailed => simp [openingCalls, isClose_driverCall]
  | unreadable => simp [openingCalls, isClose_driverCall]
  | played =>
      refine ⟨fun _ => ⟨_, List.mem_append_right _ (List.mem_singleton.mpr rfl), ?_⟩, fun _ => rfl⟩
      exact (isClose_driverCall _ _ _ _ _ _).mpr rfl

theorem runTalk_recorded (h : RunTalk found talk exit) : ∀ i ∈ talk, Recorded i := by
  cases h with
  | noLogfile => exact fun _ hmem => absurd hmem List.not_mem_nil
  | usage => exact fun _ hmem => absurd hmem List.not_mem_nil
  | initFailed _ _ hinit => exact fun i hi => (initTalk_calls hinit i hi).1
  | file _ _ hinit _ hfile =>
      intro i hi
      rcases List.mem_append.mp hi with hi | hi
      · exact (initTalk_calls hinit i hi).1
      · exact fileTalk_recorded hfile i hi

theorem runTalk_close (h : RunTalk found talk exit) :
    exit = .returned 0 ↔ ∃ i ∈ talk, IsClose i := by
  cases h with
  | noLogfile => simp
  | usage => simp
  | initFailed _ _ hinit =>
      constructor
      · intro heq
        cases heq
      · rintro ⟨i, hi, hclose⟩
        exact absurd hclose (initTalk_calls hinit i hi).2
  | @file opening later _ _ _ hinit _ hfile =>
      rw [fileTalk_close hfile]
      constructor
      · rintro ⟨i, hi, hclose⟩
        exact ⟨i, List.mem_append_right _ hi, hclose⟩
      · rintro ⟨i, hi, hclose⟩
        rcases List.mem_append.mp hi with hi | hi
        · exact absurd hclose (initTalk_calls hinit i hi).2
        · exact ⟨i, hi, hclose⟩

end

-- Under the recorder, what `analyze` prints of a run of the player can be read back to its
-- interrupts, all registers included, and a run has ended well just where a stream was closed.
theorem player_report (found : Surroundings) (replies : List Regs)
    (filename : FarPtr → Vector UInt8 128) (w : Nat) :
    Ends (fun _ => True)
      (fun result =>
        readCalls (analyze (w + 1)
          (recordAll (result.2.interrupts.flatMap (eventsOf filename))).log) =
            some result.2.interrupts ∧
        (result.1 = .returned 0 ↔ ∃ i ∈ result.2.interrupts, IsClose i))
      (main found (.start replies)) := by
  have hmain := conducts_main found (.start replies)
  cases hrun : main found (.start replies) with
  | error stop => trivial
  | ok result =>
      obtain ⟨talk, exit, p, rfl, htalk, halong⟩ := hmain.sound _ hrun
      have hinterrupts : p.interrupts = talk := halong.interrupts
      have hdepth : (callsOf filename talk).depth < 2 ^ (w + 1) := by
        have hone : 1 < 2 ^ (w + 1) := Nat.one_lt_two_pow (Nat.succ_ne_zero w)
        exact Nat.lt_of_le_of_lt (callsOf_depth filename talk) hone
      show readCalls (analyze (w + 1) (recordAll (p.interrupts.flatMap (eventsOf filename))).log) =
        some p.interrupts ∧ (exit = .returned 0 ↔ ∃ i ∈ p.interrupts, IsClose i)
      rw [hinterrupts, ← callsOf_events, (analyze_forest _ hdepth).1]
      exact ⟨readCalls_callsOf filename talk (runTalk_recorded htalk), runTalk_close htalk⟩

end ReelMagic.Player
