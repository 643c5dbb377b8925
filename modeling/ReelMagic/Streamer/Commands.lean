import ReelMagic.Streamer.Theorems

namespace ReelMagic.Streamer

open Library

-- No callback gets past `CHECK_HD`.
def Idle (w : World) : Prop := ∀ target, ¬w.checkHd target

theorem idle_start : Idle .start := by
  rintro target ⟨h, _⟩
  exact HdPtr.noConfusion h

theorem idle_of_dosFileHandle {w : World} (h : w.hds0.dosFileHandle = -1) : Idle w :=
  fun _ hcheck => hcheck.2.2 h

-- What command 4 on handle 1 does.
inductive Opens (w : World) (reply : Reply) (next : World) : List Call → Prop
  | granted {file : DosFile} {handle : DosHandle} :
      reply.opened = some (handle, file) → Attached next file handle .buf2 →
        next.prefetch .buf2 = .start → next.dos = w.dos.openAt handle.val file.val →
          Opens w reply next
            [.dosOpen (some (handle, file)), .rmSetPtr 1 0x208 .hds0, .rmSet 1 0x302 1 0]
  | refused :
      reply.opened = none → next.hds0.dosFileHandle = -1 → next.dos = w.dos →
        Opens w reply next [.dosOpen none]

theorem openHandle_spec (reply : Reply) (w : World) :
    ∃ next calls, openHandle 1 reply w = (next, calls) ∧ Opens w reply next calls := by
  rw [openHandle, if_neg (fun h => h rfl)]
  cases hopened : reply.opened with
  | none =>
      simp only [openDosFileHandle, hopened]
      exact ⟨_, _, rfl, .refused hopened rfl rfl⟩
  | some opened =>
      obtain ⟨handle, file⟩ := opened
      have hne : (handle.val : Int) ≠ -1 := by omega
      simp only [openDosFileHandle, hopened, if_neg hne]
      refine ⟨_, _, rfl, .granted hopened ?_ ?_ rfl⟩
      · refine ⟨?_, rfl, rfl, ?_, Nat.zero_lt_succ _, rfl, rfl, ?_, ?_⟩
        · exact Function.update_self (1 : UInt8) HdPtr.hds0 w.slot208
        · show (w.dos.openAt handle.val file.val).table handle.val = _
          rw [Files.openAt_table, if_pos rfl]
          rfl
        · intro ref
          cases ref <;> rfl
        · intro ref
          cases ref <;> exact Nat.zero_le _
      · rfl

-- A reported block goes to the driver if there is anything in it.
def submission (handle : UInt16) (ref : BufRef) (block : Block UInt8) : List Call :=
  if block.items = [] then []
  else [.rmSubmitBuffer handle.toUInt8 ref.area block.items.length]

-- What a callback does while a file is open.
inductive AttachedStep (w : World) (file : DosFile) (handle : DosHandle) (current : BufRef)
    (command target param1 param2 : UInt16) (reply : Reply) : World → List Call → Prop
  | ignored : AttachedStep w file handle current command target param1 param2 reply w []
  | opened {next : World} {calls : List Call} :
      command = 4 → target = 1 → Opens w reply next calls →
        AttachedStep w file handle current command target param1 param2 reply next calls
  | filled {next : World} {calls : List Call} :
      command = 1 → target = 1 → Attached next file handle current →
        (∀ call ∈ calls, call = .dosRead handle.val DMA_BUF_SIZE) →
          Prefetch.Fills (Delivers file reply) (w.prefetch current) (next.prefetch current) →
            AttachedStep w file handle current command target param1 param2 reply next calls
  | reported {next : World} (current' : BufRef) {calls : List Call} :
      command = 2 → target = 1 → Attached next file handle current' →
        (∀ call ∈ calls, call = .dosSeek handle.val (requestedPosition param1 param2) ∨
          call = .dosRead handle.val DMA_BUF_SIZE) →
          Prefetch.Selects (Delivers file reply) (requestedPosition param1 param2)
            (w.prefetch current) (next.prefetch current') →
              AttachedStep w file handle current command target param1 param2 reply next
                (calls ++ submission target current' (next.block current'))
  | closed {next : World} :
      command = 5 → target = 1 → Idle next → next.dos = w.dos.close handle.val →
        AttachedStep w file handle current command target param1 param2 reply next
          [.dosClose handle.val, .rmSetPtr 1 0x208 .null]

theorem requestedPosition_eq (param1 param2 : UInt16) :
    requestedPosition param1 param2 = param2.toNat * 65536 + param1.toNat := by
  have h := Nat.shiftLeft_add_eq_or_of_lt (i := 16) param1.toNat_lt param2.toNat
  rw [requestedPosition, ← h, Nat.shiftLeft_eq]

theorem requestedPosition_lt (param1 param2 : UInt16) : requestedPosition param1 param2 < 0x100000000 := by
  have h1 := param1.toNat_lt
  have h2 := param2.toNat_lt
  rw [requestedPosition_eq]
  omega

section Attached

variable {w : World} {file : DosFile} {handle : DosHandle} {current : BufRef}

theorem submitCurrent_spec (att : Attached w file handle current) (target : UInt16) :
    submitCurrent target w = some (submission target current (w.block current)) := by
  simp only [submitCurrent, att.currentBuf, att.ptr, Option.bind_eq_bind, Option.bind_some,
    Option.pure_def, submission, ← World.readSize_eq_zero_iff, World.block_items_length,
    Nat.pos_iff_ne_zero]
  by_cases h : (w.hds0.buf current).readSize = 0
  · rw [if_neg (fun hne => hne h), if_pos h]
  · rw [if_pos h, if_neg h]

theorem closeHandle_spec (att : Attached w file handle current) :
    ∃ next, closeHandle 1 w = (next, [.dosClose handle.val, .rmSetPtr 1 0x208 .null]) ∧
      Idle next ∧ next.dos = w.dos.close handle.val := by
  simp only [closeHandle, closeDosFileHandle, if_neg att.dosFileHandle_nonneg,
    att.toNat_dosFileHandle]
  exact ⟨_, rfl, idle_of_dosFileHandle rfl, rfl⟩

theorem myCallback_attached (att : Attached w file handle current)
    (command target param1 param2 : UInt16) (reply : Reply) :
    ∃ next calls, myCallback command target param1 param2 reply w = some (next, calls) ∧
      AttachedStep w file handle current command target param1 param2 reply next calls := by
  have hcheck := att.checkHd_iff target
  rw [myCallback]
  split
  · rename_i hcommand
    by_cases htarget : target = 1
    · subst htarget
      obtain ⟨next, calls, hopen, h⟩ := openHandle_spec reply w
      exact ⟨next, calls, congrArg some hopen, .opened (UInt16.toNat_inj.mp hcommand) rfl h⟩
    · exact ⟨w, [], by rw [openHandle, if_pos htarget], .ignored⟩
  · exact ⟨w, [], rfl, .ignored⟩
  · rename_i hcommand
    by_cases htarget : target = 1
    · obtain ⟨next, calls, hfill, hatt, hcalls, h⟩ := fillBuffers_spec att reply
      exact ⟨next, calls, by rw [if_pos (hcheck.mpr htarget), hfill],
        .filled (UInt16.toNat_inj.mp hcommand) htarget hatt hcalls h⟩
    · exact ⟨w, [], if_neg (fun h => htarget (hcheck.mp h)), .ignored⟩
  · rename_i hcommand
    by_cases htarget : target = 1
    · obtain ⟨next, calls, current', hselect, hatt, hcalls, h⟩ := selectBuffer_spec att reply
        (requestedPosition param1 param2) (requestedPosition_lt param1 param2)
      refine ⟨next, calls ++ submission target current' (next.block current'), ?_,
        .reported current' (UInt16.toNat_inj.mp hcommand) htarget hatt hcalls h⟩
      simp only [if_pos (hcheck.mpr htarget), reportBuffer, hselect, submitCurrent_spec hatt,
        Option.bind_eq_bind, Option.bind_some, Option.pure_def]
    · exact ⟨w, [], if_neg (fun h => htarget (hcheck.mp h)), .ignored⟩
  · rename_i hcommand
    by_cases htarget : target = 1
    · subst htarget
      obtain ⟨next, hclose, hidle, hdos⟩ := closeHandle_spec att
      exact ⟨next, _, by rw [if_pos (hcheck.mpr rfl), hclose],
        .closed (UInt16.toNat_inj.mp hcommand) rfl hidle hdos⟩
    · exact ⟨w, [], by rw [if_neg (fun h => htarget (hcheck.mp h))], .ignored⟩
  · exact ⟨w, [], rfl, .ignored⟩

theorem attachedStep_of_eq {command target param1 param2 : UInt16} {reply : Reply} {next : World}
    {calls : List Call} (att : Attached w file handle current)
    (step : myCallback command target param1 param2 reply w = some (next, calls)) :
    AttachedStep w file handle current command target param1 param2 reply next calls := by
  obtain ⟨next', calls', hcall, heffect⟩ :=
    myCallback_attached att command target param1 param2 reply
  obtain ⟨rfl, rfl⟩ := Prod.mk.inj (Option.some.inj (step.symm.trans hcall))
  exact heffect

end Attached

-- Without one, only an open does anything.
theorem myCallback_idle {w : World} (idle : Idle w) (command target param1 param2 : UInt16)
    (reply : Reply) :
    ∃ next calls, myCallback command target param1 param2 reply w = some (next, calls) ∧
      ((next = w ∧ calls = []) ∨
        (command = 4 ∧ target = 1 ∧ Opens w reply next calls)) := by
  rw [myCallback]
  split
  · rename_i hcommand
    by_cases htarget : target = 1
    · subst htarget
      obtain ⟨next, calls, hopen, h⟩ := openHandle_spec reply w
      exact ⟨next, calls, congrArg some hopen, Or.inr ⟨UInt16.toNat_inj.mp hcommand, rfl, h⟩⟩
    · exact ⟨w, [], by rw [openHandle, if_pos htarget], Or.inl ⟨rfl, rfl⟩⟩
  · exact ⟨w, [], rfl, Or.inl ⟨rfl, rfl⟩⟩
  · exact ⟨w, [], if_neg (idle target), Or.inl ⟨rfl, rfl⟩⟩
  · exact ⟨w, [], if_neg (idle target), Or.inl ⟨rfl, rfl⟩⟩
  · exact ⟨w, [], by rw [if_neg (idle target)], Or.inl ⟨rfl, rfl⟩⟩
  · exact ⟨w, [], rfl, Or.inl ⟨rfl, rfl⟩⟩

theorem idleStep_of_eq {w next : World} {command target param1 param2 : UInt16} {reply : Reply}
    {calls : List Call} (idle : Idle w)
    (step : myCallback command target param1 param2 reply w = some (next, calls)) :
    (next = w ∧ calls = []) ∨ (command = 4 ∧ target = 1 ∧ Opens w reply next calls) := by
  obtain ⟨next', calls', hcall, heffect⟩ :=
    myCallback_idle idle command target param1 param2 reply
  obtain ⟨rfl, rfl⟩ := Prod.mk.inj (Option.some.inj (step.symm.trans hcall))
  exact heffect

end ReelMagic.Streamer
