import ReelMagic.Streamer.Soundness

namespace ReelMagic.Streamer

open Library

-- A buffer with its whole area, whatever part of it was read into.
structure SameBuffer (w next : World) (ref : BufRef) : Prop where
  buf : next.hds0.buf ref = w.hds0.buf ref
  area : next.dmaBuf.slice ref.area DMA_BUF_SIZE = w.dmaBuf.slice ref.area DMA_BUF_SIZE

-- Not a report, an open or a close: what a driver may do while it reads a buffer.
def QuietStep (w : World) (event : Event) (next : World) : Prop :=
  (event.command = 1 ∨ event.command = 3) ∧ Step w event next

theorem SameBuffer.refl (w : World) (ref : BufRef) : SameBuffer w w ref := ⟨rfl, rfl⟩

theorem SameBuffer.trans {w mid next : World} {ref : BufRef} (h₁ : SameBuffer w mid ref)
    (h₂ : SameBuffer mid next ref) : SameBuffer w next ref :=
  ⟨h₂.buf.trans h₁.buf, h₂.area.trans h₁.area⟩

theorem BufRef.eq_other_of_ne {ref current : BufRef} (h : ref ≠ current) : ref = current.other := by
  cases ref <;> cases current <;> first | rfl | exact absurd rfl h

section

variable {w next : World} {file : DosFile} {handle : DosHandle} {current : BufRef}
  {reply : Reply} {calls : List Call}

-- A read into one buffer leaves the other alone.
theorem sameBuffer_of_read (att : Attached w file handle current) (ref : BufRef)
    (step : readIntoBuf reply ref w = some (next, calls)) : SameBuffer w next ref.other := by
  obtain ⟨items, hread, hlen, _, _⟩ := Files.read_spec w.dos handle.val DMA_BUF_SIZE
    reply.read file.val w.hds0.currentFilePosition att.dosFile
  have hdisjoint := ref.areas_disjoint
  simp only [readIntoBuf, if_neg att.dosFileHandle_nonneg, att.ptr, att.toNat_dosFileHandle, hread,
    Option.bind_eq_bind, Option.bind_some, Option.pure_def] at step
  obtain ⟨rfl, _⟩ := Prod.mk.inj (Option.some.inj step)
  refine ⟨Function.update_of_ne ref.other_ne _ _, ?_⟩
  exact Buffer.slice_memcpy_outside _ _ _ _ _ (by omega)

-- A fill leaves every buffer alone that has something in it.
theorem sameBuffer_of_fill (att : Attached w file handle current)
    (step : fillBuffers reply w = some (next, calls)) (ref : BufRef)
    (hne : (w.hds0.buf ref).readSize ≠ 0) : SameBuffer w next ref := by
  simp only [fillBuffers, att.currentBuf, att.nextBuf, Option.bind_eq_bind, Option.bind_some,
    Nat.lt_one_iff] at step
  by_cases hcurrent : (w.hds0.buf current).readSize = 0
  · rw [if_pos hcurrent] at step
    have href : ref ≠ current := by
      rintro rfl
      exact hne hcurrent
    rw [BufRef.eq_other_of_ne href]
    exact sameBuffer_of_read att current step
  · rw [if_neg hcurrent] at step
    by_cases hnext : (w.hds0.buf current.other).readSize = 0
    · rw [if_pos hnext] at step
      have href : ref ≠ current.other := by
        rintro rfl
        exact hne hnext
      rw [BufRef.eq_other_of_ne href]
      exact sameBuffer_of_read att current.other step
    · rw [if_neg hnext] at step
      obtain ⟨rfl, _⟩ := Prod.mk.inj (Option.some.inj step)
      exact SameBuffer.refl w ref

theorem quietStep_attached {event : Event} (att : Attached w file handle current)
    (hne : (w.hds0.buf current).readSize ≠ 0) (step : QuietStep w event next) :
    Attached next file handle current ∧ SameBuffer w next current := by
  obtain ⟨command, target, param1, param2, reply, calls⟩ := event
  obtain ⟨hquiet, hcall⟩ := step
  rcases hquiet with hfill | hunknown
  · obtain rfl : command = 1 := hfill
    have hstep : (if w.checkHd target then fillBuffers reply w else some (w, [])) =
        some (next, calls) := hcall
    split at hstep
    · refine ⟨?_, sameBuffer_of_fill att hstep current hne⟩
      obtain ⟨next', calls', hfills, hatt, _⟩ := fillBuffers_spec att reply
      obtain ⟨rfl, _⟩ := Prod.mk.inj (Option.some.inj (hstep.symm.trans hfills))
      exact hatt
    · obtain ⟨rfl, _⟩ := Prod.mk.inj (Option.some.inj hstep)
      exact ⟨att, SameBuffer.refl w current⟩
  · obtain rfl : command = 3 := hunknown
    have hstep : some (w, []) = some (next, calls) := hcall
    obtain ⟨rfl, _⟩ := Prod.mk.inj (Option.some.inj hstep)
    exact ⟨att, SameBuffer.refl w current⟩

-- The current buffer stays current and is left alone as long as it has something in it, and
-- leaving it alone is what keeps something in it.
theorem quietRun_attached {quiet : List Event} (att : Attached w file handle current)
    (hne : (w.hds0.buf current).readSize ≠ 0) (run : Run w QuietStep quiet next) :
    Attached next file handle current ∧ SameBuffer w next current := by
  refine run.invariant (fun _ mid => Attached mid file handle current ∧ SameBuffer w mid current)
    ⟨att, SameBuffer.refl w current⟩ ?_
  rintro _ mid event after ⟨hatt, hsame⟩ step
  have hfull : (mid.hds0.buf current).readSize ≠ 0 := by
    rw [hsame.buf]
    exact hne
  obtain ⟨hatt', hsame'⟩ := quietStep_attached hatt hfull step
  exact ⟨hatt', hsame.trans hsame'⟩

end

-- What a report hands to the driver is the current buffer.
theorem submitted_is_current {events : List Event} {w next : World} {handle param1 param2 : UInt16}
    {reply : Reply} {calls : List Call} {target : UInt8} {ptr size : Nat} (run : Reached events w)
    (step : myCallback 2 handle param1 param2 reply w = some (next, calls))
    (submit : .rmSubmitBuffer target ptr size ∈ calls) :
    ∃ file dosHandle current, Attached next file dosHandle current ∧ ptr = current.area ∧
      size = (next.hds0.buf current).readSize ∧ (next.hds0.buf current).readSize ≠ 0 := by
  rcases playing_of_reached run with hidle | ⟨file, dosHandle, current, _, hatt, _⟩
  · rcases idleStep_of_eq hidle step with ⟨_, rfl⟩ | ⟨h, _, _⟩
    · exact absurd submit List.not_mem_nil
    · exact absurd h (by decide)
  · cases attachedStep_of_eq hatt step with
    | ignored => exact absurd submit List.not_mem_nil
    | opened h _ _ => exact absurd h (by decide)
    | filled h _ _ _ _ => exact absurd h (by decide)
    | closed h _ _ _ => exact absurd h (by decide)
    | reported current' _ _ hatt' hbefore _ =>
        have hsubmitted : .rmSubmitBuffer target ptr size ∈
            submission handle current' (next.block current') := by
          rcases List.mem_append.mp submit with h | h
          · rcases hbefore _ h with h | h
            · exact Call.noConfusion h
            · exact Call.noConfusion h
          · exact h
        obtain ⟨hne, hcall⟩ := eq_of_mem_submission hsubmitted
        obtain ⟨_, rfl, hsize⟩ := Call.rmSubmitBuffer.inj hcall
        refine ⟨file, dosHandle, current', hatt', rfl, ?_, ?_⟩
        · rw [hsize, World.block_items_length]
        · exact mt (next.readSize_eq_zero_iff current').mp hne

theorem fill_keeps_full {events : List Event} {w next : World} {handle param1 param2 : UInt16}
    {reply : Reply} {calls : List Call} (run : Reached events w)
    (step : myCallback 1 handle param1 param2 reply w = some (next, calls)) (ref : BufRef)
    (hne : (w.hds0.buf ref).readSize ≠ 0) : SameBuffer w next ref := by
  have hstep : (if w.checkHd handle then fillBuffers reply w else some (w, [])) =
      some (next, calls) := step
  split at hstep
  · rename_i hcheck
    rcases playing_of_reached run with hidle | ⟨file, dosHandle, current, _, hatt, _⟩
    · exact absurd hcheck (hidle handle)
    · exact sameBuffer_of_fill hatt hstep ref hne
  · obtain ⟨rfl, _⟩ := Prod.mk.inj (Option.some.inj hstep)
    exact SameBuffer.refl w ref

-- From a report that submits a buffer up to the next report, open or close, the buffer stays
-- the current one and neither its fields nor any byte of its area changes. No fill at all
-- touches a buffer that has something in it.
theorem submitted_buffer_untouched :
    (∀ events w, Reached events w → ∀ handle param1 param2 reply next calls target ptr size,
      myCallback 2 handle param1 param2 reply w = some (next, calls) →
        Call.rmSubmitBuffer target ptr size ∈ calls →
          ∃ ref : BufRef, (next.hds0.buf ref).ptr = some ptr ∧
            (next.hds0.buf ref).readSize = size ∧ ptr = ref.area ∧
            ∀ quiet after, Run next QuietStep quiet after →
              after.hds0.currentBuf = some ref ∧ SameBuffer next after ref) ∧
    ∀ events w, Reached events w → ∀ handle param1 param2 reply next calls,
      myCallback 1 handle param1 param2 reply w = some (next, calls) →
        ∀ ref, (w.hds0.buf ref).readSize ≠ 0 → SameBuffer w next ref := by
  constructor
  · intro events w run handle param1 param2 reply next calls target ptr size step submit
    obtain ⟨file, dosHandle, current, hatt, rfl, hsize, hne⟩ := submitted_is_current run step submit
    refine ⟨current, hatt.ptr current, hsize.symm, rfl, ?_⟩
    intro quiet after hquiet
    obtain ⟨hatt', hsame⟩ := quietRun_attached hatt hne hquiet
    exact ⟨hatt'.currentBuf, hsame⟩
  · intro events w run handle param1 param2 reply next calls step ref hne
    exact fill_keeps_full run step ref hne

-- A fill after the first report.
theorem submitted_buffer_untouched_short :
    ∃ next after fill, Run next QuietStep [fill] after ∧ fill.command = 1 ∧ fill.handle = 1 ∧
      ∃ ref : BufRef, (next.hds0.buf ref).ptr = some DMA_BUF_SIZE ∧
        after.hds0.currentBuf = some ref ∧ SameBuffer next after ref := by
  have run : Reached [openShortFile] (openHandle 1 openShortFile.reply .start).1 := .snoc .nil rfl
  obtain ⟨next, calls, step⟩ := callback_defined run 2 1 1 0 ⟨none, some DMA_BUF_SIZE⟩
  have hcalls : some calls = some [.dosSeek 5 1, .dosRead 5 DMA_BUF_SIZE,
      .rmSubmitBuffer 1 DMA_BUF_SIZE 2] := (congrArg (Option.map Prod.snd) step).symm.trans rfl
  have submit : Call.rmSubmitBuffer 1 DMA_BUF_SIZE 2 ∈ calls := by
    rw [Option.some.inj hcalls]
    exact List.mem_append_right [Call.dosSeek 5 1, .dosRead 5 DMA_BUF_SIZE] (List.mem_singleton_self _)
  have run₂ : Reached ([openShortFile] ++ [⟨2, 1, 1, 0, ⟨none, some DMA_BUF_SIZE⟩, calls⟩]) next :=
    .snoc run step
  obtain ⟨after, fillCalls, hfill⟩ := callback_defined run₂ 1 1 0 0 ⟨none, some DMA_BUF_SIZE⟩
  have hquiet : Run next QuietStep [⟨1, 1, 0, 0, ⟨none, some DMA_BUF_SIZE⟩, fillCalls⟩] after :=
    .snoc .nil ⟨Or.inl rfl, hfill⟩
  obtain ⟨ref, hptr, _, _, hkept⟩ := submitted_buffer_untouched.1 [openShortFile] _ run 1 1 0
    ⟨none, some DMA_BUF_SIZE⟩ next calls 1 DMA_BUF_SIZE 2 step submit
  exact ⟨next, after, _, hquiet, rfl, rfl, ref, hptr, hkept _ after hquiet⟩

end ReelMagic.Streamer
