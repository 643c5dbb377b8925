import ReelMagic.Streamer.Soundness

namespace ReelMagic.Streamer

open Library

-- How the fields are tied together while a file is open: what is in the next buffer follows
-- what is in the current one, and the shadow position, which DOS shares, follows both. An empty
-- buffer keeps the label of its last read, so its label says nothing.
structure Contiguous (w : World) (current next : BufRef) : Prop where
  currentBuf : w.hds0.currentBuf = some current
  nextBuf : w.hds0.nextBuf = some next
  distinct : current ≠ next
  ptr : ∀ ref, (w.hds0.buf ref).ptr = some ref.area
  areas : current.area + DMA_BUF_SIZE ≤ next.area ∨ next.area + DMA_BUF_SIZE ≤ current.area
  inOrder : (w.hds0.buf next).readSize ≠ 0 → (w.hds0.buf current).readSize ≠ 0
  follows : (w.hds0.buf next).readSize ≠ 0 →
    (w.hds0.buf next).filePosition =
        (w.hds0.buf current).filePosition + (w.hds0.buf current).readSize ∧
      w.hds0.currentFilePosition =
        (w.hds0.buf next).filePosition + (w.hds0.buf next).readSize
  cursor : (w.hds0.buf current).readSize ≠ 0 → (w.hds0.buf next).readSize = 0 →
    w.hds0.currentFilePosition =
      (w.hds0.buf current).filePosition + (w.hds0.buf current).readSize
  shadow : ∃ handle : DosHandle, ∃ data, w.hds0.dosFileHandle = handle.val ∧
    w.dos.table handle.val = some ⟨data, w.hds0.currentFilePosition⟩

-- The reader's view of the two buffers, taken back to their fields.
theorem Attached.contiguous {w : World} {file : DosFile} {handle : DosHandle} {current : BufRef}
    (att : Attached w file handle current) (hfollows : (w.prefetch current).Follows file.val) :
    Contiguous w current current.other := by
  have hcurrent := w.readSize_eq_zero_iff current
  have hnext := w.readSize_eq_zero_iff current.other
  refine ⟨att.currentBuf, att.nextBuf, current.other_ne.symm, att.ptr,
    current.areas_disjoint.symm, ?_, ?_, ?_, ⟨handle, file.val, att.dosFileHandle, att.dosFile⟩⟩
  · intro hne hzero
    exact hne (hnext.mpr (hfollows.inOrder (hcurrent.mp hzero)))
  · intro hne
    obtain ⟨hposition, hcursor⟩ := hfollows.contiguous (mt hnext.mpr hne)
    simp only [World.prefetch, World.block_items_length] at hposition hcursor
    exact ⟨hposition, hcursor⟩
  · intro hne hzero
    have hcursor := hfollows.cursor (mt hcurrent.mpr hne) (hnext.mp hzero)
    simp only [World.prefetch, World.block_items_length] at hcursor
    exact hcursor

-- Whatever callbacks came before, while a file is open the two buffers are contiguous.
theorem buffers_contiguous {events : List Event} {w : World} (run : Reached events w)
    (hopen : w.checkHd 1) :
    ∃ current next, Contiguous w current next := by
  rcases playing_of_reached run with hidle | ⟨file, handle, current, _, hatt, hfollows⟩
  · exact absurd hopen (hidle 1)
  · exact ⟨current, current.other, hatt.contiguous hfollows⟩

-- DOS delivers two bytes of the three and then the last, and the first two are reported.
def fillShortFile : Event := ⟨1, 1, 0, 0, ⟨none, some 2⟩, [.dosRead 5 DMA_BUF_SIZE]⟩

def reportShortFile : Event := ⟨2, 1, 0, 0, ⟨none, none⟩, [.rmSubmitBuffer 1 DMA_BUF_SIZE 2]⟩

theorem buffers_contiguous_short :
    ∃ w, Reached [openShortFile, fillShortFile, fillShortFile, reportShortFile] w ∧
      (w.hds0.buf .buf2).readSize = 2 ∧ (w.hds0.buf .buf1).readSize = 1 ∧ Contiguous w .buf2 .buf1 := by
  have opened : Reached [openShortFile] _ := .snoc .nil rfl
  have filled : Reached [openShortFile, fillShortFile] _ := .snoc opened rfl
  have refilled : Reached [openShortFile, fillShortFile, fillShortFile] _ := .snoc filled rfl
  have run : Reached [openShortFile, fillShortFile, fillShortFile, reportShortFile] _ :=
    .snoc refilled rfl
  obtain ⟨current, next, hcontiguous⟩ := buffers_contiguous run (by decide)
  obtain rfl := Option.some.inj (hcontiguous.currentBuf.symm.trans rfl)
  obtain rfl := Option.some.inj (hcontiguous.nextBuf.symm.trans rfl)
  exact ⟨_, run, rfl, rfl, hcontiguous⟩

end ReelMagic.Streamer
