import ReelMagic.Library.Prefetch
import ReelMagic.Streamer

namespace ReelMagic.Streamer

open Library

def BufRef.other : BufRef → BufRef
  | buf1 => buf2
  | buf2 => buf1

-- The part of `_dma_buf` that belongs to a buffer while a file is open.
def BufRef.area : BufRef → Nat
  | buf1 => DMA_BUF_SIZE * 0
  | buf2 => DMA_BUF_SIZE * 1

@[simp] theorem BufRef.other_other (ref : BufRef) : ref.other.other = ref := by
  cases ref <;> rfl

theorem BufRef.other_ne (ref : BufRef) : ref.other ≠ ref := by
  cases ref <;> decide

theorem BufRef.areas_disjoint (ref : BufRef) :
    ref.other.area + DMA_BUF_SIZE ≤ ref.area ∨ ref.area + DMA_BUF_SIZE ≤ ref.other.area := by
  cases ref <;> decide

-- The two buffers and the shadow position as a reader of the file.
def World.block (w : World) (ref : BufRef) : Block UInt8 :=
  ⟨(w.hds0.buf ref).filePosition, w.dmaBuf.slice ref.area (w.hds0.buf ref).readSize⟩

def World.prefetch (w : World) (current : BufRef) : Prefetch UInt8 :=
  ⟨w.block current, w.block current.other, w.hds0.currentFilePosition⟩

-- A file is open under media handle 1, and the shadow position is the one DOS has.
structure Attached (w : World) (file : DosFile) (handle : DosHandle) (current : BufRef) : Prop where
  slot : w.slot208 1 = .hds0
  rmHandle : w.hds0.rmHandle = 1
  dosFileHandle : w.hds0.dosFileHandle = handle.val
  dosFile : w.dos.table handle.val = some ⟨file.val, w.hds0.currentFilePosition⟩
  position_lt : w.hds0.currentFilePosition < 0x100000000
  currentBuf : w.hds0.currentBuf = some current
  nextBuf : w.hds0.nextBuf = some current.other
  ptr : ∀ ref, (w.hds0.buf ref).ptr = some ref.area
  readSize_le : ∀ ref, (w.hds0.buf ref).readSize ≤ DMA_BUF_SIZE

-- What a read of the file at a position may put into a buffer.
def Delivers (file : DosFile) (reply : Reply) (position : Nat) (items : List UInt8) : Prop :=
  items <+: file.val.drop position ∧ items.length ≤ DMA_BUF_SIZE ∧
    ∀ limit, reply.read = some limit → DMA_BUF_SIZE ≤ limit →
      items = (file.val.drop position).take DMA_BUF_SIZE

theorem World.block_items_length (w : World) (ref : BufRef) :
    (w.block ref).items.length = (w.hds0.buf ref).readSize :=
  Buffer.slice_length _ _ _

theorem World.readSize_eq_zero_iff (w : World) (ref : BufRef) :
    (w.hds0.buf ref).readSize = 0 ↔ (w.block ref).items = [] := by
  rw [← w.block_items_length, List.length_eq_zero_iff]

section Attached

variable {w : World} {file : DosFile} {handle : DosHandle} {current : BufRef}

theorem Attached.dosFileHandle_nonneg (att : Attached w file handle current) :
    ¬w.hds0.dosFileHandle < 0 := by
  rw [att.dosFileHandle]
  omega

theorem Attached.toNat_dosFileHandle (att : Attached w file handle current) :
    w.hds0.dosFileHandle.toNat = handle.val := by
  rw [att.dosFileHandle, Int.toNat_natCast]

theorem Attached.checkHd_iff (att : Attached w file handle current) (target : UInt16) :
    w.checkHd target ↔ target = 1 := by
  have hne : w.hds0.dosFileHandle ≠ -1 := by
    have h := att.dosFileHandle_nonneg
    omega
  rw [World.checkHd, att.rmHandle]
  refine ⟨fun h => h.2.1.symm, ?_⟩
  intro h
  subst h
  exact ⟨att.slot, rfl, hne⟩

-- The shadow position does not wrap: what a read delivers ends inside the file.
theorem Delivers.position_lt {reply : Reply} {position : Nat} {items : List UInt8}
    (h : Delivers file reply position items) (hp : position < 0x100000000) :
    position + items.length < 0x100000000 := by
  have hfile := file.property
  have hlen := h.1.length_le
  rw [List.length_drop] at hlen
  omega

-- The world after a read into a buffer, given what was read and what it did to DOS.
def World.readInto (w : World) (ref : BufRef) (items : List UInt8) (dos : Files UInt8) : World :=
  { w with
    hds0 := w.hds0.readComplete ref items.length
    dmaBuf := w.dmaBuf.memcpy ref.area items
    dos := dos }

theorem World.readInto_buf (w : World) (ref : BufRef) (items : List UInt8) (dos : Files UInt8)
    (other : BufRef) :
    (w.readInto ref items dos).hds0.buf other =
      if other = ref then ⟨items.length, w.hds0.currentFilePosition, (w.hds0.buf ref).ptr⟩
      else w.hds0.buf other :=
  Function.update_apply _ _ _ _

theorem World.readInto_block (w : World) (ref : BufRef) (items : List UInt8) (dos : Files UInt8) :
    (w.readInto ref items dos).block ref = ⟨w.hds0.currentFilePosition, items⟩ := by
  rw [World.block, World.readInto_buf, if_pos rfl]
  exact congrArg (Block.mk w.hds0.currentFilePosition) (Buffer.slice_memcpy _ _ _)

theorem World.readInto_block_other (w : World) (ref : BufRef) (items : List UInt8)
    (dos : Files UInt8) (hlen : items.length ≤ DMA_BUF_SIZE)
    (hsize : (w.hds0.buf ref.other).readSize ≤ DMA_BUF_SIZE) :
    (w.readInto ref items dos).block ref.other = w.block ref.other := by
  have hdisjoint := ref.areas_disjoint
  rw [World.block, World.readInto_buf, if_neg ref.other_ne]
  exact congrArg (Block.mk (w.hds0.buf ref.other).filePosition)
    (Buffer.slice_memcpy_outside _ _ _ _ _ (by omega))

theorem Attached.readInto (att : Attached w file handle current) {reply : Reply}
    {items : List UInt8} {dos : Files UInt8} (ref : BufRef)
    (hitems : Delivers file reply w.hds0.currentFilePosition items)
    (hdos : dos.table handle.val =
      some ⟨file.val, w.hds0.currentFilePosition + items.length⟩) :
    Attached (w.readInto ref items dos) file handle current ∧
      (w.readInto ref items dos).hds0.currentFilePosition =
        w.hds0.currentFilePosition + items.length := by
  have hposition : (w.readInto ref items dos).hds0.currentFilePosition =
      w.hds0.currentFilePosition + items.length :=
    Nat.mod_eq_of_lt (hitems.position_lt att.position_lt)
  refine ⟨⟨att.slot, att.rmHandle, att.dosFileHandle, ?_, ?_, att.currentBuf, att.nextBuf, ?_, ?_⟩,
    hposition⟩
  · rw [hposition]
    exact hdos
  · rw [hposition]
    exact hitems.position_lt att.position_lt
  · intro other
    rw [World.readInto_buf]
    split
    · rename_i h
      rw [h]
      exact att.ptr ref
    · exact att.ptr other
  · intro other
    rw [World.readInto_buf]
    split
    · exact hitems.2.1
    · exact att.readSize_le other

theorem readIntoBuf_spec (att : Attached w file handle current) (reply : Reply) (ref : BufRef) :
    ∃ items next, readIntoBuf reply ref w = some (next, [.dosRead handle.val DMA_BUF_SIZE]) ∧
      Delivers file reply w.hds0.currentFilePosition items ∧ Attached next file handle current ∧
      next.hds0.currentFilePosition = w.hds0.currentFilePosition + items.length ∧
      next.block ref = ⟨w.hds0.currentFilePosition, items⟩ ∧
      next.block ref.other = w.block ref.other := by
  obtain ⟨items, hread, hlen, htake, hdos⟩ := Files.read_spec w.dos handle.val DMA_BUF_SIZE
    reply.read file.val w.hds0.currentFilePosition att.dosFile
  have hitems : Delivers file reply w.hds0.currentFilePosition items := by
    refine ⟨htake ▸ List.take_prefix _ _, hlen, ?_⟩
    intro limit hlimit hle
    rw [← hread, hlimit]
    exact Files.read_full _ _ _ _ _ _ att.dosFile hle
  obtain ⟨hatt, hposition⟩ := att.readInto ref hitems ((hdos handle.val).trans (if_pos rfl))
  refine ⟨items, _, ?_, hitems, hatt, hposition, w.readInto_block ref items _,
    w.readInto_block_other ref items _ hlen (att.readSize_le ref.other)⟩
  simp only [readIntoBuf, if_neg att.dosFileHandle_nonneg, att.ptr, att.toNat_dosFileHandle, hread,
    Option.bind_eq_bind, Option.bind_some, Option.pure_def]
  rfl

theorem Attached.dispose (att : Attached w file handle current) (ref : BufRef) :
    Attached (w.dispose ref) file handle current := by
  have hbuf : ∀ other, (w.dispose ref).hds0.buf other =
      if other = ref then { w.hds0.buf ref with readSize := 0 } else w.hds0.buf other :=
    fun other => Function.update_apply _ _ _ _
  refine { att with ptr := ?_, readSize_le := ?_ }
  · intro other
    rw [hbuf]
    split
    · rename_i h
      rw [h]
      exact att.ptr ref
    · exact att.ptr other
  · intro other
    rw [hbuf]
    split
    · exact Nat.zero_le _
    · exact att.readSize_le other

theorem World.dispose_block (w : World) (ref : BufRef) :
    (w.dispose ref).block ref = ⟨(w.block ref).position, []⟩ := by
  simp [World.dispose, World.block, MyHandleData.setBuf, Buffer.slice]

theorem World.dispose_block_of_ne (w : World) {ref other : BufRef} (h : other ≠ ref) :
    (w.dispose ref).block other = w.block other := by
  simp [World.dispose, World.block, MyHandleData.setBuf, h]

theorem setDosFileHandlePosition_spec (att : Attached w file handle current) (position : Nat)
    (hp : position < 0x100000000) :
    ∃ next, setDosFileHandlePosition position w = (next, [.dosSeek handle.val position]) ∧
      Attached next file handle current ∧ next.hds0.currentFilePosition = position ∧
      ∀ ref, next.block ref = w.block ref := by
  refine ⟨{ w with
    dos := w.dos.seek handle.val position
    hds0 := { w.hds0 with currentFilePosition := position } }, ?_, ?_, rfl, fun _ => rfl⟩
  · rw [setDosFileHandlePosition, if_neg att.dosFileHandle_nonneg, att.toNat_dosFileHandle]
  · refine { att with dosFile := ?_, position_lt := hp }
    rw [Files.seek_table _ _ _ _ _ _ att.dosFile, if_pos rfl]

theorem fillBuffers_spec (att : Attached w file handle current) (reply : Reply) :
    ∃ next calls, fillBuffers reply w = some (next, calls) ∧ Attached next file handle current ∧
      (∀ call ∈ calls, call = .dosRead handle.val DMA_BUF_SIZE) ∧
      Prefetch.Fills (Delivers file reply) (w.prefetch current) (next.prefetch current) := by
  rw [fillBuffers]
  simp only [att.currentBuf, att.nextBuf, Option.bind_eq_bind, Option.bind_some, Nat.lt_one_iff,
    World.readSize_eq_zero_iff]
  by_cases hcurrent : (w.block current).items = []
  · obtain ⟨items, next, hread, hitems, hatt, hposition, hblock, hother⟩ :=
      readIntoBuf_spec att reply current
    have hnext : next.prefetch current = (w.prefetch current).readCurrent items := by
      rw [World.prefetch, hblock, hother, hposition]
      rfl
    refine ⟨next, _, by rw [if_pos hcurrent, hread], hatt, fun call => List.mem_singleton.mp, ?_⟩
    rw [hnext]
    exact .current hcurrent hitems
  · by_cases hempty : (w.block current.other).items = []
    · obtain ⟨items, next, hread, hitems, hatt, hposition, hblock, hother⟩ :=
        readIntoBuf_spec att reply current.other
      have hnext : next.prefetch current = (w.prefetch current).readNext items := by
        rw [BufRef.other_other] at hother
        rw [World.prefetch, hblock, hother, hposition]
        rfl
      refine ⟨next, _, by rw [if_neg hcurrent, if_pos hempty, hread], hatt,
        fun call => List.mem_singleton.mp, ?_⟩
      rw [hnext]
      exact .next hcurrent hempty hitems
    · refine ⟨w, [], by rw [if_neg hcurrent, if_neg hempty]; rfl, att, ?_, .full hcurrent hempty⟩
      intro call hcall
      exact absurd hcall List.not_mem_nil

-- The buffers after a rotation, with the block that was current disposed of.
def World.rotated (w : World) (current : BufRef) : World :=
  { w.dispose current with
    hds0 := { (w.dispose current).hds0 with
      currentBuf := some current.other
      nextBuf := some current } }

theorem Attached.rotated (att : Attached w file handle current) :
    Attached (w.rotated current) file handle current.other :=
  { att.dispose current with currentBuf := rfl, nextBuf := by rw [BufRef.other_other]; rfl }

theorem World.rotated_prefetch (w : World) (current : BufRef) :
    (w.rotated current).prefetch current.other = (w.prefetch current).rotate := by
  show Prefetch.mk ((w.dispose current).block current.other)
    ((w.dispose current).block current.other.other) _ = _
  rw [BufRef.other_other, w.dispose_block_of_ne current.other_ne, World.dispose_block]
  rfl

-- The two tests of the report, in terms of the reader.
theorem selectBuffer_eq (att : Attached w file handle current) (reply : Reply) (position : Nat) :
    selectBuffer position reply w =
      if (w.prefetch current).current.position = position then some (w, [])
      else if (w.prefetch current).next.position = position ∧
          (w.prefetch current).next.items ≠ [] then some (w.rotated current, [])
      else do
        let (w, seekCalls) :=
          setDosFileHandlePosition position ((w.dispose current).dispose current.other)
        let (w, readCalls) ← readIntoBuf reply current w
        return (w, seekCalls ++ readCalls) := by
  have hother := w.dispose_block_of_ne current.other_ne
  have hposition : ((w.dispose current).hds0.buf current.other).filePosition =
      (w.prefetch current).next.position := congrArg Block.position hother
  have hsize : ((w.dispose current).hds0.buf current.other).readSize ≠ 0 ↔
      (w.prefetch current).next.items ≠ [] := by
    rw [Ne, World.readSize_eq_zero_iff, hother]
    rfl
  rw [selectBuffer]
  simp only [att.currentBuf, (att.dispose current).nextBuf, Option.bind_eq_bind, Option.bind_some,
    hposition, hsize]
  by_cases hsame : (w.prefetch current).current.position = position
  · rw [if_pos hsame, if_neg (fun h => h hsame.symm)]
    rfl
  · rw [if_neg hsame, if_pos (fun h => hsame h.symm)]
    by_cases hnext : position = (w.prefetch current).next.position ∧
        (w.prefetch current).next.items ≠ []
    · rw [if_pos hnext, if_pos ⟨hnext.1.symm, hnext.2⟩]
      rfl
    · rw [if_neg hnext, if_neg (fun h => hnext ⟨h.1.symm, h.2⟩)]

theorem selectBuffer_reset (att : Attached w file handle current) (reply : Reply) (position : Nat)
    (hp : position < 0x100000000)
    (hne : (w.prefetch current).current.position ≠ position)
    (hno : ¬((w.prefetch current).next.position = position ∧ (w.prefetch current).next.items ≠ [])) :
    ∃ items next, selectBuffer position reply w =
        some (next, [.dosSeek handle.val position, .dosRead handle.val DMA_BUF_SIZE]) ∧
      Attached next file handle current ∧ Delivers file reply position items ∧
      next.prefetch current = ((w.prefetch current).seek position).readCurrent items := by
  obtain ⟨sought, hseek, hsought, hsoughtPosition, hsoughtBlock⟩ :=
    setDosFileHandlePosition_spec ((att.dispose current).dispose current.other) position hp
  obtain ⟨items, next, hread, hitems, hatt, hcursor, hblock, hother⟩ :=
    readIntoBuf_spec hsought reply current
  rw [hsoughtPosition] at hitems hcursor hblock
  refine ⟨items, next, ?_, hatt, hitems, ?_⟩
  · rw [selectBuffer_eq att, if_neg hne, if_neg hno, hseek]
    simp only [hread, Option.bind_eq_bind, Option.bind_some, Option.pure_def, List.singleton_append]
  · rw [World.prefetch, hblock, hother, hcursor, hsoughtBlock, World.dispose_block,
      w.dispose_block_of_ne current.other_ne]
    rfl

theorem selectBuffer_spec (att : Attached w file handle current) (reply : Reply) (position : Nat)
    (hp : position < 0x100000000) :
    ∃ next calls current', selectBuffer position reply w = some (next, calls) ∧
      Attached next file handle current' ∧
      (∀ call ∈ calls,
        call = .dosSeek handle.val position ∨ call = .dosRead handle.val DMA_BUF_SIZE) ∧
      Prefetch.Selects (Delivers file reply) position (w.prefetch current)
        (next.prefetch current') := by
  by_cases hsame : (w.prefetch current).current.position = position
  · refine ⟨w, [], current, ?_, att, fun call h => absurd h List.not_mem_nil, .same hsame⟩
    rw [selectBuffer_eq att, if_pos hsame]
  · by_cases hnext : (w.prefetch current).next.position = position ∧
        (w.prefetch current).next.items ≠ []
    · refine ⟨w.rotated current, [], current.other, ?_, att.rotated,
        fun call h => absurd h List.not_mem_nil, ?_⟩
      · rw [selectBuffer_eq att, if_neg hsame, if_pos hnext]
      · rw [World.rotated_prefetch]
        exact .rotated hsame hnext.1 hnext.2
    · obtain ⟨items, next, hselect, hatt, hitems, hreader⟩ :=
        selectBuffer_reset att reply position hp hsame hnext
      refine ⟨next, _, current, hselect, hatt, ?_, ?_⟩
      · intro call hcall
        rcases List.mem_cons.mp hcall with h | h
        · exact Or.inl h
        · exact Or.inr (List.mem_singleton.mp h)
      · rw [hreader]
        exact .reset hsame hnext hitems

end Attached

end ReelMagic.Streamer
