import ReelMagic.Parse450.Acceptance

namespace ReelMagic.Parse450

open Library

-- The files by name: `none` where there is no file.
abbrev Directory := String → Option (List UInt8)

-- How the host answers for one of the outputs: `fopen` fails, or it creates the file and
-- `fwrite` stores as many of the bytes as it can.
inductive Dump where
  | openFailed
  | stored (count : Nat)
deriving DecidableEq

-- The way out of the whole of `main` through `failed`.
inductive MainFailure where
  | usage
  | openInput
  | load (failure : Failure)
  | openDram
  | openImem
deriving DecidableEq

def LoadState.dramImage (s : LoadState) : List UInt8 :=
  s.dram.slice 0 DRAM_BYTE_SIZE

def LoadState.imemImage (s : LoadState) : List UInt8 :=
  s.imem.slice 0 IMEM_BYTE_SIZE

-- Opening for writing empties the file. What `fwrite` returns is not looked at.
def dumpBuffer (name : String) (image : List UInt8) (files : Directory) : Dump → Option Directory
  | .openFailed => none
  | .stored count => some (Function.update files name (some (image.take count)))

def dumpFlatBuffers (s : LoadState) (dramDump imemDump : Dump) (files : Directory) :
    Directory × Option MainFailure :=
  match dumpBuffer "dram.bin" s.dramImage files dramDump with
  | none => (files, some .openDram)
  | some files =>
      match dumpBuffer "imem.bin" s.imemImage files imemDump with
      | none => (files, some .openImem)
      | some files => (files, none)

-- `input` is what stands in the file `argv[1]`, if it can be opened.
def main (argc : Nat) (input : Option (List UInt8)) (dramDump imemDump : Dump)
    (files : Directory) : Directory × Option MainFailure :=
  if argc ≠ 2 then (files, some .usage)
  else match input with
  | none => (files, some .openInput)
  | some input =>
      match load input with
      | (_, some failure) => (files, some (.load failure))
      | (s, none) => dumpFlatBuffers s dramDump imemDump files

def exitStatus : Option MainFailure → Int
  | none => 0
  | some _ => 1

def Accepts (argc : Nat) (input : Option (List UInt8)) (s : LoadState) : Prop :=
  argc = 2 ∧ ∃ bytes, input = some bytes ∧ load bytes = (s, none)

-- Either both files are new and whole, or neither has been touched.
def OutputAtomic (argc : Nat) (input : Option (List UInt8)) (dramDump imemDump : Dump)
    (files : Directory) : Prop :=
  ∀ files' failure, main argc input dramDump imemDump files = (files', failure) →
    (exitStatus failure ≠ 0 →
      files' "dram.bin" = files "dram.bin" ∧ files' "imem.bin" = files "imem.bin") ∧
    (exitStatus failure = 0 → ∃ s, Accepts argc input s ∧
      files' "dram.bin" = some s.dramImage ∧ files' "imem.bin" = some s.imemImage)

-- Both files have been written, whole where all that was written has been stored, and no
-- other file has been touched.
def BothNew (s : LoadState) (dramDump imemDump : Dump) (files files' : Directory) : Prop :=
  ∃ count count', dramDump = .stored count ∧ imemDump = .stored count' ∧
    (DRAM_BYTE_SIZE ≤ count → files' "dram.bin" = some s.dramImage) ∧
    (IMEM_BYTE_SIZE ≤ count' → files' "imem.bin" = some s.imemImage) ∧
    ∀ name, name ≠ "dram.bin" → name ≠ "imem.bin" → files' name = files name

-- `dram.bin` has been written, and then `imem.bin` could not be opened.
def OnlyDramNew (s : LoadState) (dramDump imemDump : Dump) (files files' : Directory) : Prop :=
  ∃ count, dramDump = .stored count ∧ imemDump = .openFailed ∧
    (DRAM_BYTE_SIZE ≤ count → files' "dram.bin" = some s.dramImage) ∧
    ∀ name, name ≠ "dram.bin" → files' name = files name

@[simp] theorem LoadState.dramImage_length (s : LoadState) :
    s.dramImage.length = DRAM_BYTE_SIZE := Buffer.slice_length _ _ _

@[simp] theorem LoadState.imemImage_length (s : LoadState) :
    s.imemImage.length = IMEM_BYTE_SIZE := Buffer.slice_length _ _ _

section

variable {argc : Nat} {input : Option (List UInt8)} {s : LoadState}

theorem main_of_accepts (dramDump imemDump : Dump) (files : Directory) (h : Accepts argc input s) :
    main argc input dramDump imemDump files = dumpFlatBuffers s dramDump imemDump files := by
  obtain ⟨rfl, bytes, rfl, hload⟩ := h
  simp only [main, ne_eq, not_true_eq_false, if_false, hload]

-- Nothing is dumped before the whole input has been accepted.
theorem main_of_not_accepts (dramDump imemDump : Dump) (files : Directory)
    (h : ∀ s, ¬Accepts argc input s) :
    ∃ failure, main argc input dramDump imemDump files = (files, some failure) := by
  unfold main
  split
  · exact ⟨_, rfl⟩
  rename_i hargc
  split
  · exact ⟨_, rfl⟩
  rename_i bytes
  split
  · exact ⟨_, rfl⟩
  · rename_i s hload
    exact absurd ⟨not_not.mp hargc, bytes, rfl, hload⟩ (h s)

end

theorem dumpFlatBuffers_cases (s : LoadState) (dramDump imemDump : Dump) (files : Directory) :
    (exitStatus (dumpFlatBuffers s dramDump imemDump files).2 = 0 ∧
      BothNew s dramDump imemDump files (dumpFlatBuffers s dramDump imemDump files).1) ∨
    (exitStatus (dumpFlatBuffers s dramDump imemDump files).2 = 1 ∧
      OnlyDramNew s dramDump imemDump files (dumpFlatBuffers s dramDump imemDump files).1) ∨
    (dramDump = .openFailed ∧ exitStatus (dumpFlatBuffers s dramDump imemDump files).2 = 1 ∧
      (dumpFlatBuffers s dramDump imemDump files).1 = files) := by
  cases dramDump with
  | openFailed => exact Or.inr (Or.inr ⟨rfl, rfl, rfl⟩)
  | stored count =>
      cases imemDump with
      | openFailed =>
          refine Or.inr (Or.inl ⟨rfl, count, rfl, rfl, ?_, ?_⟩)
          · intro hcount
            simp only [dumpFlatBuffers, dumpBuffer, Function.update_self]
            rw [List.take_of_length_le (by rwa [LoadState.dramImage_length])]
          · intro name hname
            exact Function.update_of_ne hname _ _
      | stored count' =>
          refine Or.inl ⟨rfl, count, count', rfl, rfl, ?_, ?_, ?_⟩
          · intro hcount
            have hne : "dram.bin" ≠ "imem.bin" := by decide
            simp only [dumpFlatBuffers, dumpBuffer, Function.update_of_ne hne, Function.update_self]
            rw [List.take_of_length_le (by rwa [LoadState.dramImage_length])]
          · intro hcount
            simp only [dumpFlatBuffers, dumpBuffer, Function.update_self]
            rw [List.take_of_length_le (by rwa [LoadState.imemImage_length])]
          · intro name hdram himem
            simp only [dumpFlatBuffers, dumpBuffer]
            rw [Function.update_of_ne himem, Function.update_of_ne hdram]

-- The two files by the status. With status 0 both are new, and whole when all that was
-- written is stored. With status 1 every file is as it was, but for `dram.bin` when it is
-- `imem.bin` that cannot be opened: `dram.bin` is new by then, and is not taken back.
theorem output_by_status (argc : Nat) (input : Option (List UInt8)) (dramDump imemDump : Dump)
    (files : Directory) :
    (∃ s, Accepts argc input s ∧ exitStatus (main argc input dramDump imemDump files).2 = 0 ∧
      BothNew s dramDump imemDump files (main argc input dramDump imemDump files).1) ∨
    (∃ s, Accepts argc input s ∧ exitStatus (main argc input dramDump imemDump files).2 = 1 ∧
      OnlyDramNew s dramDump imemDump files (main argc input dramDump imemDump files).1) ∨
    (((∀ s, ¬Accepts argc input s) ∨ dramDump = .openFailed) ∧
      exitStatus (main argc input dramDump imemDump files).2 = 1 ∧
      (main argc input dramDump imemDump files).1 = files) := by
  by_cases h : ∃ s, Accepts argc input s
  · obtain ⟨s, haccepts⟩ := h
    rw [main_of_accepts dramDump imemDump files haccepts]
    rcases dumpFlatBuffers_cases s dramDump imemDump files with hboth | honly | ⟨hdram, hnone⟩
    · exact Or.inl ⟨s, haccepts, hboth⟩
    · exact Or.inr (Or.inl ⟨s, haccepts, honly⟩)
    · exact Or.inr (Or.inr ⟨Or.inr hdram, hnone⟩)
  · obtain ⟨failure, hmain⟩ := main_of_not_accepts dramDump imemDump files (not_exists.mp h)
    rw [hmain]
    exact Or.inr (Or.inr ⟨Or.inl (not_exists.mp h), rfl, rfl⟩)

-- A file with no segments.
def noSegmentsFile : List UInt8 :=
  [0xC3, 0xC3] ++ List.replicate 98 0

theorem output_not_atomic :
    ¬∀ argc input dramDump imemDump files, OutputAtomic argc input dramDump imemDump files := by
  intro h
  have hload : (load noSegmentsFile).2 = none := by decide +kernel
  have haccepts : Accepts 2 (some noSegmentsFile) (load noSegmentsFile).1 :=
    ⟨rfl, noSegmentsFile, rfl, Prod.ext rfl hload⟩
  have hmain := main_of_accepts (.stored DRAM_BYTE_SIZE) .openFailed (fun _ => none) haccepts
  have hkept := ((h 2 (some noSegmentsFile) (.stored DRAM_BYTE_SIZE) .openFailed (fun _ => none)
    _ _ hmain).1 (by decide)).1
  exact absurd hkept (by simp)

end ReelMagic.Parse450
