import ReelMagic.Rmprobe.Main
import ReelMagic.Rmsdk.Init

namespace ReelMagic.Rmprobe

open Library.CString
open ReelMagic.Rmsdk (Memory offset rmProbeFmpdrvInt)

-- The entries of the interrupt vector table are those of this memory.
def Setup.Shows (setup : Setup) (memory : Memory) : Prop :=
  ∀ int, match setup.ivtEntry int with
    | none => memory.ivtEntry int = ⟨0, 0⟩
    | some entry => memory.ivtEntry int ≠ ⟨0, 0⟩ ∧ 12 ≤ entry.length ∧
        ∀ k < entry.length, entry.getD k 0 = memory (offset (memory.ivtEntry int) (UInt16.ofNat k))

theorem take_drop_eq_iff {entry name : List UInt8} {skip : Nat} (h : skip + name.length ≤ entry.length) :
    (entry.drop skip).take name.length = name ↔
      ∀ k < name.length, entry.getD (skip + k) 0 = name.getD k 0 := by
  constructor
  · intro heq k hk
    rw [← heq, List.getD_eq_getElem?_getD, List.getD_eq_getElem?_getD, List.getElem?_take_of_lt hk,
      List.getElem?_drop]
  · intro hall
    apply List.ext_getElem
    · rw [List.length_take, List.length_drop]
      omega
    · intro k hk hk'
      have hat := hall k hk'
      rw [List.getD_eq_getElem _ _ (by omega), List.getD_eq_getElem _ _ hk'] at hat
      rw [List.getElem_take, List.getElem_drop]
      exact hat

-- `find_fmpdriver` and `rm_probe_fmpdrv_int` look for the same.
theorem findFmpdriver_eq {setup : Setup} {memory : Memory} (h : setup.Shows memory) :
    (findFmpdriver setup).getD 0 = rmProbeFmpdrvInt memory := by
  have hname : (ascii "FMPDriver").length = 9 := by decide
  have hsame : ∀ int, (match setup.ivtEntry int with
      | none => false
      | some entry => decide ((entry.drop 3).take 9 = ascii "FMPDriver")) = memory.isFmpdriver int := by
    intro int
    have hint := h int
    rw [Bool.eq_iff_iff, Rmsdk.isFmpdriver_iff]
    cases hentry : setup.ivtEntry int with
    | none =>
        rw [hentry] at hint
        exact ⟨fun hfalse => absurd hfalse Bool.false_ne_true, fun hcarries => absurd hint hcarries.1⟩
    | some entry =>
        rw [hentry] at hint
        obtain ⟨hvector, hlength, hbytes⟩ := hint
        rw [decide_eq_true_iff]
        rw [← hname, take_drop_eq_iff (by rw [hname]; omega), hname]
        have hthree : ∀ k, offset (offset (memory.ivtEntry int) 3) (UInt16.ofNat k) =
            offset (memory.ivtEntry int) (UInt16.ofNat (3 + k)) := by
          intro k
          rw [Rmsdk.offset_offset, UInt16.ofNat_add]
          rfl
        constructor
        · intro hall
          refine ⟨hvector, fun k hk => ?_⟩
          rw [hthree, ← hbytes (3 + k) (by omega)]
          exact hall k hk
        · intro hcarries k hk
          rw [hbytes (3 + k) (by omega), ← hthree]
          exact hcarries.2 k hk
  rw [findFmpdriver, rmProbeFmpdrvInt]
  congr 2
  funext int
  exact hsame int

end ReelMagic.Rmprobe
