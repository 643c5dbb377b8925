import ReelMagic.Library.Runs
import ReelMagic.Rmprobe.Runs
import ReelMagic.Rmprobe.Spelling

namespace ReelMagic.Rmprobe

open Library Library.CString Library.Scanf

-- `_strbuf` is a string: there is a NUL in its 512 bytes.
def Vars.Terminated (vars : Vars) : Prop := ∃ i, vars.strbuf i = 0

-- A STRBUFSETX that stores something else where the only NUL is.
def OverwritesLastNul (vars : Vars) : Option Command → Prop
  | some (.strbufsetx index value) =>
      value.toUInt8 ≠ 0 ∧ ∀ i, vars.strbuf i = 0 → i.val = index.toNat
  | _ => False

theorem terminated_start : Vars.start.Terminated := ⟨0, rfl⟩

-- Copying a text brings its NUL along, wherever the NULs were before.
theorem terminated_strcpy {text : List UInt8} (h : text.length < 512) (vars : Vars) :
    ({ vars with strbuf := fun i => ((text ++ [0])[i.val]?).getD (vars.strbuf i) } : Vars).Terminated := by
  refine ⟨⟨text.length, h⟩, ?_⟩
  simp

theorem terminated_store_iff (vars : Vars) (index : Fin 512) (c : UInt8) :
    ({ vars with strbuf := Function.update vars.strbuf index c } : Vars).Terminated ↔
      ¬(c ≠ 0 ∧ ∀ i, vars.strbuf i = 0 → i.val = index.val) := by
  constructor
  · rintro ⟨i, hi⟩ ⟨hc, honly⟩
    by_cases heq : i = index
    · rw [heq] at hi
      exact hc ((Function.update_self index c vars.strbuf).symm.trans hi)
    · have hkept : vars.strbuf i = 0 := (Function.update_of_ne heq c vars.strbuf).symm.trans hi
      exact heq (Fin.ext (honly i hkept))
  · intro h
    by_cases hc : c = 0
    · exact ⟨index, (Function.update_self index c vars.strbuf).trans hc⟩
    · obtain ⟨i, hi, hne⟩ : ∃ i, vars.strbuf i = 0 ∧ i.val ≠ index.val := by
        by_contra hnone
        push Not at hnone
        exact h ⟨hc, hnone⟩
      refine ⟨i, ?_⟩
      rw [← hi]
      exact Function.update_of_ne (fun heq => hne (congrArg Fin.val heq)) c vars.strbuf

section

variable {layout : Layout} {w w' : World} {events : List LineEvent} {event : LineEvent}

-- One line: only a STRBUFSETX can take the last NUL away.
theorem Does.terminated_iff {linebuf : List UInt8} {int : UInt8} {vars vars' : Vars}
    {command : Option Command} {issued : List Interrupt} {rv : Int}
    (h : Does layout linebuf int vars command issued rv vars') (hterminated : vars.Terminated) :
    vars'.Terminated ↔ ¬OverwritesLastNul vars command := by
  cases h with
  | strbufsetx hindex => exact terminated_store_iff vars ⟨_, hindex⟩ _
  | strbufsets htext => exact ⟨fun _ => not_false, fun _ => terminated_strcpy htext vars⟩
  | _ => exact ⟨fun _ => not_false, fun _ => hterminated⟩

theorem terminated_of_always {P : List LineEvent → World → LineEvent → World → Prop}
    (run : Run w.started (LineStep layout) events w') (halways : Run.Always w.started (LineStep layout) events P)
    (hP : ∀ before w₁ event w₂, P before w₁ event w₂ → w₁.vars.Terminated → LineStep layout w₁ event w₂ →
      w₂.vars.Terminated) : w'.vars.Terminated := by
  refine Run.invariant_of_always (fun _ w₁ => w₁.vars.Terminated) run halways terminated_start ?_
  intro before w₁ event w₂ hterminated hstep hkept
  exact hP before w₁ event w₂ hkept hterminated hstep

end

-- `_strbuf` holds a string after every line of exactly the runs in which no STRBUFSETX stores
-- a character over the only NUL. Each of these stores passes every check there is.
theorem strbuf_terminated_iff (layout : Layout) (w : World) (events : List LineEvent) :
    (Run.Always w.started (LineStep layout) events fun _ _ _ w' => w'.vars.Terminated) ↔
    Run.Always w.started (LineStep layout) events fun _ w₁ event _ =>
      ¬OverwritesLastNul w₁.vars (parse event.linebuf) := by
  constructor
  · intro h before event after w₁ w₂ heq run hstep
    have hafter := h before event after w₁ w₂ heq run hstep
    rw [heq] at h
    have hterminated := terminated_of_always run h.of_append fun _ _ _ _ hkept _ _ => hkept
    exact (hstep.does.terminated_iff hterminated).mp hafter
  · intro h before event after w₁ w₂ heq run hstep
    have hcareful := h before event after w₁ w₂ heq run hstep
    rw [heq] at h
    have hterminated := terminated_of_always run h.of_append fun _ _ _ _ hkept hbefore hstep =>
      (hstep.does.terminated_iff hbefore).mpr hkept
    exact (hstep.does.terminated_iff hterminated).mpr hcareful

def hexDigit (n : Nat) : UInt8 := if n < 10 then UInt8.ofNat (48 + n) else UInt8.ofNat (55 + n)

def hexDigits (n : Nat) : List UInt8 :=
  [hexDigit (n / 256), hexDigit (n / 16 % 16), hexDigit (n % 16)]

-- The line that stores an `A` at an index below 512.
def storeLine (index : Nat) : List UInt8 :=
  ascii "STRBUFSETX " ++ (hexDigits index ++ spellNumbers [ascii "41"] ++ [NEWLINE])

theorem digitValue_hexDigit {n : Nat} (h : n < 16) : digitValue (hexDigit n) = n := by
  revert n
  decide

theorem isHex_hexDigits {n : Nat} (h : n < 512) : IsHex (hexDigits n) (UInt16.ofNat n) := by
  have hhigh : digitValue (hexDigit (n / 256)) = n / 256 := digitValue_hexDigit (by omega)
  have hmid : digitValue (hexDigit (n / 16 % 16)) = n / 16 % 16 := digitValue_hexDigit (by omega)
  have hlow : digitValue (hexDigit (n % 16)) = n % 16 := digitValue_hexDigit (by omega)
  refine ⟨⟨List.cons_ne_nil _ _, ?_⟩, ?_⟩
  · simp only [hexDigits, isDigit, List.forall_mem_cons, decide_eq_true_eq, hhigh, hmid, hlow]
    refine ⟨by omega, by omega, by omega, ?_⟩
    exact fun _ hmem => absurd hmem List.not_mem_nil
  · rw [UInt16.toNat_ofNat', hexDigits, numeralValue]
    simp only [List.foldl_cons, List.foldl_nil, hhigh, hmid, hlow]
    omega

theorem parse_strbufsetx (text : List UInt8) :
    parse (ascii "STRBUFSETX " ++ text) = parseStrbufsetx text := by
  rfl

theorem parse_storeLine {index : Nat} (h : index < 512) :
    parse (storeLine index) = some (.strbufsetx (UInt16.ofNat index) 0x41) := by
  have hvalue : IsHex (ascii "41") 0x41 := ⟨isNumeral_of_all (by decide) (by decide), rfl⟩
  have hline : IsLineEnd [NEWLINE] := List.forall_mem_singleton.mpr rfl
  have hscan : scan "%X %X" (hexDigits index ++ spellNumbers [ascii "41"] ++ [NEWLINE]) =
      [UInt16.ofNat index, 0x41] ++ (sscanf [] [NEWLINE]).map UInt16.ofInt :=
    scan_spelled rfl rfl (.cons (isHex_hexDigits h) (.cons hvalue .nil)) (endsNumeral_of_isLineEnd hline)
  rw [storeLine, parse_strbufsetx, parseStrbufsetx, hscan]
  rfl

theorem lineStep_store {index : Nat} (h : index < 512) (layout : Layout) (w : World) :
    LineStep layout w ⟨storeLine index, [], 1⟩
      { w with vars := { w.vars with strbuf := Function.update w.vars.strbuf ⟨index, h⟩ 0x41 } } := by
  have hindex : (UInt16.ofNat index).toNat = index := by
    rw [UInt16.toNat_ofNat']
    omega
  refine ⟨?_, rfl, (List.append_nil _).symm, rfl, rfl⟩
  rw [processScriptLine_eq, parse_storeLine h, execParsed, Command.exec, storeStrbuf]
  simp only [hindex, dif_pos h]
  rfl

-- The lines fill the array from its start on.
theorem exists_filled (layout : Layout) (w : World) (count : Nat) (h : count ≤ 512) :
    ∃ events w', Run w.started (LineStep layout) events w' ∧
      ∀ i : Fin 512, i.val < count → w'.vars.strbuf i = 0x41 := by
  induction count with
  | zero => exact ⟨[], w.started, .nil, nofun⟩
  | succ count ih =>
      obtain ⟨events, w', run, hfilled⟩ := ih (by omega)
      have hcount : count < 512 := h
      refine ⟨_, _, run.snoc (lineStep_store hcount layout w'), ?_⟩
      intro i hi
      by_cases heq : i = ⟨count, hcount⟩
      · rw [heq]
        exact Function.update_self _ _ _
      · have hlt : i.val < count := by
          have hne : i.val ≠ count := fun hval => heq (Fin.ext hval)
          omega
        exact (Function.update_of_ne heq _ _).trans (hfilled i hlt)

theorem strbuf_filled :
    ¬∀ (layout : Layout) (w : World) (events : List LineEvent),
      Run.Always w.started (LineStep layout) events fun _ _ _ w' => w'.vars.Terminated := by
  intro h
  obtain ⟨events, w', run, hfilled⟩ := exists_filled sampleLayout (.start []) 512 (Nat.le_refl _)
  have hterminated := terminated_of_always run (h _ _ _) fun _ _ _ _ hkept _ _ => hkept
  obtain ⟨i, hi⟩ := hterminated
  rw [hfilled i i.isLt] at hi
  exact absurd hi (by decide)

end ReelMagic.Rmprobe
