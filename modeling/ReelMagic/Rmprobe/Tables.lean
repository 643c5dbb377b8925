import ReelMagic.Rmprobe.Runs

namespace ReelMagic.Rmprobe

open Library Library.CString Library.Lines

-- An access to `_hand`, or a store to `_strbuf`, outside of the table.
def Stop.OutsideTable : Stop → Prop
  | .handIndex _ => True
  | .strbufStore _ => True
  | _ => False

-- The command asks only for what the tables have.
def Command.InTables : Command → Prop
  | .callrmHand _ slot _ _ _ => slot.toNat < 5
  | .storhand slot => slot.toNat < 5
  | .waitplayHand slot _ => slot.toNat < 5
  | .strbufsetx index _ => index.toNat < 512
  | .strbufsets text => text.length < 512
  | _ => True

-- The same for the three commands whose index is not checked.
def Command.UncheckedInTables : Command → Prop
  | .callrmHand _ slot _ _ _ => slot.toNat < 5
  | .waitplayHand slot _ => slot.toNat < 5
  | .strbufsetx index _ => index.toNat < 512
  | _ => True

-- The line does not index outside of the tables, and is a bad command if it asks for that.
def KeepsToTables (layout : Layout) (linebuf : List UInt8) (w : World) : Prop :=
  (∀ stop, processScriptLine layout linebuf w = .error stop → ¬stop.OutsideTable) ∧
    ∀ command, parse linebuf = some command → ¬command.InTables →
      processScriptLine layout linebuf w = badCommand (skipBlanks linebuf) w

-- The text of STRBUFSETS is a part of the line.
def TextWithin (length : Nat) (command : Option Command) : Prop :=
  ∀ text, command = some (.strbufsets text) → text.length ≤ length

theorem textWithin_ite {c : Prop} [Decidable c] {length : Nat} {yes no : Option Command}
    (hyes : TextWithin length yes) (hno : TextWithin length no) :
    TextWithin length (if c then yes else no) := by
  split
  · exact hyes
  · exact hno

theorem cutAt_length_le (c : UInt8) (line : List UInt8) : (cutAt c line).length ≤ line.length := by
  unfold cutAt
  split
  · exact (List.take_sublist _ _).length_le
  · exact Nat.le_refl _

section

variable {length : Nat} (linebuf text : List UInt8)

theorem textWithin_parseCallrm : TextWithin length (parseCallrm linebuf text) := by
  intro found h
  unfold parseCallrm at h
  split at h
  · cases h
  · split at h
    · cases h
    · split at h
      · cases hptr : parsePointer linebuf text <;> rw [hptr] at h <;> cases h
      · cases h

theorem textWithin_parseCallrms : TextWithin length (parseCallrms text) := by
  intro found h
  unfold parseCallrms at h
  split at h <;> cases h

theorem textWithin_parseCallvbios : TextWithin length (parseCallvbios text) := by
  intro found h
  unfold parseCallvbios at h
  split at h <;> cases h

theorem textWithin_parseWaitplay : TextWithin length (parseWaitplay text) := by
  intro found h
  unfold parseWaitplay at h
  split at h
  · cases h
  · split at h <;> cases h

theorem textWithin_parseStrbufsetx : TextWithin length (parseStrbufsetx text) := by
  intro found h
  unfold parseStrbufsetx at h
  split at h <;> cases h

theorem textWithin_parseNumber {format : String} {command : UInt16 → Command}
    (hcommand : ∀ n found, command n ≠ .strbufsets found) :
    TextWithin length (parseNumber format command text) := by
  intro found h
  unfold parseNumber at h
  split at h
  · exact absurd (Option.some.inj h) (hcommand _ _)
  · cases h

theorem textWithin_some {command : Command} (hcommand : ∀ found, command ≠ .strbufsets found) :
    TextWithin length (some command) :=
  fun found h => absurd (Option.some.inj h) (hcommand found)

theorem textWithin_parse : TextWithin linebuf.length (parse linebuf) := by
  have hskip : (skipBlanks linebuf).length ≤ linebuf.length := (List.dropWhile_sublist _).length_le
  have hother : ∀ {command : Command}, (∀ found, command ≠ .strbufsets found) →
      TextWithin linebuf.length (some command) := fun h => textWithin_some h
  refine textWithin_ite (hother nofun) ?_
  refine textWithin_ite (hother nofun) ?_
  refine textWithin_ite (hother nofun) ?_
  refine textWithin_ite (textWithin_parseCallrm _ _) ?_
  refine textWithin_ite (textWithin_parseCallrms _) ?_
  refine textWithin_ite (textWithin_parseCallvbios _) ?_
  refine textWithin_ite (hother nofun) ?_
  refine textWithin_ite (hother nofun) ?_
  refine textWithin_ite (textWithin_parseNumber _ (fun _ => nofun)) ?_
  refine textWithin_ite (textWithin_parseNumber _ (fun _ => nofun)) ?_
  refine textWithin_ite (textWithin_parseWaitplay _) ?_
  refine textWithin_ite (hother nofun) ?_
  refine textWithin_ite (hother nofun) ?_
  refine textWithin_ite (textWithin_parseStrbufsetx _) ?_
  refine textWithin_ite ?_ ?_
  · intro found h
    obtain rfl := Command.strbufsets.inj (Option.some.inj h)
    have hcut := cutAt_length_le NEWLINE (cutAt RETURN (skipBlanks linebuf))
    have hcut' := cutAt_length_le RETURN (skipBlanks linebuf)
    rw [List.length_drop]
    omega
  · refine textWithin_ite (textWithin_parseNumber _ (fun _ => nofun)) ?_
    refine textWithin_ite (hother nofun) ?_
    exact textWithin_ite (hother nofun) nofun

end

section

variable {layout : Layout} {linebuf : List UInt8} {w : World} {command : Command} {stop : Stop}

theorem not_outsideTable_of_noReply (h : stop = .noReply) : ¬stop.OutsideTable := by
  rw [h]
  exact id

theorem handAt_error {i : UInt16} (h : handAt i w = .error stop) : ¬i.toNat < 5 := by
  unfold handAt at h
  split at h
  · cases h
  · assumption

-- Only an unchecked index, or a text that is too long, leads out of a table.
theorem exec_outsideTable (h : command.exec layout linebuf w = .error stop) (hstop : stop.OutsideTable) :
    ¬command.UncheckedInTables ∨ ∃ text, command = .strbufsets text ∧ 512 ≤ text.length := by
  cases command with
  | comment => cases h
  | callrm command mediaHandle subfunc param1 param2 =>
      have hcall := eq_error_of_bind h fun _ => ⟨_, rfl⟩
      exact absurd hstop (not_outsideTable_of_noReply (callFmpdriver_error hcall))
  | callrmHand command slot subfunc param1 param2 =>
      rcases bind_eq_error h with hhand | ⟨handle, _, h⟩
      · exact Or.inl (handAt_error hhand)
      · have hcall := eq_error_of_bind h fun _ => ⟨_, rfl⟩
        exact absurd hstop (not_outsideTable_of_noReply (callFmpdriver_error hcall))
  | callrmPtr command mediaHandle subfunc ptr =>
      have hcall := eq_error_of_bind h fun _ => ⟨_, rfl⟩
      exact absurd hstop (not_outsideTable_of_noReply (callFmpdriver_error hcall))
  | callrms function subfunc param1 param2 =>
      have hcall := eq_error_of_bind h fun _ => ⟨_, rfl⟩
      exact absurd hstop (not_outsideTable_of_noReply (callRmdevsys_error hcall))
  | callvbios function param1 param2 param3 param4 =>
      have hcall := eq_error_of_bind h fun _ => ⟨_, rfl⟩
      exact absurd hstop (not_outsideTable_of_noReply (callVbios_error hcall))
  | storvgamode =>
      have hcall := eq_error_of_bind h fun _ => ⟨_, rfl⟩
      exact absurd hstop (not_outsideTable_of_noReply (callVbios_error hcall))
  | loadvgamode =>
      have hcall := eq_error_of_bind h fun _ => ⟨_, rfl⟩
      exact absurd hstop (not_outsideTable_of_noReply (callVbios_error hcall))
  | storhand slot =>
      simp only [Command.exec, storeHand, badCommand] at h
      split at h
      · split at h <;> cases h
      · cases h
  | sleep seconds => cases h
  | waitplay mediaHandle sleepInterval =>
      have hcall := eq_error_of_bind h fun _ => ⟨_, rfl⟩
      exact absurd hstop (not_outsideTable_of_noReply (waitplay_error hcall))
  | waitplayHand slot sleepInterval =>
      rcases bind_eq_error h with hhand | ⟨handle, _, h⟩
      · exact Or.inl (handAt_error hhand)
      · have hcall := eq_error_of_bind h fun _ => ⟨_, rfl⟩
        exact absurd hstop (not_outsideTable_of_noReply (waitplay_error hcall))
  | strbufaddr => cases h
  | strbufprint =>
      simp only [Command.exec, strbufprint] at h
      split at h
      · cases h
      · obtain rfl := Except.error.inj h
        exact False.elim hstop
  | strbufsetx index value =>
      rcases bind_eq_error h with hstore | ⟨_, _, hret⟩
      · unfold storeStrbuf at hstore
        split at hstore
        · cases hstore
        · rename_i hindex
          exact Or.inl hindex
      · cases hret
  | strbufsets text =>
      rcases bind_eq_error h with hstore | ⟨_, _, hret⟩
      · unfold strcpyStrbuf at hstore
        split at hstore
        · cases hstore
        · rename_i htext
          exact Or.inr ⟨text, rfl, Nat.le_of_not_lt htext⟩
      · cases hret
  | mutestdout value => cases h
  | exit => cases h

theorem handAt_of_not_lt {i : UInt16} (h : ¬i.toNat < 5) (w : World) :
    handAt i w = .error (.handIndex i.toNat) := by
  rw [handAt, dif_neg h]

-- An unchecked index outside of its table is used all the same.
theorem exec_of_unchecked (h : ¬command.UncheckedInTables) (layout : Layout) (linebuf : List UInt8)
    (w : World) : ∃ stop, command.exec layout linebuf w = .error stop ∧ stop.OutsideTable := by
  cases command with
  | callrmHand command slot subfunc param1 param2 =>
      refine ⟨.handIndex slot.toNat, ?_, trivial⟩
      rw [Command.exec, handAt_of_not_lt h]
      rfl
  | waitplayHand slot sleepInterval =>
      refine ⟨.handIndex slot.toNat, ?_, trivial⟩
      rw [Command.exec, handAt_of_not_lt h]
      rfl
  | strbufsetx index value =>
      refine ⟨.strbufStore index.toNat, ?_, trivial⟩
      have hindex : ¬index.toNat < 512 := h
      rw [Command.exec, storeStrbuf, dif_neg hindex]
      rfl
  | _ => exact absurd trivial h

-- Of the indices out of range, the slot of STORHAND is the one that is refused.
theorem exec_storhand_of_not_lt {slot : UInt16} (h : ¬slot.toNat < 5) (layout : Layout)
    (linebuf : List UInt8) (w : World) :
    (Command.storhand slot).exec layout linebuf w = badCommand (skipBlanks linebuf) w := by
  rw [Command.exec, storeHand, dif_neg h]

-- The two commands that are checked in one way or another, and the three that are not.
theorem not_inTables_cases (h : ¬command.InTables) :
    ¬command.UncheckedInTables ∨ (∃ slot, command = .storhand slot ∧ ¬slot.toNat < 5) ∨
      ∃ text, command = .strbufsets text ∧ 512 ≤ text.length := by
  cases command with
  | storhand slot => exact Or.inr (Or.inl ⟨slot, rfl, h⟩)
  | strbufsets text => exact Or.inr (Or.inr ⟨text, rfl, Nat.le_of_not_lt h⟩)
  | callrmHand => exact Or.inl h
  | waitplayHand => exact Or.inl h
  | strbufsetx => exact Or.inl h
  | _ => exact absurd trivial h

-- On a line that fits the line buffer, exactly the unchecked indices lead out of the tables.
theorem keepsToTables_iff (hlength : linebuf.length ≤ 255) :
    KeepsToTables layout linebuf w ↔
      ∀ command, parse linebuf = some command → command.UncheckedInTables := by
  constructor
  · rintro ⟨hstop, _⟩ command hparse
    by_contra hunchecked
    obtain ⟨stop, hexec, houtside⟩ := exec_of_unchecked hunchecked layout linebuf w
    refine hstop stop ?_ houtside
    rw [processScriptLine_eq, hparse]
    exact hexec
  · intro hunchecked
    have htext : ∀ text, parse linebuf = some (.strbufsets text) → text.length < 512 := by
      intro text hparse
      have hle := textWithin_parse linebuf text hparse
      omega
    constructor
    · intro stop hstop houtside
      rw [processScriptLine_eq] at hstop
      cases hparse : parse linebuf with
      | none =>
          rw [hparse] at hstop
          cases hstop
      | some command =>
          rw [hparse] at hstop
          rcases exec_outsideTable hstop houtside with h | ⟨text, rfl, hlong⟩
          · exact h (hunchecked command hparse)
          · have hfits := htext text hparse
            omega
    · intro command hparse hout
      rw [processScriptLine_eq, hparse]
      rcases not_inTables_cases hout with h | ⟨slot, rfl, hslot⟩ | ⟨text, rfl, hlong⟩
      · exact absurd (hunchecked command hparse) h
      · exact exec_storhand_of_not_lt hslot layout linebuf w
      · have hfits := htext text hparse
        omega

end

-- Every line that `run_script` comes to keeps to the tables exactly when none of them has an
-- unchecked index out of range.
theorem tables_kept_iff (layout : Layout) (script : List UInt8) (w : World) :
    (∀ line w', Comes layout script w line w' → KeepsToTables layout line w') ↔
      ∀ line w', Comes layout script w line w' →
        ∀ command, parse line = some command → command.UncheckedInTables := by
  constructor
  · intro h line w' hcomes
    exact (keepsToTables_iff hcomes.length_le).mp (h line w' hcomes)
  · intro h line w' hcomes
    exact (keepsToTables_iff hcomes.length_le).mpr (h line w' hcomes)

-- HAND5 is read from behind the table.
theorem hand_read_outside :
    ¬∀ layout script w line w', Comes layout script w line w' → KeepsToTables layout line w' := by
  intro h
  have hcomes : Comes sampleLayout (ascii "CALLRM 2 HAND5 0 0 0\n") (.start [])
      (cString (ascii "CALLRM 2 HAND5 0 0 0\n")) (.start []) := .here rfl
  have hstop : processScriptLine sampleLayout (cString (ascii "CALLRM 2 HAND5 0 0 0\n")) (.start []) =
      .error (.handIndex 5) := rfl
  exact (h _ _ _ _ _ hcomes).1 _ hstop trivial

end ReelMagic.Rmprobe
