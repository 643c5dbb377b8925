import Mathlib.Logic.Relation
import ReelMagic.Analyze.RoundTrip
import ReelMagic.Library.Nesting

namespace ReelMagic.Analyze

open Library Library.Bytes Library.Stdio ReelMagic.Recorder

variable {w : Nat}

-- Completed calls and callback events in the order in which they begin, each call around what
-- happens while it is open.
inductive Forest where
  | nil
  | callback (regs : Regs) (callargs : CallArgs) (rest : Forest)
  | fmpdrvCall (enter : Regs) (filename : Vector UInt8 128) (inside : Forest) (exit : Regs)
      (rest : Forest)
  | rmdevsysCall (enter : Regs) (inside : Forest) (exit : Regs) (rest : Forest)

-- How many calls are open at once.
def Forest.depth : Forest → Nat
  | .nil => 0
  | .callback _ _ rest => rest.depth
  | .fmpdrvCall _ _ inside _ rest => max (inside.depth + 1) rest.depth
  | .rmdevsysCall _ inside _ rest => max (inside.depth + 1) rest.depth

-- What the recorder sees, in execution order.
def Forest.events : Forest → List Event
  | .nil => []
  | .callback regs callargs rest => .callbackEnter regs callargs :: rest.events
  | .fmpdrvCall enter filename inside exit rest =>
      .fmpdrvCallEnter enter filename :: (inside.events ++ .fmpdrvCallExit exit :: rest.events)
  | .rmdevsysCall enter inside exit rest =>
      .rmdevsysCallEnter enter :: (inside.events ++ .rmdevsysCallExit exit :: rest.events)

-- The records, each with the number of calls around it. The name of a file stands inside of
-- the call that it is an argument of.
def Forest.records (level : Nat) : Forest → List (Nat × Record)
  | .nil => []
  | .callback regs callargs rest =>
      (level, .callbackRegs regs) :: (level, .callbackStack callargs) :: rest.records level
  | .fmpdrvCall enter filename inside exit rest =>
      (level, .fmpdrvCallEnter enter) ::
        ((if enter.bx >>> 8 = 1 then [(level + 1, .filename filename)] else []) ++
          (inside.records (level + 1) ++ (level, .fmpdrvCallExit exit) :: rest.records level))
  | .rmdevsysCall enter inside exit rest =>
      (level, .rmdevsysCallEnter enter) ::
        (inside.records (level + 1) ++ (level, .rmdevsysCallExit exit) :: rest.records level)

def lineOf (entry : Nat × Record) : Line := ⟨entry.1, entryOf entry.2⟩

def Forest.lines (f : Forest) : List Line := (f.records 0).map lineOf

-- The next record is one of those in front of whose line `_indent` goes down.
def AtExit (s : State w) : Prop :=
  ∃ raw fp, fread (5 * 2) s.fp = (some raw, fp) ∧
    (bufWord raw 0).toNat ∈ [0xFFFF, 0x2FFF, 0x0BFF]

-- The states in which the loop makes its next read.
def Reaches : State w → State w → Prop :=
  Relation.ReflTransGen fun s next => decodeStep s = some next

def bracketOf : Record → Bracket
  | .fmpdrvCallEnter _ => .opening
  | .rmdevsysCallEnter _ => .opening
  | .fmpdrvCallExit _ => .closing
  | .rmdevsysCallExit _ => .closing
  | .filename _ => .other
  | .callbackRegs _ => .other
  | .callbackStack _ => .other

theorem Forest.records_events (f : Forest) (level : Nat) :
    (f.records level).map Prod.snd = f.events.flatMap Event.records := by
  induction f generalizing level with
  | nil => rfl
  | callback regs callargs rest ih =>
      rw [Forest.records, Forest.events, List.map_cons, List.map_cons, ih]
      rfl
  | fmpdrvCall enter filename inside exit rest ihinside ihrest =>
      simp only [Forest.records, Forest.events, List.map_cons, List.map_append, ihinside, ihrest,
        List.flatMap_cons, List.flatMap_append, Event.records]
      split
      · rfl
      · rfl
  | rmdevsysCall enter inside exit rest ihinside ihrest =>
      simp only [Forest.records, Forest.events, List.map_cons, List.map_append, ihinside, ihrest,
        List.flatMap_cons, List.flatMap_append, Event.records]
      rfl

theorem Forest.nesting (f : Forest) {level limit : Nat} (h : level + f.depth ≤ limit) :
    Run level (Nesting bracketOf limit) (f.records level) level := by
  induction f generalizing level with
  | nil => exact .nil
  | callback regs callargs rest ih => exact .cons (.other rfl) (.cons (.other rfl) (ih h))
  | fmpdrvCall enter filename inside exit rest ihinside ihrest =>
      rw [Forest.depth] at h
      have hinside : level + 1 + inside.depth ≤ limit := by omega
      have hrest : level + rest.depth ≤ limit := by omega
      have hexit : Nesting bracketOf limit (level + 1) (level, .fmpdrvCallExit exit) level :=
        .closing rfl
      have hafter := (ihinside hinside).append (.cons hexit (ihrest hrest))
      refine .cons (.opening rfl (by omega)) ?_
      split
      · exact .cons (.other rfl) hafter
      · exact hafter
  | rmdevsysCall enter inside exit rest ihinside ihrest =>
      rw [Forest.depth] at h
      have hinside : level + 1 + inside.depth ≤ limit := by omega
      have hrest : level + rest.depth ≤ limit := by omega
      have hexit : Nesting bracketOf limit (level + 1) (level, .rmdevsysCallExit exit) level :=
        .closing rfl
      have hafter := (ihinside hinside).append (.cons hexit (ihrest hrest))
      exact .cons (.opening rfl (by omega)) hafter

theorem toNat_one {level : Nat} (h : level + 1 < 2 ^ w) : (1 : BitVec w).toNat = 1 := by
  have hlt : 1 < 2 ^ w := by omega
  rw [BitVec.ofNat_eq_ofNat, BitVec.toNat_ofNat]
  exact Nat.mod_eq_of_lt hlt

-- The counter stays below what an `int` holds.
theorem incIndent_toNat {s : State w} {level : Nat} (h : s.indent.toNat = level)
    (hlevel : level + 1 < 2 ^ w) : (incIndent s).indent.toNat = level + 1 := by
  rw [incIndent, BitVec.toNat_add, h, toNat_one hlevel]
  exact Nat.mod_eq_of_lt hlevel

-- Inside of a call the counter is not zero.
theorem indent_ne_zero {s : State w} {level : Nat} (h : s.indent.toNat = level + 1) :
    s.indent ≠ 0 := by
  intro hzero
  rw [hzero, BitVec.ofNat_eq_ofNat, BitVec.toNat_ofNat, Nat.zero_mod] at h
  omega

-- Counting down from anything but zero stays in the range.
theorem toNat_sub_one {count : BitVec w} (h : count ≠ 0) : (count - 1).toNat + 1 = count.toNat := by
  have hpos : count.toNat ≠ 0 := by
    intro hzero
    exact h (BitVec.eq_of_toNat_eq (by simpa using hzero))
  have hlt := count.isLt
  have hone : (1 : BitVec w).toNat = 1 := toNat_one (show 0 + 1 < 2 ^ w by omega)
  have hle : (1 : BitVec w) ≤ count := by
    rw [BitVec.le_def, hone]
    omega
  rw [BitVec.toNat_sub_of_le hle, hone]
  omega

theorem decIndent_toNat_sub (s : State w) : (decIndent s).indent.toNat = s.indent.toNat - 1 := by
  by_cases h : s.indent = 0
  · rw [decIndent, if_neg (not_not.mpr h), h]
    simp
  · have hsub := toNat_sub_one h
    rw [decIndent, if_pos h]
    dsimp only
    omega

theorem decIndent_toNat {s : State w} {level : Nat} (h : s.indent.toNat = level + 1) :
    (decIndent s).indent.toNat = level := by
  rw [decIndent_toNat_sub, h]
  rfl

theorem printRecord_nesting {s : State w} {limit level next : Nat} {entry : Nat × Record}
    (hlimit : limit < 2 ^ w) (hs : s.indent.toNat = level)
    (h : Nesting bracketOf limit level entry next) :
    (printRecord entry.2 s).indent.toNat = next ∧
      (printRecord entry.2 s).printed = s.printed ++ [lineOf entry] := by
  cases h with
  | @opening _ record hbracket hlt =>
      have hinc : (incIndent s).indent.toNat = level + 1 := incIndent_toNat hs (by omega)
      have hprinted : (printfi (entryOf record) s).printed = s.printed ++ [lineOf (level, record)] := by
        rw [printfi, printfIndent, hs]
        rfl
      cases record with
      | fmpdrvCallEnter _ => exact ⟨hinc, hprinted⟩
      | rmdevsysCallEnter _ => exact ⟨hinc, hprinted⟩
      | filename | fmpdrvCallExit | rmdevsysCallExit | callbackRegs | callbackStack =>
          cases hbracket
  | @closing _ record hbracket =>
      have hdec := decIndent_toNat hs
      have hprinted : (printfi (entryOf record) (decIndent s)).printed =
          s.printed ++ [lineOf (next, record)] := by
        rw [printfi, printfIndent, hdec, decIndent_printed]
        rfl
      cases record with
      | fmpdrvCallExit _ => exact ⟨hdec, hprinted⟩
      | rmdevsysCallExit _ => exact ⟨hdec, hprinted⟩
      | fmpdrvCallEnter | filename | rmdevsysCallEnter | callbackRegs | callbackStack =>
          cases hbracket
  | @other _ record hbracket =>
      have hprinted : (printfi (entryOf record) s).printed = s.printed ++ [lineOf (level, record)] := by
        rw [printfi, printfIndent, hs]
        rfl
      cases record with
      | filename _ => exact ⟨hs, hprinted⟩
      | callbackRegs _ => exact ⟨hs, hprinted⟩
      | callbackStack _ => exact ⟨hs, hprinted⟩
      | fmpdrvCallEnter | fmpdrvCallExit | rmdevsysCallEnter | rmdevsysCallExit => cases hbracket

theorem printAll_nesting {s : State w} {limit start level : Nat} {entries : List (Nat × Record)}
    (hlimit : limit < 2 ^ w) (hs : s.indent.toNat = start)
    (run : Run start (Nesting bracketOf limit) entries level) :
    (printAll (entries.map Prod.snd) s).indent.toNat = level ∧
      (printAll (entries.map Prod.snd) s).printed = s.printed ++ entries.map lineOf := by
  refine run.invariant (fun entries level =>
    (printAll (entries.map Prod.snd) s).indent.toNat = level ∧
      (printAll (entries.map Prod.snd) s).printed = s.printed ++ entries.map lineOf)
    ⟨hs, (List.append_nil _).symm⟩ ?_
  rintro entries level entry next ⟨hindent, hprinted⟩ h
  obtain ⟨hnext, hline⟩ := printRecord_nesting hlimit hindent h
  rw [List.map_append, List.map_append, printAll_append]
  refine ⟨hnext, hline.trans ?_⟩
  rw [hprinted, List.append_assoc]
  rfl

theorem reaches_records {records : List Record} {s t : State w}
    (h : Reaches { s with fp := records.flatMap Record.toBytes } t) :
    ∃ before after, records = before ++ after ∧
      t = { printAll before s with fp := after.flatMap Record.toBytes } := by
  induction h with
  | refl => exact ⟨[], records, rfl, rfl⟩
  | tail _ step ih =>
      obtain ⟨before, after, hrecords, rfl⟩ := ih
      cases after with
      | nil =>
          rw [decodeStep_of_short (by simp)] at step
          cases step
      | cons record after =>
          rw [List.flatMap_cons, decodeStep_record, printRecord_with_fp] at step
          obtain rfl := Option.some.inj step
          refine ⟨before ++ [record], after, ?_, ?_⟩
          · rw [List.append_assoc]
            exact hrecords
          · rw [printAll_append]
            rfl

-- What the next read of ten bytes finds at the front of a record.
theorem atExit_iff {raw rest : List UInt8} {s : State w} (h : raw.length = 10) :
    AtExit { s with fp := raw ++ rest } ↔ (bufWord raw 0).toNat ∈ [0xFFFF, 0x2FFF, 0x0BFF] := by
  constructor
  · rintro ⟨read, fp, hread, htag⟩
    obtain ⟨hraw, _⟩ := Prod.mk.inj ((fread_ten raw rest h).symm.trans hread)
    rw [Option.some.inj hraw]
    exact htag
  · intro htag
    exact ⟨raw, rest, fread_ten raw rest h, htag⟩

-- Only the exit of a call is read as one.
theorem bracketOf_of_atExit {record : Record} {rest : List UInt8} {s : State w}
    (h : AtExit { s with fp := record.toBytes ++ rest }) : bracketOf record = .closing := by
  cases record with
  | fmpdrvCallExit regs => rfl
  | rmdevsysCallExit regs => rfl
  | filename bytes =>
      rw [Record.toBytes, filename_split, atExit_iff (filename_front_length bytes)] at h
      have htag : bufWord (bytes16 0x0001 ++ bytes.toList.take 8) 0 = 1 := rfl
      rw [htag] at h
      exact absurd h (by decide)
  | fmpdrvCallEnter regs | rmdevsysCallEnter regs | callbackRegs regs | callbackStack callargs =>
      rw [Record.toBytes, atExit_iff (callBytes_length _ _), bufWord_tag] at h
      exact absurd h (by decide)

section

variable (f : Forest)

theorem Forest.log : (recordAll f.events).log =
    ((f.records 0).map Prod.snd).flatMap Record.toBytes := by
  rw [recordAll_log, f.records_events 0]

theorem decodeLoop_forest : decodeLoop (⟨(recordAll f.events).log, 0, []⟩ : State w) =
    { printAll ((f.records 0).map Prod.snd) ⟨[], 0, []⟩ with fp := [] } := by
  have hloop := decodeLoop_append ((f.records 0).map Prod.snd) [] (⟨[], 0, []⟩ : State w)
  rw [List.append_nil, ← f.log] at hloop
  rw [hloop, decodeLoop_of_none (decodeStep_of_short (by simp))]

theorem analyze_forest (hlimit : f.depth < 2 ^ w) :
    analyze w (recordAll f.events).log = f.lines ∧
      (decodeLoop (⟨(recordAll f.events).log, 0, []⟩ : State w)).indent = 0 := by
  have hstart : (⟨[], 0, []⟩ : State w).indent.toNat = 0 := by simp
  have hnesting := f.nesting (Nat.le_of_eq (Nat.zero_add f.depth))
  obtain ⟨hindent, hprinted⟩ := printAll_nesting hlimit hstart hnesting
  rw [analyze, decodeLoop_forest]
  exact ⟨hprinted, BitVec.eq_of_toNat_eq (hindent.trans hstart.symm)⟩

-- What has been read and printed before an exit is a run that leaves its call open.
theorem indent_ne_zero_of_atExit (hlimit : f.depth < 2 ^ w) {s : State w}
    (hreach : Reaches ⟨(recordAll f.events).log, 0, []⟩ s) (hexit : AtExit s) : s.indent ≠ 0 := by
  have hreach' : Reaches
      { (⟨[], 0, []⟩ : State w) with fp := ((f.records 0).map Prod.snd).flatMap Record.toBytes } s := by
    rw [← f.log]
    exact hreach
  obtain ⟨before, after, hrecords, rfl⟩ := reaches_records hreach'
  cases after with
  | nil =>
      obtain ⟨raw, fp, hread, _⟩ := hexit
      rw [fread_short _ _ (by simp)] at hread
      cases hread
  | cons record after =>
      have hclosing : bracketOf record = .closing := bracketOf_of_atExit hexit
      obtain ⟨entries, more, hentries, rfl, hmore⟩ := List.map_eq_append_iff.mp hrecords
      obtain ⟨entry, rest, rfl, rfl, _⟩ := List.map_eq_cons_iff.mp hmore
      have run := f.nesting (Nat.le_of_eq (Nat.zero_add f.depth))
      rw [hentries] at run
      obtain ⟨level, next, hbefore, hentry⟩ := run.split
      have hstart : (⟨[], 0, []⟩ : State w).indent.toNat = 0 := by simp
      have hindent := (printAll_nesting hlimit hstart hbefore).1
      cases hentry with
      | opening hbracket _ => cases hbracket.symm.trans hclosing
      | closing _ => exact indent_ne_zero hindent
      | other hbracket => cases hbracket.symm.trans hclosing

-- The exit lines stand where the enter lines do, at the number of calls around them, and
-- everything else at the number of calls that are open. No exit finds the counter at zero.
theorem analyze_indents_by_nesting (w : Nat) (h : f.depth < 2 ^ (w - 1)) :
    analyze w (recordAll f.events).log = f.lines ∧
      (decodeLoop (⟨(recordAll f.events).log, 0, []⟩ : State w)).indent = 0 ∧
      ∀ s : State w, Reaches ⟨(recordAll f.events).log, 0, []⟩ s → AtExit s → s.indent ≠ 0 := by
  have hlimit : f.depth < 2 ^ w := by
    have hpow : 2 ^ (w - 1) ≤ 2 ^ w := Nat.pow_le_pow_right (by omega) (by omega)
    omega
  obtain ⟨hlines, hindent⟩ := analyze_forest f hlimit
  exact ⟨hlines, hindent, fun s hreach hexit => indent_ne_zero_of_atExit f hlimit hreach hexit⟩

end

-- A call of RMDEV.SYS inside of a driver call, after a callback.
theorem analyze_indents_by_nesting_callback :
    analyze 16 (recordAll (Forest.fmpdrvCall ⟨1, 0x0200, 3, 4⟩ (Vector.replicate 128 0)
      (.callback ⟨5, 6, 7, 8⟩ ⟨9, 10, 11, 12⟩
        (.rmdevsysCall ⟨0x9800, 0, 0, 0⟩ .nil ⟨0, 0, 0, 0⟩ .nil)) ⟨0, 0, 0, 0⟩ .nil).events).log =
      [⟨0, .driverCall 2 0 3 1 4⟩, ⟨1, .callbackReg 5 6 7 8⟩, ⟨1, .callbackStk 9 10 11 12⟩,
        ⟨1, .rmdevsysCall 0x9800 0 0 0⟩, ⟨1, .rmdevsysReturn 0 0 0 0⟩, ⟨0, .driverReturn 0 0 0 0⟩] :=
  (analyze_indents_by_nesting _ 16 (by decide)).1

end ReelMagic.Analyze
