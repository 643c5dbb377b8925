import Mathlib.Data.List.TakeWhile
import ReelMagic.Streamer.Steps

namespace ReelMagic.Streamer

open Library
open ReelMagic.Recorder (Regs)

def Effect.printed : Effect → Option UInt8
  | .putchar c => some c
  | _ => none

def Effect.entered : Effect → Option Request
  | .enter request => some request
  | _ => none

def Effect.isPlay : Effect → Bool
  | .play => true
  | _ => false

-- The characters the callback has printed.
def Program.printed (p : Program) : List UInt8 := p.effects.filterMap Effect.printed

-- The calls of the callback there have been, and those since the stream plays.
def Program.served (p : Program) : List Request := p.effects.filterMap Effect.entered

def Program.servedPlaying (p : Program) : List Request :=
  (p.effects.dropWhile fun effect => !effect.isPlay).filterMap Effect.entered

-- What is printed for the `index`-th callback: a dot, and before every eleventh a new line.
def dot (index : Nat) : List UInt8 := if index % 11 = 10 then [0x0D, 0x0A, 0x2E] else [0x2E]

def dots (count : Nat) : List UInt8 := (List.range count).flatMap dot

-- The callbacks are counted from the start, and the dots are those of the callbacks since the
-- stream plays.
structure Dotted (p : Program) : Prop where
  isPlaying : p.statics.isPlaying = p.effects.any Effect.isPlay
  callbackCount : p.callbackCount = UInt16.ofNat p.served.length
  dotCount : p.dotCount = p.servedPlaying.length % 11
  printed : p.printed = dots p.servedPlaying.length

section

variable {p q : Program} {effects : List Effect}

theorem served_emit (effects : List Effect) (p : Program) :
    (p.emit effects).served = p.served ++ effects.filterMap Effect.entered :=
  List.filterMap_append ..

theorem printed_emit (effects : List Effect) (p : Program) :
    (p.emit effects).printed = p.printed ++ effects.filterMap Effect.printed :=
  List.filterMap_append ..

theorem dropWhile_isPlay (h : effects.any Effect.isPlay = false) :
    effects.dropWhile (fun effect => !effect.isPlay) = [] := by
  rw [List.dropWhile_eq_nil_iff]
  intro effect hmem
  rw [Bool.not_eq_true', ← Bool.not_eq_true]
  exact List.any_eq_false.mp h effect hmem

-- What is done while the stream plays is added to what was done before, if it did so then.
theorem servedPlaying_emit (h : effects.any Effect.isPlay = false) (p : Program) :
    (p.emit effects).servedPlaying = p.servedPlaying ++
      if p.effects.any Effect.isPlay then effects.filterMap Effect.entered else [] := by
  unfold Program.servedPlaying Program.emit
  rw [List.dropWhile_append]
  cases hplay : p.effects.any Effect.isPlay with
  | false =>
      rw [dropWhile_isPlay hplay, dropWhile_isPlay h]
      rfl
  | true =>
      have hne : (p.effects.dropWhile fun effect => !effect.isPlay).isEmpty = false := by
        obtain ⟨effect, hmem, heffect⟩ := List.any_eq_true.mp hplay
        rw [List.isEmpty_eq_false_iff, Ne, List.dropWhile_eq_nil_iff]
        intro hnone
        have hnot := hnone effect hmem
        rw [heffect] at hnot
        cases hnot
      rw [hne, if_neg Bool.false_ne_true, if_pos rfl, List.filterMap_append]

theorem Dotted.of_eq (h : Dotted p) (hplaying : q.statics.isPlaying = p.statics.isPlaying)
    (hcount : q.callbackCount = p.callbackCount) (hdot : q.dotCount = p.dotCount)
    (heffects : q.effects = p.effects) : Dotted q := by
  have hserved : q.served = p.served := congrArg (List.filterMap Effect.entered) heffects
  have hsince : q.servedPlaying = p.servedPlaying := by
    unfold Program.servedPlaying
    rw [heffects]
  have hprinted : q.printed = p.printed := congrArg (List.filterMap Effect.printed) heffects
  refine ⟨?_, ?_, ?_, ?_⟩
  · rw [hplaying, heffects, h.isPlaying]
  · rw [hcount, hserved, h.callbackCount]
  · rw [hdot, hsince, h.dotCount]
  · rw [hprinted, hsince, h.printed]

theorem Dotted.emit (h : Dotted p) (hplay : effects.any Effect.isPlay = false)
    (hserved : effects.filterMap Effect.entered = [])
    (hprinted : effects.filterMap Effect.printed = []) : Dotted (p.emit effects) := by
  have hsince : (p.emit effects).servedPlaying = p.servedPlaying := by
    rw [servedPlaying_emit hplay, hserved, ite_self, List.append_nil]
  refine ⟨?_, ?_, ?_, ?_⟩
  · show p.statics.isPlaying = (p.effects ++ effects).any Effect.isPlay
    rw [List.any_append, hplay, Bool.or_false, h.isPlaying]
  · rw [served_emit, hserved, List.append_nil]
    exact h.callbackCount
  · rw [hsince]
    exact h.dotCount
  · rw [printed_emit, hprinted, hsince, List.append_nil]
    exact h.printed

theorem lineEffects_quiet (indent : Nat) (line : Line) (p : Program) :
    (p.lineEffects indent line).any Effect.isPlay = false ∧
      (p.lineEffects indent line).filterMap Effect.entered = [] ∧
        (p.lineEffects indent line).filterMap Effect.printed = [] := by
  unfold Program.lineEffects
  cases p.statics.muted <;> cases p.statics.stdouton <;> cases p.statics.logout <;>
    exact ⟨rfl, rfl, rfl⟩

theorem Dotted.lines (h : Dotted p) (indent : Nat) (line : Line) :
    Dotted (p.emit (p.lineEffects indent line)) := by
  obtain ⟨hplay, hserved, hprinted⟩ := lineEffects_quiet indent line p
  exact h.emit hplay hserved hprinted

theorem Dotted.logfi (h : Dotted p) (line : Line) : Dotted (p.logfi line) := h.lines _ line

theorem Dotted.logfAbort (h : Dotted p) (line : Line) : Dotted (p.logfAbort line) :=
  ((h.logfi line).logfi .aborting).of_eq rfl rfl rfl rfl

theorem Dotted.logfDelindent (h : Dotted p) : Dotted p.logfDelindent := by
  unfold Program.logfDelindent
  split
  · exact h.of_eq rfl rfl rfl rfl
  · exact h

-- From here on the dots are printed. None have been before.
theorem Dotted.setPlaying (h : Dotted p) : Dotted p.setPlaying := by
  have hsince : p.setPlaying.servedPlaying = p.servedPlaying := by
    show ((p.effects ++ [Effect.play]).dropWhile fun effect => !effect.isPlay).filterMap
      Effect.entered = _
    unfold Program.servedPlaying
    rw [List.dropWhile_append]
    split
    · rename_i hnone
      rw [List.isEmpty_iff.mp hnone]
      rfl
    · rw [List.filterMap_append]
      exact List.append_nil _
  have hprinted : p.setPlaying.printed = p.printed := by
    show (p.effects ++ [Effect.play]).filterMap Effect.printed = _
    rw [List.filterMap_append]
    exact List.append_nil _
  refine ⟨?_, ?_, ?_, ?_⟩
  · show true = (p.effects ++ [Effect.play]).any Effect.isPlay
    rw [List.any_append]
    exact (Bool.or_true _).symm
  · have hserved : p.setPlaying.served = p.served := by
      show (p.effects ++ [Effect.play]).filterMap Effect.entered = _
      rw [List.filterMap_append]
      exact List.append_nil _
    rw [hserved]
    exact h.callbackCount
  · rw [hsince]
    exact h.dotCount
  · rw [hprinted, hsince, h.printed]

theorem dots_succ (count : Nat) : dots (count + 1) = dots count ++ dot count := by
  rw [dots, List.range_succ, List.flatMap_append, List.flatMap_singleton]
  rfl

theorem putchars_quiet (chars : List UInt8) :
    (chars.map Effect.putchar).any Effect.isPlay = false ∧
      (chars.map Effect.putchar).filterMap Effect.entered = [] ∧
        (chars.map Effect.putchar).filterMap Effect.printed = chars := by
  induction chars with
  | nil => exact ⟨rfl, rfl, rfl⟩
  | cons c chars ih =>
      obtain ⟨hplay, hserved, hprinted⟩ := ih
      exact ⟨hplay, hserved, congrArg (c :: ·) hprinted⟩

theorem counted_playing (h : p.statics.isPlaying = true) :
    p.counted =
      { p with
        callbackCount := p.callbackCount + 1
        dotCount := if p.dotCount ≥ 10 then 0 else p.dotCount + 1 }.emit
          ((if p.dotCount ≥ 10 then [0x0D, 0x0A, 0x2E] else [0x2E]).map .putchar) := by
  have hplaying : ({ p with callbackCount := p.callbackCount + 1 } : Program).statics.isPlaying =
      true := h
  unfold Program.counted Program.printDot
  rw [if_pos hplaying]
  by_cases hfull : p.dotCount ≥ 10
  · simp only [if_pos hfull]
    rfl
  · simp only [if_neg hfull]
    rfl

theorem counted_not_playing (h : p.statics.isPlaying = false) :
    p.counted = { p with callbackCount := p.callbackCount + 1 } := by
  have hplaying : ¬({ p with callbackCount := p.callbackCount + 1 } : Program).statics.isPlaying =
      true := by
    rw [Bool.not_eq_true]
    exact h
  unfold Program.counted Program.printDot
  rw [if_neg hplaying]

-- A callback that is entered is counted, and while the stream plays it has its dot printed.
theorem Dotted.counted (h : Dotted p) (request : Request) :
    Dotted (p.emit [.enter request]).counted := by
  have hserved : (p.emit [.enter request]).served.length = p.served.length + 1 := by
    rw [served_emit, List.length_append]
    rfl
  have hcount : p.callbackCount + 1 = UInt16.ofNat (p.served.length + 1) := by
    rw [UInt16.ofNat_add, h.callbackCount]
    rfl
  have hplay : (p.emit [.enter request]).effects.any Effect.isPlay = p.effects.any Effect.isPlay := by
    show (p.effects ++ [Effect.enter request]).any Effect.isPlay = _
    rw [List.any_append]
    exact Bool.or_false _
  have hquiet : [Effect.enter request].any Effect.isPlay = false := rfl
  have hsince := servedPlaying_emit hquiet p
  have hprinted : (p.emit [.enter request]).printed = dots p.servedPlaying.length := by
    rw [printed_emit, h.printed]
    exact List.append_nil _
  cases hplaying : p.statics.isPlaying with
  | false =>
      rw [← h.isPlaying, hplaying, if_neg Bool.false_ne_true, List.append_nil] at hsince
      rw [counted_not_playing (p := p.emit [.enter request]) hplaying]
      refine ⟨?_, hcount.trans (congrArg UInt16.ofNat hserved.symm), ?_, ?_⟩
      · exact h.isPlaying.trans hplay.symm
      · show p.dotCount = (p.emit [.enter request]).servedPlaying.length % 11
        rw [hsince]
        exact h.dotCount
      · show (p.emit [.enter request]).printed = dots (p.emit [.enter request]).servedPlaying.length
        rw [hsince]
        exact hprinted
  | true =>
      rw [← h.isPlaying, hplaying, if_pos rfl] at hsince
      have hlength : (p.emit [.enter request]).servedPlaying.length = p.servedPlaying.length + 1 := by
        rw [hsince, List.length_append]
        rfl
      have hdot : p.dotCount = p.servedPlaying.length % 11 := h.dotCount
      have hfull : p.dotCount ≥ 10 ↔ p.servedPlaying.length % 11 = 10 := by
        omega
      rw [counted_playing (p := p.emit [.enter request]) hplaying]
      obtain ⟨hquiet, hnone, hchars⟩ :=
        putchars_quiet (if (p.emit [.enter request]).dotCount ≥ 10 then [0x0D, 0x0A, 0x2E] else [0x2E])
      refine ⟨?_, ?_, ?_, ?_⟩
      · show p.statics.isPlaying = ((p.emit [.enter request]).effects ++ _).any Effect.isPlay
        rw [List.any_append, hquiet, Bool.or_false, hplay, h.isPlaying]
      · rw [served_emit, hnone, List.append_nil]
        exact hcount.trans (congrArg UInt16.ofNat hserved.symm)
      · rw [servedPlaying_emit hquiet, hnone, ite_self, List.append_nil]
        show (if p.dotCount ≥ 10 then 0 else p.dotCount + 1) =
          (p.emit [.enter request]).servedPlaying.length % 11
        rw [hlength]
        split
        · omega
        · omega
      · rw [printed_emit, servedPlaying_emit hquiet, hnone, ite_self, List.append_nil, hchars]
        show (p.emit [.enter request]).printed ++
            (if p.dotCount ≥ 10 then [0x0D, 0x0A, 0x2E] else [0x2E]) =
          dots (p.emit [.enter request]).servedPlaying.length
        rw [hprinted, hlength, dots_succ, dot]
        simp only [hfull]

-- Later states count and print on from earlier ones.
def DottedOn (p q : Program) : Prop := Dotted p → Dotted q

abbrev DottedAt (p : Program) (stop : Stop) : Prop := DottedOn p stop.program

theorem dottedOn_rmCallFmpdrv {int80 : Regs → Program → Except Stop (Regs × Program)}
    (hint80 : ∀ regs p, Ends (DottedAt p) (fun result => DottedOn p result.2) (int80 regs p))
    (command handle : UInt8) (subfunc param1 param2 : UInt16) (p : Program) :
    Ends (DottedAt p) (fun result => DottedOn p result.2)
      (p.rmCallFmpdrv int80 command handle subfunc param1 param2) := by
  unfold Program.rmCallFmpdrv
  split
  · exact fun h => h.logfAbort .unreachable
  have hentered : DottedOn p (p.logfi (.sdk (.enterCallFmpdrv command handle subfunc param1
      param2))).logfAddindent := fun h => (h.logfi _).of_eq rfl rfl rfl rfl
  refine Ends.bind (Ends.imp (hint80 _ _) (fun _ hstop h => hstop (hentered h)) fun _ hr => hr) ?_
  rintro ⟨reply, q⟩ hq h
  exact (hq (hentered h)).logfDelindent.logfi _

theorem dottedOn_returned {p : Program} {regs : Regs} {result : Regs × Program}
    (h : Returned DottedOn p regs result) : DottedOn p result.2 := by
  obtain ⟨answer, script, q, _, hq, rfl⟩ := h
  intro hp
  exact (hq (hp.of_eq rfl rfl rfl rfl)).emit rfl rfl rfl

theorem dottedOn_respected {int80 : Regs → Program → Except Stop (Regs × Program)}
    (hint80 : ∀ regs p, Ends (DottedAt p) (fun result => DottedOn p result.2) (int80 regs p)) :
    Respected int80 DottedOn DottedAt where
  refl := fun _ h => h
  trans := fun hpq hqr h => hqr (hpq h)
  after := fun hpq hstop h => hstop (hpq h)
  wild := fun _ h => h
  logfi := fun line _ _ h => h.logfi line
  world := fun _ _ h => h.of_eq rfl rfl rfl rfl
  dos := fun calls _ h => h.emit (by simp [Effect.isPlay])
    (by simp [List.filterMap_map, Effect.entered]) (by simp [List.filterMap_map, Effect.printed])
  call := dottedOn_rmCallFmpdrv hint80
  entered := fun _ _ _ hstop h => hstop (h.logfi _)
  callback := fun _ _ _ hq h => (hq (h.logfi _)).logfi _

theorem dottedOn_nested (layout : Layout) :
    Nested layout (fun _ => DottedOn) (fun _ => DottedAt) (fun _ => DottedOn) (fun _ => DottedAt) where
  refl := fun _ _ h => h
  trans := fun hpq hqr h => hqr (hpq h)
  after := fun hpq hstop h => hstop (hpq h)
  unanswered := fun _ _ _ h => h
  refused := fun _ _ _ _ h => h
  script := fun _ _ _ _ _ h => h.of_eq rfl rfl rfl rfl
  respected := fun _ hint80 =>
    dottedOn_respected fun regs p => (hint80 regs p).mono fun _ => dottedOn_returned
  served := fun request hq h => (hq (h.counted request)).emit rfl rfl rfl
  broken := fun request hstop h => hstop (h.counted request)

theorem dottedOn_call (layout : Layout) (depth : Nat) (command handle : UInt8)
    (subfunc param1 param2 : UInt16) (p : Program) :
    Ends (DottedAt p) (fun result => DottedOn p result.2)
      (p.rmCallFmpdrv (Program.int80 layout depth) command handle subfunc param1 param2) :=
  dottedOn_rmCallFmpdrv (fun regs q =>
    ((dottedOn_nested layout).int80 depth regs q).mono fun _ => dottedOn_returned) _ _ _ _ _ p

end

end ReelMagic.Streamer
