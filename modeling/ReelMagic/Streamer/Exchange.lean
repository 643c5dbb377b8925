import ReelMagic.Library.Registers
import ReelMagic.Streamer.Steps

namespace ReelMagic.Streamer

open Library Library.Registers
open ReelMagic.Recorder (CallArgs FarPtr Regs)

-- What passes between the program and the driver or DOS.
inductive Op where
  | int80 (regs : Regs)
  | dos (call : Call)
  | enter (request : Request)
  | leave
deriving DecidableEq

def Effect.op : Effect → Option Op
  | .int80 regs _ => some (.int80 regs)
  | .dos call => some (.dos call)
  | .enter request => some (.enter request)
  | .leave => some .leave
  | .play => none
  | .putchar _ => none
  | .stdout _ _ => none
  | .logfile _ _ => none

def Program.ops (p : Program) : List Op := p.effects.filterMap Effect.op

-- The interrupts a call comes to.
def Call.ops (layout : Layout) : Call → List Op
  | .rmSet handle type param1 param2 => [.int80 (callRegs 0x9 handle type param1 param2)]
  | .rmSetPtr handle type ptr =>
      [.int80 (callRegs 0x9 handle type (ptr.far layout).off (ptr.far layout).seg)]
  | .rmSubmitBuffer handle ptr size =>
      [.int80 (callRegs 0x9 handle 0x307 layout.dataSeg 0),
        .int80 (callRegs 0x9 handle 0x303 (layout.dmaBuf + UInt16.ofNat ptr) 0),
        .int80 (callRegs 0x9 handle 0x304 (UInt16.ofNat size) 0)]
  | call => [.dos call]

def callsOps (layout : Layout) (calls : List Call) : List Op := calls.flatMap (Call.ops layout)

def Event.request (event : Event) : Request :=
  ⟨⟨event.command, event.handle, event.param1, event.param2⟩, event.reply⟩

-- All that passes during a callback: the driver is asked for the pointer it keeps, and then
-- come the calls of the callback.
def Event.ops (layout : Layout) (event : Event) : List Op :=
  .enter event.request :: .int80 (callRegs 0xA event.handle.toUInt8 0x208 0 0) ::
    callsOps layout event.calls ++ [.leave]

-- The callbacks of a run are the events, in this order. Anything else that passes is a call of
-- the driver.
inductive Serves (layout : Layout) : List Op → List Event → Prop
  | nil : Serves layout [] []
  | call {ops : List Op} {events : List Event} (regs : Regs) :
      Serves layout ops events → Serves layout (ops ++ [.int80 regs]) events
  | callback {ops : List Op} {events : List Event} (event : Event) :
      Serves layout ops events →
        Serves layout (ops ++ event.ops layout) (events ++ [event])

-- What the callbacks have done is a run of the callback.
def Sound (layout : Layout) (p : Program) : Prop :=
  ∃ events, Serves layout p.ops events ∧ Reached events p.world

-- The pointers that a driver has been told to keep under type 0x208 of its handles.
def keep (kept : UInt8 → FarPtr) : Effect → UInt8 → FarPtr
  | .int80 regs _ =>
      if regs.bx >>> 8 = 0x9 ∧ regs.cx = 0x208 then
        Function.update kept regs.bx.toUInt8 ⟨regs.dx, regs.ax⟩
      else kept
  | _ => kept

def told (effects : List Effect) : UInt8 → FarPtr := effects.foldl keep fun _ => ⟨0, 0⟩

-- Asked for type 0x208 of a handle, it gives back the pointer that it has been told to keep there.
def GivesBack (kept : UInt8 → FarPtr) : Effect → Prop
  | .int80 regs reply =>
      regs.bx >>> 8 = 0xA → regs.cx = 0x208 → (⟨reply.dx, reply.ax⟩ : FarPtr) = kept regs.bx.toUInt8
  | _ => True

-- What `my_callback` relies on in a driver.
def KeepsPointers (effects : List Effect) : Prop :=
  ∀ before effect after, effects = before ++ effect :: after → GivesBack (told before) effect

theorem keepsPointers_iff {effects : List Effect} :
    KeepsPointers effects ↔ ∀ i : Fin effects.length, GivesBack (told (effects.take i)) effects[i] := by
  constructor
  · intro h i
    refine h (effects.take i) effects[i] (effects.drop (i + 1)) ?_
    rw [Fin.getElem_fin, ← List.drop_eq_getElem_cons i.isLt, List.take_append_drop]
  · rintro h before effect after rfl
    have hgives := h ⟨before.length, by simp⟩
    simpa using hgives

instance (kept : UInt8 → FarPtr) (effect : Effect) : Decidable (GivesBack kept effect) :=
  match effect with
  | .int80 _ _ => inferInstanceAs (Decidable (_ → _ → _ = _))
  | .dos _ | .putchar _ | .enter _ | .leave | .play | .stdout _ _ | .logfile _ _ => isTrue trivial

instance (effects : List Effect) : Decidable (KeepsPointers effects) :=
  decidable_of_iff _ keepsPointers_iff.symm

-- The pointers that are noted in the model of the callback are those.
def Synced (layout : Layout) (p : Program) : Prop :=
  ∀ handle, told p.effects handle = (p.world.slot208 handle).far layout

-- The next state, and what has passed on the way to it.
structure Did (layout : Layout) (p : Program) (w : World) (ops : List Op) (p' : Program) : Prop where
  world : p'.world = w
  ops : p'.ops = p.ops ++ ops
  synced : Synced layout p → Synced layout p'

-- A computation that does just this, unless it ends before its time.
abbrev Performs (layout : Layout) (p : Program) (w : World) (ops : List Op) :
    Except Stop Program → Prop :=
  Ends (·.reason ≠ .wildPointer) (Did layout p w ops)

section

variable {layout : Layout} {p p₁ p₂ : Program} {w w₁ w₂ : World} {ops ops₁ ops₂ : List Op}
  {effects later : List Effect}

theorem told_append (effects later : List Effect) :
    told (effects ++ later) = later.foldl keep (told effects) := List.foldl_append

theorem KeepsPointers.of_append (h : KeepsPointers (effects ++ later)) : KeepsPointers effects := by
  rintro before effect after rfl
  exact h before effect (after ++ later) (by rw [List.append_assoc, List.cons_append])

theorem KeepsPointers.of_le (h : KeepsPointers later) (hle : effects <+: later) :
    KeepsPointers effects := by
  obtain ⟨more, rfl⟩ := hle
  exact h.of_append

theorem Did.refl (p : Program) : Did layout p p.world [] p :=
  ⟨rfl, (List.append_nil _).symm, fun h => h⟩

theorem Did.trans (h₁ : Did layout p w₁ ops₁ p₁) (h₂ : Did layout p₁ w₂ ops₂ p₂) :
    Did layout p w₂ (ops₁ ++ ops₂) p₂ := by
  refine ⟨h₂.world, ?_, fun h => h₂.synced (h₁.synced h)⟩
  rw [h₂.ops, h₁.ops, List.append_assoc]

theorem Performs.bind {x : Except Stop Program} {f : Program → Except Stop Program}
    (hx : Performs layout p w₁ ops₁ x)
    (hf : ∀ p₁, Did layout p w₁ ops₁ p₁ → Performs layout p₁ w₂ ops₂ (f p₁)) :
    Performs layout p w₂ (ops₁ ++ ops₂) (x.bind f) := by
  refine Ends.bind hx ?_
  intro p₁ h₁
  exact (hf p₁ h₁).mono fun p₂ h₂ => h₁.trans h₂

theorem Performs.following {x : Except Stop Program} (h : Did layout p w₁ ops₁ p₁)
    (hx : Performs layout p₁ w₂ ops₂ x) : Performs layout p w₂ (ops₁ ++ ops₂) x :=
  hx.mono fun _ h₂ => h.trans h₂

theorem Performs.after {x : Except Stop Program} (h : Did layout p w₁ [] p₁)
    (hx : Performs layout p₁ w₂ ops x) : Performs layout p w₂ ops x :=
  Performs.following h hx

theorem ops_emit (effects : List Effect) (p : Program) :
    (p.emit effects).ops = p.ops ++ effects.filterMap Effect.op :=
  List.filterMap_append ..

-- Effects that tell the driver nothing.
def Effect.IsQuiet (effect : Effect) : Prop := ∀ kept, keep kept effect = kept

theorem foldl_keep_quiet (h : ∀ effect ∈ effects, effect.IsQuiet) (kept : UInt8 → FarPtr) :
    effects.foldl keep kept = kept := by
  induction effects with
  | nil => rfl
  | cons effect effects ih =>
      obtain ⟨hquiet, hrest⟩ := List.forall_mem_cons.mp h
      rw [List.foldl_cons, hquiet kept, ih hrest]

theorem told_emit (h : ∀ effect ∈ effects, effect.IsQuiet) (p : Program) :
    told (p.emit effects).effects = told p.effects :=
  (told_append p.effects effects).trans (foldl_keep_quiet h _)

-- After quiet effects the driver keeps what it has kept, if the callback has noted nothing else.
theorem did_emit (h : ∀ effect ∈ effects, effect.IsQuiet) (hslot : w.slot208 = p.world.slot208) :
    Did layout p w (effects.filterMap Effect.op) ({ p with world := w }.emit effects) := by
  refine ⟨rfl, ops_emit _ _, ?_⟩
  intro hsynced handle
  show told ({ p with world := w }.emit effects).effects handle = (w.slot208 handle).far layout
  rw [told_emit h, hslot]
  exact hsynced handle

theorem lineEffects_told (indent : Nat) (line : Line) (p : Program) :
    (p.lineEffects indent line).filterMap Effect.op = [] ∧
      ∀ effect ∈ p.lineEffects indent line, effect.IsQuiet := by
  unfold Program.lineEffects
  cases p.statics.muted <;> cases p.statics.stdouton <;> cases p.statics.logout <;>
    simp [Effect.op, Effect.IsQuiet, keep]

theorem did_logfi (line : Line) (p : Program) : Did layout p p.world [] (p.logfi line) := by
  obtain ⟨hops, hquiet⟩ := lineEffects_told p.statics.indent line p
  have hdid : Did layout p p.world _ (p.logfi line) := did_emit hquiet rfl
  rw [hops] at hdid
  exact hdid

theorem Did.logfi (h : Did layout p w ops p₁) (line : Line) : Did layout p w ops (p₁.logfi line) := by
  have hlogged := h.trans (did_logfi line p₁)
  rw [List.append_nil, h.world] at hlogged
  exact hlogged

theorem did_counted (p : Program) : Did layout p p.world [] p.counted := by
  have hchars : ∀ chars : List UInt8, ∀ effect ∈ chars.map Effect.putchar, effect.IsQuiet := by
    intro chars effect hmem
    obtain ⟨c, _, rfl⟩ := List.mem_map.mp hmem
    exact fun _ => rfl
  unfold Program.counted Program.printDot
  split
  · split
    · have hdid : Did layout p p.world [] (p.emit ([0x0D, 0x0A, 0x2E].map .putchar)) :=
        did_emit (p := p) (hchars [0x0D, 0x0A, 0x2E]) rfl
      exact ⟨hdid.world, hdid.ops, hdid.synced⟩
    · have hdid : Did layout p p.world [] (p.emit ([0x2E].map .putchar)) :=
        did_emit (p := p) (hchars [0x2E]) rfl
      exact ⟨hdid.world, hdid.ops, hdid.synced⟩
  · exact ⟨rfl, (List.append_nil _).symm, fun h => h⟩

def Call.IsDos (call : Call) : Prop := ∀ layout, call.ops layout = [.dos call]

theorem callsOps_of_isDos {calls : List Call} (h : ∀ call ∈ calls, call.IsDos) :
    callsOps layout calls = calls.map .dos := by
  rw [callsOps, ← List.flatMap_pure_eq_map]
  exact List.flatMap_congr fun call hcall => h call hcall layout

theorem dos_effects (calls : List Call) :
    (calls.map Effect.dos).filterMap Effect.op = calls.map .dos := by
  rw [List.filterMap_map]
  exact List.filterMap_eq_map' ▸ rfl

-- The calls of DOS, after which the program holds this world.
theorem did_dos (layout : Layout) {calls : List Call} (h : ∀ call ∈ calls, call.IsDos) {w : World}
    {p : Program} (hslot : w.slot208 = p.world.slot208) :
    Did layout p w (callsOps layout calls) ({ p with world := w }.emit (calls.map .dos)) := by
  have hquiet : ∀ effect ∈ calls.map Effect.dos, effect.IsQuiet := by
    intro effect hmem
    obtain ⟨call, _, rfl⟩ := List.mem_map.mp hmem
    exact fun _ => rfl
  have hdid : Did layout p w _ ({ p with world := w }.emit (calls.map .dos)) := did_emit hquiet hslot
  rw [dos_effects, ← callsOps_of_isDos h] at hdid
  exact hdid

-- What the program does to its own data passes nobody.
theorem did_world (hslot : w.slot208 = p.world.slot208) :
    Did layout p w [] { p with world := w } := by
  refine ⟨rfl, (List.append_nil _).symm, ?_⟩
  intro hsynced handle
  show told p.effects handle = (w.slot208 handle).far layout
  rw [hslot]
  exact hsynced handle

theorem callRegs_command (command handle : UInt8) (subfunc param1 param2 : UInt16) :
    (callRegs command handle subfunc param1 param2).bx >>> 8 = command.toUInt16 :=
  word_shiftRight command handle

theorem callRegs_handle (command handle : UInt8) (subfunc param1 param2 : UInt16) :
    (callRegs command handle subfunc param1 param2).bx.toUInt8 = handle :=
  word_toUInt8 command handle

theorem toUInt16_inj {a b : UInt8} (h : a.toUInt16 = b.toUInt16) : a = b := by
  rw [← UInt8.toNat_inj, ← UInt8.toNat_toUInt16, ← UInt8.toNat_toUInt16, h]

theorem keep_callRegs (command handle : UInt8) (subfunc param1 param2 : UInt16) (reply : Regs)
    (kept : UInt8 → FarPtr) :
    keep kept (.int80 (callRegs command handle subfunc param1 param2) reply) =
      if command = 0x9 ∧ subfunc = 0x208 then Function.update kept handle ⟨param2, param1⟩
      else kept := by
  have hiff : command.toUInt16 = 0x9 ∧ subfunc = 0x208 ↔ command = 0x9 ∧ subfunc = 0x208 :=
    and_congr_left' ⟨fun h => toUInt16_inj h, fun h => by rw [h]; rfl⟩
  show (if (callRegs command handle subfunc param1 param2).bx >>> 8 = 0x9 ∧ subfunc = 0x208 then
    Function.update kept (callRegs command handle subfunc param1 param2).bx.toUInt8 ⟨param2, param1⟩
      else kept) = _
  rw [callRegs_command, callRegs_handle]
  simp only [hiff]

-- An INT 80h has been made, with lines around it.
structure Called (p : Program) (regs reply : Regs) (p' : Program) : Prop where
  world : p'.world = p.world
  ops : p'.ops = p.ops ++ [.int80 regs]
  told : told p'.effects = keep (told p.effects) (.int80 regs reply)
  givesBack : KeepsPointers p'.effects → GivesBack (Streamer.told p.effects) (.int80 regs reply)

-- An INT 80h made in the callback, where the driver does not call back.
theorem int80_inner (regs : Regs) (p : Program) :
    Ends (·.reason ≠ .wildPointer)
      (fun result => result.2.world = p.world ∧
        result.2.effects = p.effects ++ [.int80 regs result.1])
      (Program.int80 layout 0 regs p) := by
  unfold Program.int80
  cases p.script with
  | nil => exact fun h => Reason.noConfusion h
  | cons answer script =>
      dsimp only
      split
      · exact ⟨rfl, rfl⟩
      · exact fun h => Reason.noConfusion h

theorem called_of_lines {regs reply : Regs} {first last : List Effect} {q : Program}
    (hworld : q.world = p.world)
    (heffects : q.effects = p.effects ++ first ++ [.int80 regs reply] ++ last)
    (hfirst : first.filterMap Effect.op = [] ∧ ∀ effect ∈ first, effect.IsQuiet)
    (hlast : last.filterMap Effect.op = [] ∧ ∀ effect ∈ last, effect.IsQuiet) :
    Called p regs reply q := by
  have hbefore : told (p.effects ++ first) = told p.effects := by
    rw [told_append, foldl_keep_quiet hfirst.2]
  refine ⟨hworld, ?_, ?_, ?_⟩
  · rw [Program.ops, heffects, List.filterMap_append, List.filterMap_append, List.filterMap_append,
      hfirst.1, hlast.1, List.append_nil, List.append_nil]
    rfl
  · rw [heffects, told_append, foldl_keep_quiet hlast.2, told_append, hbefore]
    rfl
  · intro hkeeps
    rw [heffects, List.append_assoc, List.cons_append] at hkeeps
    rw [← hbefore]
    exact hkeeps _ _ _ rfl

-- A call of the driver that is made in the callback.
theorem ends_rmCallFmpdrv_inner (command handle : UInt8) (subfunc param1 param2 : UInt16)
    (p : Program) :
    Ends (·.reason ≠ .wildPointer)
      (fun result => ∃ reply : Regs, result.1 = reply.dx.toUInt32 <<< 16 ||| reply.ax.toUInt32 ∧
        Called p (callRegs command handle subfunc param1 param2) reply result.2)
      (p.rmCallFmpdrv (Program.int80 layout 0) command handle subfunc param1 param2) := by
  unfold Program.rmCallFmpdrv
  split
  · exact fun h => Reason.noConfusion h
  refine Ends.bind (int80_inner _ _) ?_
  rintro ⟨reply, q⟩ ⟨hworld, heffects⟩
  obtain ⟨statics, hdelindent⟩ := q.logfDelindent_eq
  refine ⟨reply, rfl, ?_⟩
  show Called p _ reply (q.logfDelindent.logfi _)
  rw [hdelindent]
  refine called_of_lines hworld ?_ (lineEffects_told p.statics.indent
    (.sdk (.enterCallFmpdrv command handle subfunc param1 param2)) p) (lineEffects_told statics.indent
      (.sdk (.exitCallFmpdrv command handle subfunc param1 param2 reply.dx reply.ax))
      { q with statics := statics })
  show q.effects ++ _ = _
  rw [show q.effects = _ from heffects]
  rfl

theorem performs_rmSet (layout : Layout) (handle : UInt8) {type : UInt16} (htype : type ≠ 0x208)
    (param1 param2 : UInt16) (p : Program) :
    Performs layout p p.world (callsOps layout [.rmSet handle type param1 param2])
      (p.rmSet (Program.int80 layout 0) handle type param1 param2) := by
  refine Ends.bind (ends_rmCallFmpdrv_inner 0x9 handle type param1 param2 p) ?_
  rintro ⟨rv, q⟩ ⟨reply, _, hcalled⟩
  refine ⟨hcalled.world, hcalled.ops, ?_⟩
  intro hsynced
  have htold := hcalled.told
  rw [keep_callRegs, if_neg fun h => htype h.2] at htold
  intro number
  rw [show told q.effects = _ from htold, show q.world = _ from hcalled.world]
  exact hsynced number

-- The driver is told what is noted.
theorem performs_setHd (handle : UInt8) (ptr : HdPtr) (p : Program) :
    Performs layout p (p.world.rmSetPtr handle ptr) (callsOps layout [.rmSetPtr handle 0x208 ptr])
      (p.setHd (Program.int80 layout 0) layout handle ptr) := by
  have hset : Ends (·.reason ≠ .wildPointer) (fun q => ∃ reply : Regs, Called p (callRegs 0x9 handle
      0x208 (ptr.far layout).off (ptr.far layout).seg) reply q)
      (p.rmSetPtr (Program.int80 layout 0) handle 0x208 (ptr.far layout)) := by
    refine Ends.bind (ends_rmCallFmpdrv_inner 0x9 handle 0x208 _ _ p) ?_
    rintro ⟨rv, q⟩ ⟨reply, _, hcalled⟩
    exact ⟨reply, hcalled⟩
  refine Ends.bind hset ?_
  rintro q ⟨reply, hcalled⟩
  have hworld : q.world = p.world := hcalled.world
  refine ⟨by rw [← hworld], hcalled.ops, ?_⟩
  intro hsynced number
  have htold : told q.effects = _ := hcalled.told
  rw [keep_callRegs, if_pos ⟨rfl, rfl⟩] at htold
  show told q.effects number = ((q.world.rmSetPtr handle ptr).slot208 number).far layout
  rw [htold, hworld]
  -- the handle that is set, and the others
  by_cases hnumber : number = handle
  · rw [hnumber, Function.update_self, World.rmSetPtr]
    show _ = (Function.update p.world.slot208 handle ptr handle).far layout
    rw [Function.update_self]
  · rw [Function.update_of_ne hnumber, World.rmSetPtr]
    show told p.effects number = (Function.update p.world.slot208 handle ptr number).far layout
    rw [Function.update_of_ne hnumber]
    exact hsynced number

theorem performs_rmSubmitBuffer (handle : UInt8) (ptr size : Nat) (p : Program) :
    Performs layout p p.world (callsOps layout [.rmSubmitBuffer handle ptr size])
      (p.rmSubmitBuffer (Program.int80 layout 0) handle
        ⟨layout.dataSeg, layout.dmaBuf + UInt16.ofNat ptr⟩ (UInt16.ofNat size)) := by
  have hops : callsOps layout [.rmSubmitBuffer handle ptr size] =
      callsOps layout [.rmSet handle 0x307 layout.dataSeg 0] ++
        (callsOps layout [.rmSet handle 0x303 (layout.dmaBuf + UInt16.ofNat ptr) 0] ++
          callsOps layout [.rmSet handle 0x304 (UInt16.ofNat size) 0]) := rfl
  rw [hops]
  refine Performs.bind (performs_rmSet layout handle (show (0x307 : UInt16) ≠ 0x208 by decide) _ _ p) ?_
  intro p₁ h₁
  rw [← h₁.world]
  refine Performs.bind
    (performs_rmSet layout handle (show (0x303 : UInt16) ≠ 0x208 by decide) _ _ p₁) ?_
  intro p₂ h₂
  rw [← h₂.world]
  exact performs_rmSet layout handle (show (0x304 : UInt16) ≠ 0x208 by decide) _ _ p₂

theorem ends_rmGetPtr (handle : UInt8) (p : Program) :
    Ends (·.reason ≠ .wildPointer)
      (fun result => ∃ reply : Regs, result.1 = ⟨reply.dx, reply.ax⟩ ∧
        Called p (callRegs 0xA handle 0x208 0 0) reply result.2)
      (p.rmGetPtr (Program.int80 layout 0) handle 0x208) := by
  refine Ends.bind (ends_rmCallFmpdrv_inner 0xA handle 0x208 0 0 p) ?_
  rintro ⟨rv, q⟩ ⟨reply, hrv, hcalled⟩
  refine ⟨reply, ?_, hcalled⟩
  have hvalue : rv = reply.dx.toUInt32 <<< 16 ||| reply.ax.toUInt32 := hrv
  show (⟨(rv >>> 16).toUInt16, (rv &&& 0xFFFF).toUInt16⟩ : FarPtr) = _
  rw [hvalue, dword_shiftRight_toUInt16, dword_and_toUInt16]

-- `CHECK_HD` with the pointer the driver keeps for the handle.
theorem checkHd_eq (layout : Layout) (handle : UInt16) (p : Program) {hd : UInt16}
    (hhd : hd = ((p.world.slot208 handle.toUInt8).far layout).off) :
    ∃ good p', p.checkHd layout hd handle = .ok (good, p') ∧
      (good = true ↔ p.world.checkHd handle) ∧ Did layout p p.world [] p' := by
  unfold Program.checkHd World.checkHd
  cases hslot : p.world.slot208 handle.toUInt8 with
  | null =>
      rw [hslot] at hhd
      have hnull : hd = 0 := hhd
      rw [if_pos hnull]
      exact ⟨_, _, rfl, by simp, did_logfi _ p⟩
  | hds0 =>
      rw [hslot] at hhd
      have hhds0 : hd = layout.hds0 := hhd
      have hnull : hd ≠ 0 := by
        rw [hhds0]
        exact layout.hds0_ne_null
      rw [if_neg hnull, if_neg (not_not.mpr hhds0)]
      by_cases hhandle : p.world.hds0.rmHandle.toUInt16 = handle
      · rw [if_neg (not_not.mpr hhandle)]
        by_cases hdos : p.world.hds0.dosFileHandle = -1
        · rw [if_pos hdos]
          exact ⟨_, _, rfl, by simp [hdos], did_logfi _ p⟩
        · rw [if_neg hdos]
          exact ⟨_, _, rfl, by simp [hhandle, hdos], Did.refl p⟩
      · rw [if_pos hhandle]
        exact ⟨_, _, rfl, by simp [hhandle], did_logfi _ p⟩

theorem readIntoBuf_dos {reply : Reply} {ref : BufRef} {w w' : World} {calls : List Call}
    (h : readIntoBuf reply ref w = some (w', calls)) :
    (∀ call ∈ calls, call.IsDos) ∧ w'.slot208 = w.slot208 := by
  unfold readIntoBuf at h
  split at h
  · obtain ⟨rfl, rfl⟩ := Prod.mk.inj (Option.some.inj h)
    exact ⟨fun _ hcall => absurd hcall List.not_mem_nil, rfl⟩
  · cases hptr : (w.hds0.buf ref).ptr with
    | none =>
        rw [hptr] at h
        cases h
    | some ptr =>
        rw [hptr] at h
        obtain ⟨rfl, rfl⟩ := Prod.mk.inj (Option.some.inj h)
        exact ⟨List.forall_mem_singleton.mpr fun _ => rfl, rfl⟩

theorem setDosFileHandlePosition_dos (position : Nat) (w : World) :
    (∀ call ∈ (setDosFileHandlePosition position w).2, call.IsDos) ∧
      (setDosFileHandlePosition position w).1.slot208 = w.slot208 := by
  unfold setDosFileHandlePosition
  split
  · exact ⟨fun _ hcall => absurd hcall List.not_mem_nil, rfl⟩
  · exact ⟨List.forall_mem_singleton.mpr fun _ => rfl, rfl⟩

theorem closeDosFileHandle_dos (fileHandle : Int) (w : World) :
    (∀ call ∈ (closeDosFileHandle fileHandle w).2, call.IsDos) ∧
      (closeDosFileHandle fileHandle w).1.slot208 = w.slot208 := by
  unfold closeDosFileHandle
  split
  · exact ⟨fun _ hcall => absurd hcall List.not_mem_nil, rfl⟩
  · exact ⟨List.forall_mem_singleton.mpr fun _ => rfl, rfl⟩

theorem openDosFileHandle_dos (reply : Reply) (w : World) :
    (∀ call ∈ (openDosFileHandle reply w).2.2, call.IsDos) ∧
      (openDosFileHandle reply w).2.1.slot208 = w.slot208 := by
  unfold openDosFileHandle
  cases reply.opened with
  | none => exact ⟨List.forall_mem_singleton.mpr fun _ => rfl, rfl⟩
  | some opened => exact ⟨List.forall_mem_singleton.mpr fun _ => rfl, rfl⟩

theorem callsOps_append (calls later : List Call) :
    callsOps layout (calls ++ later) = callsOps layout calls ++ callsOps layout later :=
  List.flatMap_append

theorem performs_readIntoBuf {reply : Reply} {ref : BufRef} {calls : List Call}
    (h : readIntoBuf reply ref p.world = some (w, calls)) :
    Performs layout p w (callsOps layout calls) (p.readIntoBuf reply ref) := by
  obtain ⟨hcalls, hslot⟩ := readIntoBuf_dos h
  rw [Program.readIntoBuf, h]
  exact ((did_dos layout hcalls hslot).logfi _).logfi _

theorem performs_fillBuffers {reply : Reply} {calls : List Call}
    (h : fillBuffers reply p.world = some (w, calls)) :
    Performs layout p w (callsOps layout calls) (p.fillBuffers reply) := by
  unfold fillBuffers at h
  unfold Program.fillBuffers
  cases hcurrent : p.world.hds0.currentBuf with
  | none =>
      rw [hcurrent] at h
      cases h
  | some current =>
      simp only [hcurrent, Option.bind_eq_bind, Option.bind_some, Option.pure_def] at h
      dsimp only
      split
      · rename_i hempty
        rw [if_pos hempty] at h
        exact Performs.after (did_logfi _ p) (performs_readIntoBuf h)
      · rename_i hfilled
        rw [if_neg hfilled] at h
        cases hnext : p.world.hds0.nextBuf with
        | none =>
            rw [hnext] at h
            cases h
        | some next =>
            simp only [hnext, Option.bind_some] at h
            dsimp only
            split
            · rename_i hempty
              rw [if_pos hempty] at h
              exact Performs.after (did_logfi _ p) (performs_readIntoBuf h)
            · rename_i hboth
              rw [if_neg hboth] at h
              obtain ⟨rfl, rfl⟩ := Prod.mk.inj (Option.some.inj h)
              exact Did.refl p

theorem performs_selectBuffer {position : Nat} {reply : Reply} {calls : List Call}
    (h : selectBuffer position reply p.world = some (w, calls)) :
    Performs layout p w (callsOps layout calls) (p.selectBuffer position reply) := by
  unfold selectBuffer at h
  unfold Program.selectBuffer
  cases hcurrent : p.world.hds0.currentBuf with
  | none =>
      rw [hcurrent] at h
      cases h
  | some current =>
      simp only [hcurrent, Option.bind_eq_bind, Option.bind_some, Option.pure_def] at h
      dsimp only
      split
      · rename_i hother
        rw [if_pos hother] at h
        cases hnext : (p.world.dispose current).hds0.nextBuf with
        | none =>
            rw [hnext] at h
            cases h
        | some next =>
            simp only [hnext, Option.bind_some] at h
            dsimp only
            split
            · rename_i hmatch
              rw [if_pos hmatch] at h
              obtain ⟨rfl, rfl⟩ := Prod.mk.inj (Option.some.inj h)
              exact did_world rfl
            · rename_i hreset
              rw [if_neg hreset] at h
              obtain ⟨⟨w', readCalls⟩, hread, hret⟩ := Option.bind_eq_some_iff.mp h
              obtain ⟨rfl, rfl⟩ := Prod.mk.inj (Option.some.inj hret)
              rw [callsOps_append]
              have hdisposed : Did layout p ((p.world.dispose current).dispose next) []
                  { p with world := (p.world.dispose current).dispose next } := did_world rfl
              obtain ⟨hcalls, hslot⟩ := setDosFileHandlePosition_dos position
                ((p.world.dispose current).dispose next)
              have hsought := hdisposed.trans (did_dos layout hcalls hslot)
              exact Performs.following hsought (performs_readIntoBuf hread)
      · rename_i hsame
        rw [if_neg hsame] at h
        obtain ⟨rfl, rfl⟩ := Prod.mk.inj (Option.some.inj h)
        exact Did.refl p

theorem performs_submitCurrent {handle : UInt16} {calls : List Call}
    (h : submitCurrent handle p.world = some calls) :
    Performs layout p p.world (callsOps layout calls)
      (p.submitCurrent (Program.int80 layout 0) layout handle) := by
  unfold submitCurrent at h
  unfold Program.submitCurrent
  cases hcurrent : p.world.hds0.currentBuf with
  | none =>
      rw [hcurrent] at h
      cases h
  | some current =>
      simp only [hcurrent, Option.bind_eq_bind, Option.bind_some, Option.pure_def] at h
      dsimp only
      split
      · rename_i hfilled
        rw [if_pos hfilled] at h
        cases hptr : (p.world.hds0.buf current).ptr with
        | none =>
            rw [hptr] at h
            cases h
        | some ptr =>
            simp only [hptr, Option.bind_some, Option.some.injEq] at h
            rw [← h]
            exact performs_rmSubmitBuffer handle.toUInt8 ptr _ p
      · rename_i hempty
        rw [if_neg hempty] at h
        obtain rfl := Option.some.inj h
        exact Did.refl p

theorem performs_reportBuffer {request : Request} {calls : List Call}
    (h : reportBuffer request.args.arg1 request.args.arg2 request.args.arg3 request.dos p.world =
      some (w, calls)) :
    Performs layout p w (callsOps layout calls)
      (p.reportBuffer (Program.int80 layout 0) layout request) := by
  unfold reportBuffer at h
  obtain ⟨⟨w₁, selectCalls⟩, hselect, h⟩ := Option.bind_eq_some_iff.mp h
  obtain ⟨submitCalls, hsubmit, h⟩ := Option.bind_eq_some_iff.mp h
  obtain ⟨rfl, rfl⟩ := Prod.mk.inj (Option.some.inj h)
  rw [callsOps_append]
  refine Performs.bind (performs_selectBuffer hselect) ?_
  intro p₁ h₁
  have hworld : p₁.world = w₁ := h₁.world
  rw [← hworld] at hsubmit ⊢
  exact performs_submitCurrent hsubmit

theorem performs_closeHandle (layout : Layout) (handle : UInt16) (p : Program) :
    Performs layout p (closeHandle handle p.world).1 (callsOps layout (closeHandle handle p.world).2)
      (p.closeHandle (Program.int80 layout 0) layout handle) := by
  obtain ⟨hcalls, hslot⟩ := closeDosFileHandle_dos p.world.hds0.dosFileHandle p.world
  have hclosed : Did layout p _ _ (p.dos (closeDosFileHandle p.world.hds0.dosFileHandle)) :=
    did_dos layout hcalls hslot
  have hcleared := hclosed.trans (did_world (w :=
    { (closeDosFileHandle p.world.hds0.dosFileHandle p.world).1 with
      hds0 := { MyHandleData.zeroed with dosFileHandle := -1 } }) rfl)
  rw [List.append_nil] at hcleared
  rw [closeHandle]
  dsimp only
  rw [callsOps_append]
  exact Performs.following hcleared (performs_setHd handle.toUInt8 .null _)

theorem performs_openHandle (layout : Layout) (request : Request) (p : Program) :
    Performs layout p (openHandle request.args.arg1 request.dos p.world).1
      (callsOps layout (openHandle request.args.arg1 request.dos p.world).2)
      (p.openHandle (Program.int80 layout 0) layout request) := by
  have hlogged : Did layout p p.world [] (p.logfi .openingHandle) := did_logfi .openingHandle p
  have hdos := openDosFileHandle_dos request.dos p.world
  unfold openHandle Program.openHandle
  split
  · rename_i hother
    rw [if_pos hother]
    exact hlogged.logfi .handleNotOne
  · rename_i hone
    rw [if_neg hone]
    rw [show (p.logfi .openingHandle).world = p.world from hlogged.world]
    generalize openDosFileHandle request.dos p.world = opened at hdos
    obtain ⟨dosFileHandle, w, calls⟩ := opened
    dsimp only at hdos ⊢
    have hopened := hlogged.trans (did_dos (w := { w with
      hds0 := .opened request.args.arg1 dosFileHandle }) layout hdos.1 hdos.2)
    rw [List.nil_append] at hopened
    split
    · exact hopened.logfi .openFileFailed
    · rw [callsOps_append]
      refine Performs.following hopened ?_
      refine Performs.bind (performs_setHd request.args.arg1.toUInt8 .hds0 _) ?_
      intro p₁ h₁
      have hset := performs_rmSet layout request.args.arg1.toUInt8
        (show (0x302 : UInt16) ≠ 0x208 by decide) 1 0 p₁
      rw [h₁.world] at hset
      exact hset

-- Past `CHECK_HD` the callback does what it does with a handle that is good, and nothing else
-- where it is not.
theorem performs_checked {line : Line} {handle hd : UInt16}
    {body : Program → Except Stop Program} {calls : List Call}
    (hhd : hd = ((p.world.slot208 handle.toUInt8).far layout).off)
    (hgood : p.world.checkHd handle → ∀ q : Program, q.world = p.world →
      Performs layout q w (callsOps layout calls) (body q))
    (hbad : ¬p.world.checkHd handle → w = p.world ∧ calls = []) :
    Performs layout p w (callsOps layout calls) ((p.logfi line).checked layout hd handle body) := by
  have hlogged : Did layout p p.world [] (p.logfi line) := did_logfi line p
  obtain ⟨good, q, hcheck, hiff, hdid⟩ := checkHd_eq layout handle (p.logfi line) hhd
  have hready := hlogged.trans hdid
  rw [Program.checked, hcheck]
  cases good with
  | true => exact Performs.after hready (hgood (hiff.mp rfl) q hready.world)
  | false =>
      obtain ⟨rfl, rfl⟩ := hbad fun h => absurd (hiff.mpr h) (by decide)
      exact hready

-- What a callback does for its command, once it has the pointer.
theorem performs_runCommand (request : Request) {hd : UInt16} {calls : List Call}
    (hhd : hd = ((p.world.slot208 request.args.arg1.toUInt8).far layout).off)
    (h : myCallback request.args.arg0 request.args.arg1 request.args.arg2 request.args.arg3
      request.dos p.world = some (w, calls)) :
    Performs layout p w (callsOps layout calls)
      (p.runCommand (Program.int80 layout 0) layout request hd) := by
  unfold myCallback at h
  generalize hcommand : request.args.arg0.toNat = command at h
  split at h
  all_goals
    unfold Program.runCommand
    rw [hcommand]
    dsimp only
  · have hopened := Option.some.inj h
    have hperforms := performs_openHandle layout request p
    rw [hopened] at hperforms
    exact hperforms
  · obtain ⟨rfl, rfl⟩ := Prod.mk.inj (Option.some.inj h)
    refine performs_checked hhd ?_ ?_
    · intro _ q hq
      rw [← hq]
      exact Did.refl q
    · exact fun _ => ⟨rfl, rfl⟩
  · refine performs_checked hhd ?_ ?_
    · intro hgood q hq
      rw [if_pos hgood, ← hq] at h
      exact performs_fillBuffers h
    · intro hbad
      rw [if_neg hbad] at h
      obtain ⟨rfl, rfl⟩ := Prod.mk.inj (Option.some.inj h)
      exact ⟨rfl, rfl⟩
  · refine performs_checked hhd ?_ ?_
    · intro hgood q hq
      rw [if_pos hgood, ← hq] at h
      exact performs_reportBuffer h
    · intro hbad
      rw [if_neg hbad] at h
      obtain ⟨rfl, rfl⟩ := Prod.mk.inj (Option.some.inj h)
      exact ⟨rfl, rfl⟩
  · refine performs_checked hhd ?_ ?_
    · intro hgood q hq
      rw [if_pos hgood, ← hq] at h
      have hclosed := Option.some.inj h
      have hperforms := performs_closeHandle layout request.args.arg1 q
      rw [hclosed] at hperforms
      exact hperforms
    · intro hbad
      rw [if_neg hbad] at h
      obtain ⟨rfl, rfl⟩ := Prod.mk.inj (Option.some.inj h)
      exact ⟨rfl, rfl⟩
  · rename_i h4 h3 h1 h2 h5
    obtain ⟨rfl, rfl⟩ := Prod.mk.inj (Option.some.inj h)
    split
    · exact absurd rfl h4
    · exact absurd rfl h3
    · exact absurd rfl h1
    · exact absurd rfl h2
    · exact absurd rfl h5
    · exact Did.refl p

end

end ReelMagic.Streamer
