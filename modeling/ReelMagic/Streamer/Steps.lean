import ReelMagic.Library.Nesting
import ReelMagic.Streamer.Program

namespace ReelMagic.Streamer

open Library
open ReelMagic.Recorder (CallArgs FarPtr Regs)

def callRegs (command handle : UInt8) (subfunc param1 param2 : UInt16) : Regs :=
  ⟨param1, command.toUInt16 <<< 8 ||| handle.toUInt16, subfunc, param2⟩

-- What the log shows the beginning and the end of.
inductive LogBracket where
  | call (command handle : UInt8) (subfunc param1 param2 : UInt16)
  | callback (args : CallArgs)
deriving DecidableEq

-- Between the lines of a call of the driver the log is indented.
def LogBracket.weight : LogBracket → Nat
  | .call _ _ _ _ _ => 1
  | .callback _ => 0

def Line.label : Line → Label LogBracket
  | .sdk (.enterCallFmpdrv command handle subfunc param1 param2) =>
      .opening (.call command handle subfunc param1 param2)
  | .sdk (.exitCallFmpdrv command handle subfunc param1 param2 _ _) =>
      .closing (.call command handle subfunc param1 param2)
  | .enterMyCallback args => .opening (.callback args)
  | .exitMyCallback args => .closing (.callback args)
  | _ => .other

-- A call of the driver that leaves the pointer under type 0x208 to the callback.
structure MainCall where
  command : UInt8
  handle : UInt8
  subfunc : UInt16
  param1 : UInt16
  param2 : UInt16
  leavesPointer : ¬(command = 0x9 ∧ subfunc = 0x208)

-- A file is opened, and played.
def sampleOpen : MainCall := ⟨1, 0, 0x0002, 0x0010, 0x1000, by decide⟩

def samplePlay : MainCall := ⟨3, 1, 1, 0, 0, by decide⟩

-- What the program does outside of the callback: it calls the driver, logs a line with its
-- indentation or without, registers a callback, mutes the log or lets it speak again, closes it, and
-- notes that the stream plays.
inductive MainStep where
  | call (made : MainCall)
  | log (line : Line) (plain : line.label = .other)
  | print (line : Line) (plain : line.label = .other)
  | register (cbfunc : UInt16)
  | mute (val : Bool)
  | close
  | play

def MainStep.run (layout : Layout) (depth : Nat) (p : Program) : MainStep → Except Stop Program
  | .call made => do
      let (_, p) ← p.rmCallFmpdrv (Program.int80 layout depth) made.command made.handle made.subfunc
        made.param1 made.param2
      return p
  | .log line _ => .ok (p.logfi line)
  | .print line _ => .ok (p.logf line)
  | .register cbfunc => .ok { p with statics := { p.statics with driverCbFunc := cbfunc } }
  | .mute val => .ok (p.logfSetmute val)
  | .close => .ok p.logfCloselogfile
  | .play => .ok p.setPlaying

def Program.start (statics : Statics) (script : List Answer) : Program :=
  ⟨statics, 0, 0, .start, script, []⟩

theorem Program.logfDelindent_eq (p : Program) :
    ∃ statics, p.logfDelindent = { p with statics := statics } := by
  unfold Program.logfDelindent
  split
  · exact ⟨_, rfl⟩
  · exact ⟨p.statics, rfl⟩

-- A relation between an earlier and a later state that everything in the callback keeps, given
-- that the calls of the driver do, and one to where it is stopped.
structure Respected (int80 : Regs → Program → Except Stop (Regs × Program))
    (R : Program → Program → Prop) (S : Program → Stop → Prop) : Prop where
  refl : ∀ p, R p p
  trans : ∀ {p q r}, R p q → R q r → R p r
  after : ∀ {p q stop}, R p q → S q stop → S p stop
  wild : ∀ p, S p ⟨.wildPointer, p⟩
  logfi : ∀ line p, line.label = .other → R p (p.logfi line)
  world : ∀ w p, R p { p with world := w }
  dos : ∀ (calls : List Call) p, R p (p.emit (calls.map .dos))
  call : ∀ command handle subfunc param1 param2 p, Ends (S p)
    (fun result => R p result.2) (p.rmCallFmpdrv int80 command handle subfunc param1 param2)
  entered : ∀ args {p stop}, S (p.logfi (.enterMyCallback args)) stop → S p stop
  callback : ∀ args {p q}, R (p.logfi (.enterMyCallback args)) q → R p (q.logfi (.exitMyCallback args))

abbrev Follows (R : Program → Program → Prop) (S : Program → Stop → Prop) (p : Program) :
    Except Stop Program → Prop :=
  Ends (S p) (R p)

namespace Respected

section

variable {int80 : Regs → Program → Except Stop (Regs × Program)} {R : Program → Program → Prop}
  {S : Program → Stop → Prop} (h : Respected int80 R S) {p q : Program} {x : Except Stop Program}
include h

theorem following (hpq : R p q) (hx : Follows R S q x) : Follows R S p x :=
  Ends.imp hx (fun _ hstop => h.after hpq hstop) fun _ hr => h.trans hpq hr

theorem bind {f : Program → Except Stop Program} (hx : Follows R S p x)
    (hf : ∀ q, R p q → Follows R S q (f q)) : Follows R S p (x.bind f) := by
  refine Ends.bind hx ?_
  intro q hpq
  exact h.following hpq (hf q hpq)

theorem logged (hpq : R p q) (line : Line) (hline : line.label = .other) : R p (q.logfi line) :=
  h.trans hpq (h.logfi line q hline)

theorem rmSet (handle : UInt8) (type param1 param2 : UInt16) (p : Program) :
    Follows R S p (p.rmSet int80 handle type param1 param2) :=
  Ends.bind (h.call 0x9 handle type param1 param2 p) fun _ hr => hr

theorem rmGetPtr (handle : UInt8) (type : UInt16) (p : Program) :
    Ends (S p) (fun result => R p result.2) (p.rmGetPtr int80 handle type) :=
  Ends.bind (h.call 0xA handle type 0 0 p) fun _ hr => hr

theorem setHd (layout : Layout) (handle : UInt8) (ptr : HdPtr) (p : Program) :
    Follows R S p (p.setHd int80 layout handle ptr) := by
  have hset : Follows R S p (p.rmSetPtr int80 handle 0x208 (ptr.far layout)) :=
    Ends.bind (h.call 0x9 handle 0x208 _ _ p) fun _ hr => hr
  refine Ends.bind hset ?_
  intro q hpq
  exact h.trans hpq (h.world _ q)

theorem rmSubmitBuffer (handle : UInt8) (buf : FarPtr) (size : UInt16) (p : Program) :
    Follows R S p (p.rmSubmitBuffer int80 handle buf size) := by
  refine h.bind (h.rmSet handle 0x307 buf.seg 0 p) ?_
  intro p₁ _
  refine h.bind (h.rmSet handle 0x303 buf.off 0 p₁) ?_
  intro p₂ _
  exact h.rmSet handle 0x304 size 0 p₂

theorem dosStep (step : World → World × List Call) (p : Program) : R p (p.dos step) :=
  h.trans (h.world _ p) (h.dos _ _)

theorem readIntoBuf (reply : Reply) (ref : BufRef) (p : Program) :
    Follows R S p (p.readIntoBuf reply ref) := by
  unfold Program.readIntoBuf
  split
  · exact h.wild p
  · rename_i w calls _
    have hread := h.trans (h.world w p) (h.dos calls _)
    exact h.logged (h.logged hread _ rfl) _ rfl

theorem fillBuffers (reply : Reply) (p : Program) : Follows R S p (p.fillBuffers reply) := by
  unfold Program.fillBuffers
  split
  · exact h.wild p
  · split
    · exact h.following (h.logfi .currentBufferEmpty p rfl) (h.readIntoBuf reply _ _)
    · split
      · exact h.wild p
      · split
        · exact h.following (h.logfi .nextBufferEmpty p rfl) (h.readIntoBuf reply _ _)
        · exact h.refl p

theorem selectBuffer (position : Nat) (reply : Reply) (p : Program) :
    Follows R S p (p.selectBuffer position reply) := by
  unfold Program.selectBuffer
  split
  · exact h.wild p
  rename_i current _
  split
  · dsimp only
    split
    · exact h.after (h.world _ p) (h.wild _)
    rename_i next _
    split
    · exact h.world _ p
    · have hreset := h.trans (h.world ((p.world.dispose current).dispose next) p)
        (h.dosStep (setDosFileHandlePosition position) _)
      exact h.following hreset (h.readIntoBuf reply current _)
  · exact h.refl p

theorem submitCurrent (layout : Layout) (handle : UInt16) (p : Program) :
    Follows R S p (p.submitCurrent int80 layout handle) := by
  unfold Program.submitCurrent
  split
  · exact h.wild p
  · split
    · split
      · exact h.wild p
      · exact h.rmSubmitBuffer _ _ _ p
    · exact h.refl p

theorem reportBuffer (layout : Layout) (request : Request) (p : Program) :
    Follows R S p (p.reportBuffer int80 layout request) := by
  refine h.bind (h.selectBuffer _ request.dos p) ?_
  intro q _
  exact h.submitCurrent layout request.args.arg1 q

theorem closeHandle (layout : Layout) (handle : UInt16) (p : Program) :
    Follows R S p (p.closeHandle int80 layout handle) := by
  have hclosed := h.trans (h.dosStep (closeDosFileHandle p.world.hds0.dosFileHandle) p)
    (h.world { (p.dos (closeDosFileHandle p.world.hds0.dosFileHandle)).world with
      hds0 := { MyHandleData.zeroed with dosFileHandle := -1 } } _)
  exact h.following hclosed (h.setHd layout _ _ _)

theorem openHandle (layout : Layout) (request : Request) (p : Program) :
    Follows R S p (p.openHandle int80 layout request) := by
  have hlogged := h.logfi .openingHandle p rfl
  unfold Program.openHandle
  dsimp only
  split
  · exact h.logged hlogged .handleNotOne rfl
  · generalize openDosFileHandle request.dos (p.logfi .openingHandle).world = opened
    obtain ⟨dosFileHandle, w, calls⟩ := opened
    have hopened := h.trans (h.trans hlogged (h.world
      { w with hds0 := .opened request.args.arg1 dosFileHandle } _)) (h.dos calls _)
    split
    · exact h.logged hopened .openFileFailed rfl
    · refine h.following hopened (h.bind (h.setHd layout _ _ _) ?_)
      intro q _
      exact h.rmSet _ _ _ _ q

theorem checkHd (layout : Layout) (hd handle : UInt16) (p : Program) :
    Ends (S p) (fun result => R p result.2) (p.checkHd layout hd handle) := by
  unfold Program.checkHd
  split_ifs
  · exact h.logfi .nullHd p rfl
  · exact h.wild p
  · exact h.logfi .handleMismatch p rfl
  · exact h.logfi .noDosFileHandle p rfl
  · exact h.refl p

theorem checked {line : Line} (hline : line.label = .other) (layout : Layout)
    (hd handle : UInt16) (body : Program → Except Stop Program)
    (hbody : ∀ q, Follows R S q (body q)) (p : Program) :
    Follows R S p ((p.logfi line).checked layout hd handle body) := by
  have hlogged := h.logfi line p hline
  refine h.following hlogged (Ends.bind (h.checkHd layout hd handle _) ?_)
  rintro ⟨good, q⟩ hq
  cases good with
  | true => exact h.following hq (hbody q)
  | false => exact hq

theorem runCommand (layout : Layout) (request : Request) (hd : UInt16) (p : Program) :
    Follows R S p (p.runCommand int80 layout request hd) := by
  unfold Program.runCommand
  dsimp only
  split
  · exact h.openHandle layout request p
  · exact h.checked rfl layout hd _ .ok (fun q => h.refl q) p
  · exact h.checked rfl layout hd _ _ (fun q => h.fillBuffers request.dos q) p
  · exact h.checked rfl layout hd _ _ (fun q => h.reportBuffer layout request q) p
  · exact h.checked rfl layout hd _ _ (fun q => h.closeHandle layout request.args.arg1 q) p
  · exact h.refl p

-- The callback, after it has been counted.
theorem myCallback (layout : Layout) (request : Request) (p : Program) :
    Follows R S p.counted (p.myCallback int80 layout request) := by
  have hlogged := h.logfi (.callbackCount p.counted.callbackCount) p.counted rfl
  refine h.following hlogged ?_
  refine Ends.bind (Ends.imp (h.rmGetPtr request.args.arg1.toUInt8 0x208 _)
    (fun _ hstop => h.entered request.args hstop) fun _ hr => hr) ?_
  rintro ⟨ptr, q⟩ hq
  refine Ends.bind (Ends.imp (h.runCommand layout request ptr.off q)
    (fun _ hstop => h.entered request.args (h.after hq hstop)) fun _ hr => hr) ?_
  intro r hr
  exact h.callback request.args (h.trans hq hr)

end

end Respected

-- What comes of an INT 80h: an answer is taken off the script, and after the callbacks in it the
-- INT 80h is listed.
def Returned (R : Program → Program → Prop) (p : Program) (regs : Regs) (result : Regs × Program) :
    Prop :=
  ∃ answer script q, p.script = answer :: script ∧ R { p with script } q ∧
    result = (answer.regs, q.emit [.int80 regs answer.regs])

-- Relations that callbacks up to a depth keep: `R` and `S` hold around whole callbacks, `I` and `T`
-- inside of one, whose calls of the driver may come with callbacks again.
structure Nested (layout : Layout) (R : Nat → Program → Program → Prop)
    (S : Nat → Program → Stop → Prop) (I : Nat → Program → Program → Prop)
    (T : Nat → Program → Stop → Prop) : Prop where
  refl : ∀ depth p, R depth p p
  trans : ∀ {depth p q r}, R depth p q → R depth q r → R depth p r
  after : ∀ {depth p q stop}, R depth p q → S depth q stop → S depth p stop
  unanswered : ∀ depth p, p.script = [] → S depth p ⟨.noReply, p⟩
  refused : ∀ depth {reason} p, reason = .notRegistered ∨ reason = .reentered → S depth p ⟨reason, p⟩
  script : ∀ depth {p : Program} {answer script}, p.script = answer :: script →
    R depth p { p with script }
  respected : ∀ depth, (∀ regs p, Ends (S depth p) (Returned (R depth) p regs)
    (Program.int80 layout depth regs p)) → Respected (Program.int80 layout depth) (I depth) (T depth)
  served : ∀ {depth p q} request, I depth (p.emit [.enter request]).counted q →
    R (depth + 1) p (q.emit [.leave])
  broken : ∀ {depth p stop} request, T depth (p.emit [.enter request]).counted stop →
    S (depth + 1) p stop

section

variable {layout : Layout} {R I : Nat → Program → Program → Prop} {S T : Nat → Program → Stop → Prop}
  (h : Nested layout R S I T)
include h

theorem Nested.serve_of_int80 {depth : Nat} (hint80 : ∀ regs p, Ends (S depth p)
    (Returned (R depth) p regs) (Program.int80 layout depth regs p)) (request : Request) (p : Program) :
    Follows (R (depth + 1)) (S (depth + 1)) p
      (p.serve (Program.int80 layout depth) layout request) := by
  unfold Program.serve
  split
  · exact h.refused (depth + 1) p (.inl rfl)
  have hcalled := (h.respected depth hint80).myCallback layout request (p.emit [.enter request])
  refine Ends.bind (Ends.imp hcalled (fun _ hstop => h.broken request hstop) fun _ hq => hq) ?_
  intro q hq
  exact h.served request hq

theorem Nested.int80 (depth : Nat) (regs : Regs) (p : Program) :
    Ends (S depth p) (Returned (R depth) p regs) (Program.int80 layout depth regs p) := by
  induction depth generalizing regs p with
  | zero =>
      unfold Program.int80
      split
      · rename_i hscript
        exact h.unanswered 0 p hscript
      rename_i answer script hscript
      dsimp only
      split
      · exact ⟨answer, script, { p with script }, hscript, h.refl 0 _, rfl⟩
      · exact h.after (h.script 0 hscript) (h.refused 0 { p with script } (.inr rfl))
  | succ depth ih =>
      unfold Program.int80
      split
      · rename_i hscript
        exact h.unanswered (depth + 1) p hscript
      rename_i answer script hscript
      have hserved : Follows (R (depth + 1)) (S (depth + 1)) { p with script }
          (answer.requests.foldlM (Program.serve (Program.int80 layout depth) layout)
            { p with script }) := by
        refine Ends.foldlM ?_ _ (h.refl _ _) answer.requests
        intro q request hq
        exact Ends.imp (h.serve_of_int80 ih request q) (fun _ hstop => h.after hq hstop) fun _ hr =>
          h.trans hq hr
      have hstopped := h.script (depth + 1) hscript
      refine Ends.bind (Ends.imp hserved (fun _ hstop => h.after hstopped hstop) fun _ hr => hr) ?_
      intro q hq
      exact ⟨answer, script, q, hscript, hq, rfl⟩

theorem Nested.serve (depth : Nat) (request : Request) (p : Program) :
    Follows (R (depth + 1)) (S (depth + 1)) p
      (p.serve (Program.int80 layout depth) layout request) :=
  h.serve_of_int80 (h.int80 depth) request p

end

end ReelMagic.Streamer
