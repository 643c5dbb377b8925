import ReelMagic.Player
import ReelMagic.Rmsdk.Dialogue

namespace ReelMagic.Player

open Library
open ReelMagic.Recorder (Regs)
open ReelMagic.Rmsdk (Interrupt Sdk Stop asker)

def Effect.interrupt : Effect → Option Interrupt
  | .call regs reply => some ⟨0x80, regs, reply⟩
  | .multiplex regs reply => some ⟨0x2F, regs, reply⟩
  | _ => none

def Program.interrupts (p : Program) : List Interrupt := p.effects.filterMap Effect.interrupt

structure Program.Asks (kept : Prop) (p : Program) (talk : List Interrupt) (q : Program) : Prop where
  replies : p.sdk.replies = talk.map Interrupt.reply ++ q.sdk.replies
  interrupts : q.interrupts = p.interrupts ++ talk
  fmpdrvInt : kept → q.sdk.fmpdrvInt = p.sdk.fmpdrvInt

section

variable {α β : Type} {kept : Prop} {p q r : Program}

theorem Program.Asks.refl (kept : Prop) (p : Program) : p.Asks kept [] p :=
  ⟨rfl, (List.append_nil _).symm, fun _ => rfl⟩

theorem Program.Asks.trans {first later : List Interrupt} (h : p.Asks kept first q)
    (h' : q.Asks kept later r) : p.Asks kept (first ++ later) r where
  replies := by rw [h.replies, h'.replies, List.map_append, List.append_assoc]
  interrupts := by rw [h'.interrupts, h.interrupts, List.append_assoc]
  fmpdrvInt := fun hkept => (h'.fmpdrvInt hkept).trans (h.fmpdrvInt hkept)

def programAsker (kept : Prop) : Asker Program Interrupt Regs where
  pending := fun p => p.sdk.replies
  reply := Interrupt.reply
  Along := Program.Asks kept
  refl := Program.Asks.refl kept
  trans := Program.Asks.trans
  pending_eq := Program.Asks.replies

theorem interrupts_emit (effects : List Effect) (p : Program) :
    (p.emit effects).interrupts = p.interrupts ++ effects.filterMap Effect.interrupt :=
  List.filterMap_append ..

theorem interrupt_ofSdk (effects : List Rmsdk.Effect) :
    (effects.map Effect.ofSdk).filterMap Effect.interrupt =
      effects.filterMap Rmsdk.Effect.interrupt := by
  rw [List.filterMap_map]
  congr 1
  funext effect
  cases effect <;> rfl

-- A function of the library has no effects yet when it begins, and its effects come after the
-- program's when it returns.
theorem asks_returned {talk : List Interrupt} {s : Sdk}
    (h : { p.sdk with effects := [] }.Asks kept talk s) :
    p.Asks kept talk ⟨s, p.effects ++ s.effects.map Effect.ofSdk⟩ where
  replies := h.replies
  interrupts := by
    show (p.effects ++ s.effects.map Effect.ofSdk).filterMap Effect.interrupt = _
    rw [List.filterMap_append, interrupt_ofSdk]
    exact congrArg (p.interrupts ++ ·) h.interrupts
  fmpdrvInt := h.fmpdrvInt

theorem conducts_ask {function : Sdk → Except Stop (β × Sdk)} {value : α → β}
    {talks : List Interrupt → α → Prop}
    (h : ∀ s : Sdk, s.fmpdrvInt = p.sdk.fmpdrvInt →
      Conducts (asker kept) s (fun a s' => (value a, s')) talks (function s)) :
    Conducts (programAsker kept) p (fun a q => (value a, q)) talks (p.ask function) :=
  (h { p.sdk with effects := [] } rfl).lift
    (fun _ s => ⟨s, p.effects ++ s.effects.map Effect.ofSdk⟩) rfl rfl
    (fun _ _ _ halong => asks_returned halong) fun _ _ => rfl

theorem conducts_perform {function : Sdk → Except Stop Sdk} {talks : List Interrupt → α → Prop}
    (h : ∀ s : Sdk, s.fmpdrvInt = p.sdk.fmpdrvInt →
      Conducts (asker kept) s (fun _ s' => s') talks (function s)) :
    Conducts (programAsker kept) p (fun _ q => q) talks (p.perform function) :=
  (h { p.sdk with effects := [] } rfl).lift
    (fun _ s => ⟨s, p.effects ++ s.effects.map Effect.ofSdk⟩) rfl rfl
    (fun _ _ _ halong => asks_returned halong) fun _ _ => rfl

theorem asks_logAt (kept : Prop) (indent : Nat) (line : Line) (p : Program) :
    p.Asks kept [] (p.logAt indent line) := by
  unfold Program.logAt
  split
  · exact Program.Asks.refl kept p
  refine ⟨rfl, ?_, fun _ => rfl⟩
  rw [interrupts_emit]
  congr 1
  cases p.sdk.stdouton <;> cases p.sdk.logout <;> rfl

theorem asks_logfCloselogfile (kept : Prop) (p : Program) : p.Asks kept [] p.logfCloselogfile := by
  unfold Program.logfCloselogfile
  split
  · exact ⟨rfl, interrupts_emit _ _, fun _ => rfl⟩
  · exact Program.Asks.refl kept p

theorem asks_logfAbort (kept : Prop) (line : Line) (p : Program) :
    p.Asks kept [] (p.logfAbort line).2 :=
  ((asks_logAt kept _ line p).trans (asks_logAt kept _ .aborting _)).trans
    (asks_logfCloselogfile kept _)

end

end ReelMagic.Player
