import ReelMagic.Library.Dialogue
import ReelMagic.Rmsdk.Init
import ReelMagic.Rmsdk.Waitplay

namespace ReelMagic.Rmsdk

open Library Library.Registers
open ReelMagic.Recorder (FarPtr Regs)

-- An interrupt that has returned.
structure Interrupt where
  vector : UInt8
  regs : Regs
  reply : Regs
deriving DecidableEq

def Effect.interrupt : Effect → Option Interrupt
  | .call regs reply => some ⟨0x80, regs, reply⟩
  | .multiplex regs reply => some ⟨0x2F, regs, reply⟩
  | _ => none

def Sdk.interrupts (s : Sdk) : List Interrupt := s.effects.filterMap Effect.interrupt

-- Interrupts are made and the replies to them used up. Whether the vector of the driver is kept
-- is told apart, since `rm_init` sets it.
structure Sdk.Asks (kept : Prop) (s : Sdk) (talk : List Interrupt) (s' : Sdk) : Prop where
  replies : s.replies = talk.map Interrupt.reply ++ s'.replies
  interrupts : s'.interrupts = s.interrupts ++ talk
  fmpdrvInt : kept → s'.fmpdrvInt = s.fmpdrvInt

def driverCall (command handle : UInt8) (subfunc param1 param2 : UInt16) (reply : Regs) :
    Interrupt :=
  ⟨0x80, ⟨param1, command.toUInt16 <<< 8 ||| handle.toUInt16, subfunc, param2⟩, reply⟩

def rmdevCall (function : UInt8) (subfunction param1 param2 : UInt16) (reply : Regs) : Interrupt :=
  ⟨0x2F, ⟨0x9800 ||| function.toUInt16, subfunction, param1, param2⟩, reply⟩

section

variable {kept : Prop} {s s₁ s₂ : Sdk}

theorem interrupts_emit (effects : List Effect) (s : Sdk) :
    (s.emit effects).interrupts = s.interrupts ++ effects.filterMap Effect.interrupt :=
  List.filterMap_append ..

theorem Sdk.Asks.refl (kept : Prop) (s : Sdk) : s.Asks kept [] s :=
  ⟨rfl, (List.append_nil _).symm, fun _ => rfl⟩

theorem Sdk.Asks.trans {first later : List Interrupt} (h : s.Asks kept first s₁)
    (h' : s₁.Asks kept later s₂) : s.Asks kept (first ++ later) s₂ where
  replies := by rw [h.replies, h'.replies, List.map_append, List.append_assoc]
  interrupts := by rw [h'.interrupts, h.interrupts, List.append_assoc]
  fmpdrvInt := fun hkept => (h'.fmpdrvInt hkept).trans (h.fmpdrvInt hkept)

def asker (kept : Prop) : Asker Sdk Interrupt Regs where
  pending := Sdk.replies
  reply := Interrupt.reply
  Along := Sdk.Asks kept
  refl := Sdk.Asks.refl kept
  trans := Sdk.Asks.trans
  pending_eq := Sdk.Asks.replies

theorem asks_logfi (kept : Prop) (line : LogLine) (s : Sdk) : s.Asks kept [] (logfi line s) := by
  rw [logfi_eq]
  refine ⟨rfl, ?_, fun _ => rfl⟩
  rw [interrupts_emit]
  congr 1
  unfold lineEffects
  cases s.muted <;> cases s.stdouton <;> cases s.logout <;> rfl

-- An interrupt is made inside of an indentation, between two lines of the log.
theorem asks_interrupt {reply : Regs} {rest : List Regs} (h : s.replies = reply :: rest)
    (effect : Effect) (interrupt : Interrupt) (heffect : effect.interrupt = some interrupt)
    (hreply : interrupt.reply = reply) (enter exit : LogLine) :
    s.Asks kept [interrupt]
      (logfi exit (logfDelindent
        ({ logfAddindent (logfi enter s) with replies := rest }.emit [effect]))) := by
  have hmade : (logfi enter s).Asks kept [interrupt]
      (logfDelindent ({ logfAddindent (logfi enter s) with replies := rest }.emit [effect])) := by
    refine ⟨?_, ?_, fun _ => rfl⟩
    · rw [logfi_replies, h, List.map_singleton, hreply]
      rfl
    · show ({ logfAddindent (logfi enter s) with replies := rest }.emit [effect]).interrupts = _
      rw [interrupts_emit, List.filterMap_cons_some heffect]
      rfl
  exact ((asks_logfi kept enter s).trans hmade).trans (asks_logfi kept exit _)

theorem replies_entered (line : LogLine) (s : Sdk) :
    (logfAddindent (logfi line s)).replies = s.replies := logfi_replies line s

theorem conducts_rmCallFmpdrv (hint : s.fmpdrvInt = 0x80) (command handle : UInt8)
    (subfunc param1 param2 : UInt16) :
    Conducts (asker kept) s
      (fun (reply : Regs) s' => ((reply.dx.toUInt32 <<< 16 ||| reply.ax.toUInt32 : UInt32), s'))
      (fun talk reply => talk = [driverCall command handle subfunc param1 param2 reply])
      (rmCallFmpdrv command handle subfunc param1 param2 s) := by
  refine conducts_exchange (fun _ => rfl) ?_ ?_
  · intro hnone
    refine ⟨.noReply, ?_⟩
    rw [rmCallFmpdrv, if_neg (not_not.mpr hint)]
    dsimp only
    rw [int80, replies_entered, show s.replies = _ from hnone]
    rfl
  · intro reply rest hsome
    refine ⟨_, ?_, asks_interrupt hsome (.call _ reply) _ rfl rfl
      (.enterCallFmpdrv command handle subfunc param1 param2)
      (.exitCallFmpdrv command handle subfunc param1 param2 reply.dx reply.ax)⟩
    rw [rmCallFmpdrv, if_neg (not_not.mpr hint)]
    dsimp only
    rw [int80, replies_entered, show s.replies = _ from hsome]
    rfl

theorem conducts_rmCallRmdevsys (function : UInt8) (subfunction param1 param2 : UInt16) (s : Sdk) :
    Conducts (asker kept) s (fun (reply : Regs) s' => (reply.ax, s'))
      (fun talk reply => talk = [rmdevCall function subfunction param1 param2 reply])
      (rmCallRmdevsys function subfunction param1 param2 s) := by
  refine conducts_exchange (fun _ => rfl) ?_ ?_
  · intro hnone
    refine ⟨.noReply, ?_⟩
    rw [rmCallRmdevsys]
    dsimp only
    rw [int2F, replies_entered, show s.replies = _ from hnone]
    rfl
  · intro reply rest hsome
    refine ⟨_, ?_, asks_interrupt hsome (.multiplex _ reply) _ rfl rfl
      (.enterCallRmdevsys function subfunction param1 param2)
      (.exitCallRmdevsys function subfunction param1 param2 reply.ax reply.bx reply.cx reply.dx)⟩
    rw [rmCallRmdevsys]
    dsimp only
    rw [int2F, replies_entered, show s.replies = _ from hsome]
    rfl

theorem conducts_rmGetFmpdrvExePath (output : FarPtr) (s : Sdk) :
    Conducts (asker kept) s (fun _ s' => s')
      (fun talk reply => talk = [rmdevCall 3 output.off 0 output.seg reply])
      (rmGetFmpdrvExePath output s) :=
  (conducts_rmCallRmdevsys 3 output.off 0 output.seg s).returning fun _ _ => rfl

theorem conducts_rmReset (hint : s.fmpdrvInt = 0x80) :
    Conducts (asker kept) s (fun _ s' => s')
      (fun talk reply => talk = [driverCall 0xE 0 0 0 0 reply]) (rmReset s) :=
  (conducts_rmCallFmpdrv hint 0xE 0 0 0 0).returning fun _ _ => rfl

theorem conducts_rmSet (hint : s.fmpdrvInt = 0x80) (handle : UInt8) (type param1 param2 : UInt16) :
    Conducts (asker kept) s (fun _ s' => s')
      (fun talk reply => talk = [driverCall 0x9 handle type param1 param2 reply])
      (rmSet handle type param1 param2 s) :=
  (conducts_rmCallFmpdrv hint 0x9 handle type param1 param2).returning fun _ _ => rfl

theorem conducts_rmSetZorder (hint : s.fmpdrvInt = 0x80) (handle : UInt8) (value : UInt16) :
    Conducts (asker kept) s (fun _ s' => s')
      (fun talk reply => talk = [driverCall 0x9 handle 0x40E value 0 reply])
      (rmSetZorder handle value s) :=
  conducts_rmSet hint handle 0x40E value 0

theorem conducts_rmOpen (hint : s.fmpdrvInt = 0x80) (filename : FarPtr) (flags : UInt16) :
    Conducts (asker kept) s (fun (reply : Regs) s' => (reply.ax.toUInt8, s'))
      (fun talk reply => talk = [driverCall 1 0 flags filename.off filename.seg reply])
      (rmOpen filename flags s) := by
  refine (conducts_rmCallFmpdrv hint 1 0 flags filename.off filename.seg).returning ?_
  intro reply s'
  dsimp only
  rw [dword_toUInt8]
  rfl

theorem conducts_rmClose (hint : s.fmpdrvInt = 0x80) (handle : UInt8) :
    Conducts (asker kept) s (fun _ s' => s')
      (fun talk reply => talk = [driverCall 2 handle 0 0 0 reply]) (rmClose handle s) :=
  (conducts_rmCallFmpdrv hint 2 handle 0 0 0).returning fun _ _ => rfl

theorem conducts_rmPlay (hint : s.fmpdrvInt = 0x80) (handle : UInt8) (flags : UInt16) :
    Conducts (asker kept) s (fun _ s' => s')
      (fun talk reply => talk = [driverCall 0x3 handle flags 0 0 reply]) (rmPlay handle flags s) :=
  (conducts_rmCallFmpdrv hint 0x3 handle flags 0 0).returning fun _ _ => rfl

theorem conducts_rmGetStreamTypes (hint : s.fmpdrvInt = 0x80) (handle : UInt8) :
    Conducts (asker kept) s (fun (reply : Regs) s' => (reply.ax, s'))
      (fun talk reply => talk = [driverCall 0xA handle 0x202 0 0 reply])
      (rmGetStreamTypes handle s) := by
  refine (conducts_rmCallFmpdrv hint 0xA handle 0x202 0 0).returning ?_
  intro reply s'
  dsimp only
  rw [dword_toUInt16]
  rfl

theorem conducts_rmGetPlayStatus (hint : s.fmpdrvInt = 0x80) (handle : UInt8) :
    Conducts (asker kept) s (fun (reply : Regs) s' => (reply.ax, s'))
      (fun talk reply => talk = [driverCall 0xA handle 0x204 0 0 reply])
      (rmGetPlayStatus handle s) := by
  refine (conducts_rmCallFmpdrv hint 0xA handle 0x204 0 0).returning ?_
  intro reply s'
  dsimp only
  rw [dword_toUInt16]
  rfl

end

-- The polls of a stream on `handle` up to the first reply that has one of the two bits.
def Polled (handle : UInt8) (talk : List Interrupt) (done : Regs) : Prop :=
  ∃ playing, (∀ reply ∈ playing, reply.ax &&& 3 = 0) ∧ done.ax &&& 3 ≠ 0 ∧
    talk = (playing ++ [done]).map (driverCall 0xA handle 0x204 0 0)

theorem polled_iff (handle : UInt8) (talk : List Interrupt) (done : Regs) :
    following (fun talk reply => talk = [driverCall 0xA handle 0x204 0 0 reply])
      (fun reply talk done =>
        if reply.ax &&& 3 = 0 then Polled handle talk done else talk = [] ∧ done = reply)
      talk done ↔ Polled handle talk done := by
  constructor
  · rintro ⟨reply, _, rest, rfl, rfl, hrest⟩
    split at hrest
    · rename_i hplaying
      obtain ⟨playing, hall, hdone, rfl⟩ := hrest
      exact ⟨reply :: playing, List.forall_mem_cons.mpr ⟨hplaying, hall⟩, hdone, rfl⟩
    · rename_i hdone
      obtain ⟨rfl, rfl⟩ := hrest
      exact ⟨[], fun _ hmem => absurd hmem List.not_mem_nil, hdone, rfl⟩
  · rintro ⟨playing, hall, hdone, rfl⟩
    cases playing with
    | nil =>
        refine following_exchange ?_
        rw [if_neg hdone]
        exact ⟨rfl, rfl⟩
    | cons reply playing =>
        obtain ⟨hplaying, hall⟩ := List.forall_mem_cons.mp hall
        refine following_exchange ?_
        rw [if_pos hplaying]
        exact ⟨playing, hall, hdone, rfl⟩

section

variable {s : Sdk}

theorem pollWhilePlaying_bind (handle : UInt8) (s : Sdk) :
    pollWhilePlaying handle 0 s = (rmGetPlayStatus handle s).bind fun polled =>
      if polled.1 &&& 3 = 0 then pollWhilePlaying handle 0 polled.2
      else .ok (polled.1 &&& 3, polled.2) := by
  cases hpoll : rmGetPlayStatus handle s with
  | error stop =>
      rw [pollWhilePlaying]
      split
      · rename_i other hother
        rw [hpoll] at hother
        cases hother
        rfl
      · rename_i hok
        rw [hpoll] at hok
        cases hok
  | ok polled =>
      rw [pollWhilePlaying_eq hpoll]
      rfl

-- The induction is on the replies that are left, of which each poll takes one.
theorem conducts_pollWhilePlaying (hint : s.fmpdrvInt = 0x80) (handle : UInt8) :
    Conducts (asker True) s (fun (done : Regs) s' => (done.ax &&& 3, s')) (Polled handle)
      (pollWhilePlaying handle 0 s) := by
  obtain ⟨count, hcount⟩ : ∃ count, s.replies.length < count := ⟨_, Nat.lt_succ_self _⟩
  induction count generalizing s with
  | zero => exact absurd hcount (Nat.not_lt_zero _)
  | succ count ih =>
      rw [pollWhilePlaying_bind]
      refine (Conducts.bind (conducts_rmGetPlayStatus hint handle) ?_).congr (polled_iff handle)
      intro talk reply s' _ htalk halong
      have hfewer : s'.replies.length < count := by
        have hreplies := congrArg List.length halong.replies
        rw [htalk, List.length_append, List.length_map, List.length_singleton] at hreplies
        omega
      refine Conducts.ite ?_ ?_
      · intro _
        exact ih ((halong.fmpdrvInt trivial).trans hint) hfewer
      · intro _
        exact conducts_ok reply (Sdk.Asks.refl True s')

theorem conducts_rmWaitplay (hint : s.fmpdrvInt = 0x80) (handle : UInt8) :
    Conducts (asker True) s (fun _ s' => s') (Polled handle) (rmWaitplay handle 0 s) := by
  have hmuted : s.Asks True [] (logfSetmute true (logfi (.waiting false handle) s)) := by
    have hlogged := asks_logfi True (.waiting false handle) s
    exact ⟨hlogged.replies, hlogged.interrupts, hlogged.fmpdrvInt⟩
  refine ((conducts_pollWhilePlaying ((hmuted.fmpdrvInt trivial).trans hint) handle).map
    (fun done s' => logfi (.doneWaiting handle (done.ax &&& 3)) (logfSetmute false s'))
    (fun _ _ => rfl) ?_).before hmuted
  intro done s'
  have hlogged := asks_logfi True (.doneWaiting handle (done.ax &&& 3)) (logfSetmute false s')
  exact ⟨hlogged.replies, hlogged.interrupts, hlogged.fmpdrvInt⟩

end

-- What RMDEV.SYS is asked for by `rm_init`, and what the function then returns.
inductive InitTalk (memory : Memory) (loc : FarPtr) : List Interrupt → Int → Prop
  | noRmdev {hello : Regs} : hello.ax ≠ 0x524D →
      InitTalk memory loc [rmdevCall 0 0 0 0 hello] 0
  | notResident {hello version path : Regs} : hello.ax = 0x524D → rmProbeFmpdrvInt memory = 0 →
      InitTalk memory loc [rmdevCall 0 0 0 0 hello, rmdevCall 0 1 0 0 version,
        rmdevCall 3 loc.off 0 loc.seg path] 0
  | found {hello version path : Regs} : hello.ax = 0x524D → rmProbeFmpdrvInt memory ≠ 0 →
      InitTalk memory loc [rmdevCall 0 0 0 0 hello, rmdevCall 0 1 0 0 version,
        rmdevCall 3 loc.off 0 loc.seg path] 1

section

variable {s : Sdk}

-- The vector is set without a question.
theorem asks_setFmpdrvInt (intnum : UInt8) (s : Sdk) : s.Asks False [] (setFmpdrvInt intnum s) :=
  ⟨rfl, (List.append_nil _).symm, False.elim⟩

-- What is asked after the signature.
def afterHello (memory : Memory) (loc : FarPtr) : List Interrupt → Int → Prop :=
  following (fun talk version => talk = [rmdevCall 0 1 0 0 version]) fun _ =>
    following (fun talk path => talk = [rmdevCall 3 loc.off 0 loc.seg path]) fun _ talk rv =>
      if rmProbeFmpdrvInt memory = 0 then talk = [] ∧ rv = 0 else talk = [] ∧ rv = 1

theorem initTalk_iff (memory : Memory) (loc : FarPtr) (talk : List Interrupt) (rv : Int) :
    following (fun talk hello => talk = [rmdevCall 0 0 0 0 hello])
      (fun hello talk rv =>
        if hello.ax ≠ 0x524D then talk = [] ∧ rv = 0 else afterHello memory loc talk rv)
      talk rv ↔ InitTalk memory loc talk rv := by
  constructor
  · rintro ⟨hello, _, rest, rfl, rfl, hrest⟩
    split at hrest
    · rename_i hsignature
      obtain ⟨rfl, rfl⟩ := hrest
      exact .noRmdev hsignature
    · rename_i hsignature
      obtain ⟨version, _, _, rfl, rfl, path, _, _, rfl, rfl, hrest⟩ := hrest
      split at hrest
      · rename_i hnone
        obtain ⟨rfl, rfl⟩ := hrest
        exact .notResident (not_not.mp hsignature) hnone
      · rename_i hfound
        obtain ⟨rfl, rfl⟩ := hrest
        exact .found (not_not.mp hsignature) hfound
  · intro h
    cases h with
    | noRmdev hsignature =>
        refine following_exchange ?_
        rw [if_pos hsignature]
        exact ⟨rfl, rfl⟩
    | notResident hsignature hnone =>
        refine following_exchange ?_
        rw [if_neg (not_not.mpr hsignature)]
        refine following_exchange (following_exchange ?_)
        rw [if_pos hnone]
        exact ⟨rfl, rfl⟩
    | found hsignature hfound =>
        refine following_exchange ?_
        rw [if_neg (not_not.mpr hsignature)]
        refine following_exchange (following_exchange ?_)
        rw [if_neg hfound]
        exact ⟨rfl, rfl⟩

theorem conducts_rmInit (memory : Memory) (loc : FarPtr) (location : List UInt8) (s : Sdk) :
    Conducts (asker False) s Prod.mk (InitTalk memory loc) (rmInit memory loc location s) := by
  refine (Conducts.bind (conducts_rmCallRmdevsys 0 0 0 0 s) ?_).congr (initTalk_iff memory loc)
  intro _ hello s₁ _ _ _
  refine Conducts.ite ?_ ?_
  · intro _
    exact conducts_ok (0 : Int) (asks_logfi False .rmdevNotFound s₁)
  intro _
  refine Conducts.bind (conducts_rmCallRmdevsys 0 1 0 0 s₁) ?_
  intro _ version s₂ _ _ _
  refine Conducts.before (asks_logfi False (.driverVersion (version.ax >>> 8) (version.ax &&& 0xFF))
    s₂) ?_
  refine Conducts.bind (conducts_rmGetFmpdrvExePath loc _) ?_
  intro _ path s₃ _ _ _
  have hset := (asks_logfi False (.driverLocation location) s₃).trans
    (asks_setFmpdrvInt (rmProbeFmpdrvInt memory) _)
  refine Conducts.before hset (Conducts.ite ?_ ?_)
  · intro _
    exact conducts_ok (0 : Int) (asks_logfi False .driverNotResident _)
  · intro _
    exact conducts_ok (1 : Int) (asks_logfi False (.driverResident (rmProbeFmpdrvInt memory)) _)

end

end ReelMagic.Rmsdk
