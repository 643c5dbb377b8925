import ReelMagic.Rmsdk.Theorems
import ReelMagic.Rmsdk.Wrappers

namespace ReelMagic.Rmsdk

open Library Library.CString
open ReelMagic.Recorder (FarPtr Regs)

-- The vector is not NULL, and the driver's name stands three bytes into its handler.
def Memory.Carries (memory : Memory) (int : UInt8) : Prop :=
  memory.ivtEntry int ≠ ⟨0, 0⟩ ∧
    ∀ k < 9, memory (offset (offset (memory.ivtEntry int) 3) (UInt16.ofNat k)) =
      (ascii "FMPDriver").getD k 0

def Memory.Lowest (memory : Memory) (int : UInt8) : Prop :=
  0x80 ≤ int ∧ memory.Carries int ∧ ∀ other, 0x80 ≤ other → memory.Carries other → int ≤ other

-- RMDEV.SYS returns from the three calls, with its signature from the first.
def RmdevAnswers (s : Sdk) : Prop :=
  ∃ hello version location rest, s.replies = hello :: version :: location :: rest ∧
    hello.ax = 0x524D

-- The vector a call of the driver goes to.
def Effect.driverInt : Effect → Option UInt8
  | .call _ _ => some 0x80
  | _ => none

def CallsOnly (int : UInt8) (s s' : Sdk) : Prop :=
  ∃ effects, s'.effects = s.effects ++ effects ∧
    ∀ effect ∈ effects, ∀ called, effect.driverInt = some called → called = int

def InitSucceeds (memory : Memory) (loc : FarPtr) (location : List UInt8) (s s₁ : Sdk) : Prop :=
  ∃ rv, rmInit memory loc location s = .ok (rv, s₁) ∧ rv ≠ 0

-- `rm_init` succeeds just where the driver can be found, and after it has no sequence of calls
-- takes the abort or calls anything but the driver found.
def UsableAfterInit (code : Code) (memory : Memory) (loc : FarPtr) (location : List UInt8)
    (s : Sdk) : Prop :=
  ((∃ s₁, InitSucceeds memory loc location s s₁) ↔
    RmdevAnswers s ∧ ∃ int, 0x80 ≤ int ∧ memory.Carries int) ∧
  ∀ s₁ int, InitSucceeds memory loc location s s₁ → memory.Lowest int → ∀ wrappers : List Wrapper,
    Ends (· ≠ .aborted) (CallsOnly int s₁) (wrappers.foldlM (Wrapper.run code) s₁)

theorem offset_offset (ptr : FarPtr) (m n : UInt16) : offset (offset ptr m) n = offset ptr (m + n) := by
  simp only [offset, UInt16.add_assoc]

-- The comparison runs over the bytes of a string without a NUL in it.
theorem fstrncmp_eq_zero_iff (memory : Memory) (t : List UInt8) (h : 0 ∉ t) (s : FarPtr) :
    memory.fstrncmp s t t.length = 0 ↔
      ∀ k < t.length, memory (offset s (UInt16.ofNat k)) = t.getD k 0 := by
  induction t generalizing s with
  | nil => simp [Memory.fstrncmp]
  | cons c t ih =>
      obtain ⟨hc, ht⟩ := not_or.mp (mt List.mem_cons.mpr h)
      have hfirst : offset s (UInt16.ofNat 0) = s := by
        simp [offset]
      have hrest : ∀ k, offset (offset s 1) (UInt16.ofNat k) = offset s (UInt16.ofNat (k + 1)) := by
        intro k
        rw [offset_offset, UInt16.ofNat_add, UInt16.add_comm]
        rfl
      rw [List.length_cons, Memory.fstrncmp]
      by_cases heq : memory s = c
      · have hnonzero : ¬memory s = 0 := by
          rw [heq]
          exact Ne.symm hc
        rw [if_neg (by simpa using heq), if_neg hnonzero, List.tail_cons, ih ht]
        constructor
        · intro hall k hk
          cases k with
          | zero => rwa [hfirst]
          | succ k =>
              rw [← hrest, List.getD_cons_succ]
              exact hall k (by omega)
        · intro hall k hk
          rw [hrest, hall (k + 1) (by omega), List.getD_cons_succ]
      · have hdiff : (memory s).toNat ≠ c.toNat := fun he => heq (UInt8.toNat_inj.mp he)
        rw [if_pos (by simpa using heq), List.headD_cons]
        constructor
        · intro hzero
          omega
        · intro hall
          have hat := hall 0 (by omega)
          rw [hfirst] at hat
          exact absurd hat heq

theorem isFmpdriver_iff (memory : Memory) (int : UInt8) :
    memory.isFmpdriver int = true ↔ memory.Carries int := by
  have hcmp := fstrncmp_eq_zero_iff memory (ascii "FMPDriver") (by decide)
    (offset (memory.ivtEntry int) 3)
  have hlen : (ascii "FMPDriver").length = 9 := by decide
  rw [hlen] at hcmp
  rw [Memory.isFmpdriver, Bool.and_eq_true, decide_eq_true_eq, decide_eq_true_eq, hcmp,
    Memory.Carries]

theorem exists_index (int : UInt8) (h : 0x80 ≤ int) : ∃ i < 128, int = UInt8.ofNat (128 + i) := by
  have hlt := int.toNat_lt
  have hle : 128 ≤ int.toNat := UInt8.le_iff_toNat_le.mp h
  refine ⟨int.toNat - 128, by omega, ?_⟩
  rw [Nat.add_sub_cancel' hle, UInt8.ofNat_toNat]

theorem toNat_vector (i : Nat) (h : i < 128) : (UInt8.ofNat (128 + i)).toNat = 128 + i := by
  rw [UInt8.toNat_ofNat']
  omega

-- The probe finds the lowest vector, or 0 where there is none.
theorem rmProbeFmpdrvInt_cases (memory : Memory) :
    memory.Lowest (rmProbeFmpdrvInt memory) ∨
      rmProbeFmpdrvInt memory = 0 ∧ ∀ int, 0x80 ≤ int → ¬memory.Carries int := by
  rw [rmProbeFmpdrvInt, List.find?_map]
  cases hfind : (List.range 128).find? (memory.isFmpdriver ∘ fun i => UInt8.ofNat (128 + i)) with
  | none =>
      refine Or.inr ⟨rfl, ?_⟩
      intro int hint hcarries
      obtain ⟨i, hi, rfl⟩ := exists_index int hint
      have hnot := List.find?_eq_none.mp hfind i (List.mem_range.mpr hi)
      exact hnot ((isFmpdriver_iff memory _).mpr hcarries)
  | some i =>
      obtain ⟨hfound, hmem, hbefore⟩ := List.find?_range_eq_some.mp hfind
      have hi := List.mem_range.mp hmem
      refine Or.inl ⟨?_, (isFmpdriver_iff memory _).mp hfound, ?_⟩
      · show 0x80 ≤ UInt8.ofNat (128 + i)
        rw [UInt8.le_iff_toNat_le, toNat_vector i hi]
        exact Nat.le_add_right _ _
      · intro other hother hcarries
        obtain ⟨j, hj, rfl⟩ := exists_index other hother
        show UInt8.ofNat (128 + i) ≤ UInt8.ofNat (128 + j)
        rw [UInt8.le_iff_toNat_le, toNat_vector i hi, toNat_vector j hj]
        by_contra hlt
        have hnot := hbefore j (by omega)
        rw [Function.comp_apply, (isFmpdriver_iff memory _).mpr hcarries] at hnot
        exact absurd hnot (by decide)

theorem Memory.Lowest.unique {memory : Memory} {int other : UInt8} (h : memory.Lowest int)
    (hother : memory.Lowest other) : int = other :=
  UInt8.le_antisymm (h.2.2 other hother.1 hother.2.1) (hother.2.2 int h.1 h.2.1)

-- A state that a run goes on to: the vector stays set, and only INT 80h is called for the driver.
def Continues (s s' : Sdk) : Prop :=
  s'.fmpdrvInt = s.fmpdrvInt ∧ CallsOnly 0x80 s s'

section

variable {s s₁ s₂ : Sdk}

theorem Continues.trans (h₁ : Continues s s₁) (h₂ : Continues s₁ s₂) : Continues s s₂ := by
  obtain ⟨hint₁, effects₁, heffects₁, hcalls₁⟩ := h₁
  obtain ⟨hint₂, effects₂, heffects₂, hcalls₂⟩ := h₂
  refine ⟨hint₂.trans hint₁, effects₁ ++ effects₂, ?_, ?_⟩
  · rw [heffects₂, heffects₁, List.append_assoc]
  · intro effect heffect
    rcases List.mem_append.mp heffect with hfirst | hsecond
    · exact hcalls₁ effect hfirst
    · exact hcalls₂ effect hsecond

theorem continues_emit (effects : List Effect) (s : Sdk) : Continues s (s.emit effects) := by
  refine ⟨rfl, effects, rfl, ?_⟩
  intro effect _ called hcalled
  cases effect with
  | call regs reply => exact (Option.some.inj hcalled).symm
  | _ => cases hcalled

theorem Continues.refl (s : Sdk) : Continues s s :=
  ⟨rfl, [], (List.append_nil _).symm, nofun⟩

theorem continues_logfi (line : LogLine) (s : Sdk) : Continues s (logfi line s) := by
  rw [logfi_eq]
  exact continues_emit _ _

-- The calls of the driver, with their bookkeeping, all end well once the vector is 80h.
abbrev EndsWell {α : Type} (state : α → Sdk) (s : Sdk) : Except Stop α → Prop :=
  Ends (· ≠ .aborted) fun a => Continues s (state a)

theorem endsWell_int80 (regs : Regs) (s : Sdk) : EndsWell Prod.snd s (int80 regs s) := by
  unfold int80
  split
  · exact nofun
  · exact continues_emit _ s

theorem endsWell_int2F (regs : Regs) (s : Sdk) : EndsWell Prod.snd s (int2F regs s) := by
  unfold int2F
  split
  · exact nofun
  · exact continues_emit _ s

theorem endsWell_rmCallFmpdrv (hint : s.fmpdrvInt = 0x80) (command handle : UInt8)
    (subfunc param1 param2 : UInt16) :
    EndsWell Prod.snd s (rmCallFmpdrv command handle subfunc param1 param2 s) := by
  rw [rmCallFmpdrv, if_neg (not_not.mpr hint)]
  refine Ends.bind (endsWell_int80 _ _) ?_
  rintro ⟨reply, s₁⟩ hcalled
  exact ((continues_logfi _ s).trans hcalled).trans (continues_logfi _ _)

theorem endsWell_rmCallRmdevsys (function : UInt8) (subfunction param1 param2 : UInt16) :
    EndsWell Prod.snd s (rmCallRmdevsys function subfunction param1 param2 s) := by
  refine Ends.bind (endsWell_int2F _ _) ?_
  rintro ⟨reply, s₁⟩ hcalled
  exact ((continues_logfi _ s).trans hcalled).trans (continues_logfi _ _)

-- What a call returns may be dropped or converted.
theorem EndsWell.dropped {α : Type} {x : Except Stop (α × Sdk)} (h : EndsWell Prod.snd s x) :
    EndsWell id s (x.bind fun (_, s') => .ok s') :=
  Ends.bind h fun _ hcalled => hcalled

theorem EndsWell.converted {α β : Type} {x : Except Stop (α × Sdk)} (h : EndsWell Prod.snd s x)
    (f : α → β) : EndsWell Prod.snd s (x.bind fun (a, s') => .ok (f a, s')) :=
  Ends.bind h fun _ hcalled => hcalled

theorem endsWell_rmSet (hint : s.fmpdrvInt = 0x80) (handle : UInt8) (type param1 param2 : UInt16) :
    EndsWell id s (rmSet handle type param1 param2 s) :=
  (endsWell_rmCallFmpdrv hint _ _ _ _ _).dropped

theorem endsWell_rmGet (hint : s.fmpdrvInt = 0x80) (handle : UInt8) (type : UInt16) :
    EndsWell Prod.snd s (rmGet handle type s) :=
  endsWell_rmCallFmpdrv hint _ _ _ _ _

theorem endsWell_rmGetPlayStatus (hint : s.fmpdrvInt = 0x80) (handle : UInt8) :
    EndsWell Prod.snd s (rmGetPlayStatus handle s) :=
  (endsWell_rmGet hint _ _).converted UInt32.toUInt16

theorem endsWell_rmSubmitBuffer (hint : s.fmpdrvInt = 0x80) (handle : UInt8) (buf : FarPtr)
    (size : UInt16) : EndsWell id s (rmSubmitBuffer handle buf size s) := by
  refine Ends.bind (endsWell_rmSet hint _ _ _ _) ?_
  intro s₁ h₁
  refine Ends.bind (endsWell_rmSet (h₁.1.trans hint) _ _ _ _) ?_
  intro s₂ h₂
  have h₁₂ := h₁.trans h₂
  exact (endsWell_rmSet (h₁₂.1.trans hint) _ _ _ _).mono fun s₃ h₃ => h₁₂.trans h₃

theorem endsWell_rmRegisterDriverCallback (hint : s.fmpdrvInt = 0x80) (code : Code)
    (cbfunc cbmode : UInt16) :
    EndsWell id s (rmRegisterDriverCallback code cbfunc cbmode s) := by
  have hset : Continues s { s with driverCbFunc := cbfunc } :=
    ⟨rfl, [], (List.append_nil _).symm, nofun⟩
  have hint' : ({ s with driverCbFunc := cbfunc } : Sdk).fmpdrvInt = 0x80 := hint
  unfold rmRegisterDriverCallback
  dsimp only
  generalize (if cbfunc = 0 then 0 else cbmode) = mode
  split
  · refine Ends.bind (endsWell_rmCallFmpdrv hint' _ _ _ _ _) ?_
    rintro ⟨rv, s₁⟩ hcalled
    exact hset.trans hcalled
  · have hwarned : Continues s (if mode = RMCBMODE_REGISTER then { s with driverCbFunc := cbfunc }
        else logfi (.unknownCallbackMode mode) { s with driverCbFunc := cbfunc }) := by
      split
      · exact hset
      · exact hset.trans (continues_logfi _ _)
    refine Ends.bind (endsWell_rmCallFmpdrv (hwarned.1.trans hint) _ _ _ _ _) ?_
    rintro ⟨rv, s₁⟩ hcalled
    exact hwarned.trans hcalled

-- The loop ends with the first status that is done, or in a call that does not return.
theorem endsWell_pollWhilePlaying (hint : s.fmpdrvInt = 0x80) (handle : UInt8)
    (sleepInterval : UInt16) :
    EndsWell Prod.snd s (pollWhilePlaying handle sleepInterval s) := by
  fun_induction pollWhilePlaying handle sleepInterval s with
  | case1 s stop herror =>
      have hpoll := endsWell_rmGetPlayStatus hint handle
      rw [herror] at hpoll
      exact hpoll
  | case2 s value s₁ hok status hplaying hlt ih =>
      have hpoll := endsWell_rmGetPlayStatus hint handle
      rw [hok] at hpoll
      have hslept : Continues s (if sleepInterval ≠ 0 then s₁.emit [.sleep sleepInterval] else s₁) := by
        split
        · exact Continues.trans hpoll (continues_emit _ _)
        · exact hpoll
      exact (ih (hslept.1.trans hint)).mono fun _ hrest => hslept.trans hrest
  | case3 s value s₁ hok status hdone =>
      have hpoll := endsWell_rmGetPlayStatus hint handle
      rw [hok] at hpoll
      exact hpoll

theorem continues_logfSetmute (val : Bool) (s : Sdk) : Continues s (logfSetmute val s) :=
  ⟨rfl, [], (List.append_nil _).symm, nofun⟩

theorem endsWell_rmWaitplay (hint : s.fmpdrvInt = 0x80) (handle : UInt8) (sleepInterval : UInt16) :
    EndsWell id s (rmWaitplay handle sleepInterval s) := by
  have hwaiting := continues_logfi (.waiting (decide (sleepInterval ≠ 0)) handle) s
  have hready : Continues s (if sleepInterval ≠ 0 then
      logfi (.sleepInterval sleepInterval) (logfi (.waiting (decide (sleepInterval ≠ 0)) handle) s)
      else logfSetmute true (logfi (.waiting (decide (sleepInterval ≠ 0)) handle) s)) := by
    split
    · exact hwaiting.trans (continues_logfi _ _)
    · exact hwaiting.trans (continues_logfSetmute _ _)
  unfold rmWaitplay
  dsimp only
  refine Ends.bind (endsWell_pollWhilePlaying (hready.1.trans hint) handle sleepInterval) ?_
  rintro ⟨status, s₁⟩ hpolled
  exact ((hready.trans hpolled).trans (continues_logfSetmute _ _)).trans (continues_logfi _ _)

theorem endsWell_run (code : Code) (hint : s.fmpdrvInt = 0x80) (wrapper : Wrapper) :
    EndsWell id s (wrapper.run code s) := by
  cases wrapper with
  | rmCallFmpdrv command handle subfunc param1 param2 =>
      exact Ends.map (endsWell_rmCallFmpdrv hint _ _ _ _ _)
  | rmCallFmpdrvPtr command handle subfunc ptr =>
      exact Ends.map (endsWell_rmCallFmpdrv hint _ _ _ _ _)
  | rmSet handle type param1 param2 => exact endsWell_rmSet hint _ _ _ _
  | rmSetPtr handle type ptr =>
      exact (endsWell_rmCallFmpdrv hint _ _ _ _ _).dropped
  | rmGet handle type => exact Ends.map (endsWell_rmGet hint _ _)
  | rmGetPtr handle type =>
      exact Ends.map ((endsWell_rmGet hint _ _).converted fun rv =>
        FarPtr.mk (rv >>> 16).toUInt16 (rv &&& 0xFFFF).toUInt16)
  | rmGetVersion => exact Ends.map (endsWell_rmCallRmdevsys _ _ _ _)
  | rmGetFmpdrvExePath output =>
      exact (endsWell_rmCallRmdevsys _ _ _ _).dropped
  | rmReset => exact (endsWell_rmCallFmpdrv hint _ _ _ _ _).dropped
  | rmRegisterDriverCallback cbfunc cbmode =>
      exact endsWell_rmRegisterDriverCallback hint code cbfunc cbmode
  | rmOpen filename flags =>
      exact Ends.map ((endsWell_rmCallFmpdrv hint _ _ _ _ _).converted UInt32.toUInt8)
  | rmClose handle =>
      exact (endsWell_rmCallFmpdrv hint _ _ _ _ _).dropped
  | rmPlay handle flags =>
      exact (endsWell_rmCallFmpdrv hint _ _ _ _ _).dropped
  | rmPause handle =>
      exact (endsWell_rmCallFmpdrv hint _ _ _ _ _).dropped
  | rmGetStreamTypes handle =>
      exact Ends.map ((endsWell_rmGet hint _ _).converted UInt32.toUInt16)
  | rmGetPlayStatus handle => exact Ends.map (endsWell_rmGetPlayStatus hint _)
  | rmGetBytesDecoded handle => exact Ends.map (endsWell_rmGet hint _ _)
  | rmSetZorder handle value => exact endsWell_rmSet hint _ _ _ _
  | rmSetMagicKey handle k1 k2 => exact endsWell_rmSet hint _ _ _ _
  | rmWaitplay handle sleepInterval => exact endsWell_rmWaitplay hint _ _
  | rmSubmitBuffer handle buf size => exact endsWell_rmSubmitBuffer hint _ _ _

-- Every sequence of calls, once the vector is 80h.
theorem endsWell_calls (code : Code) (hint : s.fmpdrvInt = 0x80) (wrappers : List Wrapper) :
    EndsWell id s (wrappers.foldlM (Wrapper.run code) s) := by
  refine Ends.foldlM ?_ s (Continues.refl s) wrappers
  intro s₁ wrapper h₁
  exact (endsWell_run code (h₁.1.trans hint) wrapper).mono fun s₂ h₂ => h₁.trans h₂

theorem rmCallRmdevsys_of_replies {reply : Regs} {rest : List Regs} (h : s.replies = reply :: rest)
    (function : UInt8) (subfunction param1 param2 : UInt16) :
    ∃ s', rmCallRmdevsys function subfunction param1 param2 s = .ok (reply.ax, s') ∧
      s'.replies = rest := by
  have hreplies : (logfAddindent
      (logfi (.enterCallRmdevsys function subfunction param1 param2) s)).replies = reply :: rest :=
    (logfi_replies _ s).trans h
  unfold rmCallRmdevsys int2F
  dsimp only
  rw [hreplies]
  exact ⟨_, rfl, logfi_replies _ _⟩

theorem rmCallRmdevsys_ok {function : UInt8} {subfunction param1 param2 value : UInt16}
    (h : rmCallRmdevsys function subfunction param1 param2 s = .ok (value, s₁)) :
    ∃ reply, s.replies = reply :: s₁.replies ∧ value = reply.ax := by
  cases hreplies : s.replies with
  | nil =>
      have hnone : (logfAddindent
          (logfi (.enterCallRmdevsys function subfunction param1 param2) s)).replies = [] :=
        (logfi_replies _ s).trans hreplies
      unfold rmCallRmdevsys int2F at h
      dsimp only at h
      rw [hnone] at h
      cases h
  | cons reply rest =>
      obtain ⟨s', hok, hrest⟩ :=
        rmCallRmdevsys_of_replies hreplies function subfunction param1 param2
      obtain ⟨rfl, rfl⟩ := Prod.mk.inj (Except.ok.inj (hok.symm.trans h))
      exact ⟨reply, by rw [hrest], rfl⟩

variable {memory : Memory} {loc : FarPtr} {location : List UInt8}

-- A successful `rm_init` has had all three answers, and leaves the vector found.
theorem InitSucceeds.spec (h : InitSucceeds memory loc location s s₁) :
    RmdevAnswers s ∧ memory.Lowest (rmProbeFmpdrvInt memory) ∧
      s₁.fmpdrvInt = rmProbeFmpdrvInt memory := by
  obtain ⟨rv, hinit, hrv⟩ := h
  obtain ⟨⟨signature, a⟩, hhello, hinit⟩ := bind_eq_ok hinit
  obtain ⟨hello, hreplies, rfl⟩ := rmCallRmdevsys_ok hhello
  dsimp only at hinit
  split at hinit
  · obtain ⟨rfl, _⟩ := Prod.mk.inj (Except.ok.inj hinit)
    exact absurd rfl hrv
  rename_i hsignature
  obtain ⟨⟨ver, b⟩, hversion, hinit⟩ := bind_eq_ok hinit
  obtain ⟨version, hreplies₁, rfl⟩ := rmCallRmdevsys_ok hversion
  obtain ⟨c, hlocation, hinit⟩ := bind_eq_ok hinit
  obtain ⟨⟨value, d⟩, hpath, hret⟩ := bind_eq_ok hlocation
  obtain ⟨path, hreplies₂, _⟩ := rmCallRmdevsys_ok hpath
  rw [logfi_replies] at hreplies₂
  split at hinit
  · obtain ⟨rfl, _⟩ := Prod.mk.inj (Except.ok.inj hinit)
    exact absurd rfl hrv
  rename_i hfound
  obtain ⟨rfl, rfl⟩ := Prod.mk.inj (Except.ok.inj hinit)
  refine ⟨⟨hello, version, path, d.replies, ?_, not_not.mp hsignature⟩, ?_, ?_⟩
  · rw [hreplies, hreplies₁, hreplies₂]
  · exact (rmProbeFmpdrvInt_cases memory).resolve_right fun hnone => hfound hnone.1
  · rw [logfi_eq]
    rfl

theorem exists_initSucceeds (hanswers : RmdevAnswers s) (hfound : rmProbeFmpdrvInt memory ≠ 0) :
    ∃ s₁, InitSucceeds memory loc location s s₁ := by
  obtain ⟨hello, version, path, rest, hreplies, hsignature⟩ := hanswers
  obtain ⟨a, hhello, hreplies₁⟩ := rmCallRmdevsys_of_replies hreplies 0 0 0 0
  obtain ⟨b, hversion, hreplies₂⟩ := rmCallRmdevsys_of_replies hreplies₁ 0 1 0 0
  have hreplies₃ : (logfi (.driverVersion (version.ax >>> 8) (version.ax &&& 0xFF)) b).replies =
      path :: rest := (logfi_replies _ b).trans hreplies₂
  obtain ⟨c, hpath, _⟩ := rmCallRmdevsys_of_replies hreplies₃ 3 loc.off 0 loc.seg
  refine ⟨logfi (.driverResident (rmProbeFmpdrvInt memory)) (setFmpdrvInt (rmProbeFmpdrvInt memory)
    (logfi (.driverLocation location) c)), 1, ?_, by decide⟩
  simp only [rmInit, hhello, hsignature, ne_eq, not_true_eq_false, if_false, rmGetVersion, hversion,
    rmGetFmpdrvExePath, hpath, setFmpdrvInt, hfound, bind, Except.bind, pure, Except.pure]

theorem rmProbeFmpdrvInt_ne_zero_iff (memory : Memory) :
    rmProbeFmpdrvInt memory ≠ 0 ↔ ∃ int, 0x80 ≤ int ∧ memory.Carries int := by
  rcases rmProbeFmpdrvInt_cases memory with hlowest | ⟨hzero, hnone⟩
  · constructor
    · intro _
      exact ⟨_, hlowest.1, hlowest.2.1⟩
    · intro _ hzero
      rw [hzero] at hlowest
      exact absurd hlowest.1 (by decide)
  · constructor
    · intro hne
      exact absurd hzero hne
    · rintro ⟨int, hint, hcarries⟩
      exact absurd hcarries (hnone int hint)

theorem exists_initSucceeds_iff : (∃ s₁, InitSucceeds memory loc location s s₁) ↔
    RmdevAnswers s ∧ ∃ int, 0x80 ≤ int ∧ memory.Carries int := by
  rw [← rmProbeFmpdrvInt_ne_zero_iff]
  constructor
  · rintro ⟨s₁, hinit⟩
    obtain ⟨hanswers, hlowest, _⟩ := hinit.spec
    refine ⟨hanswers, (rmProbeFmpdrvInt_ne_zero_iff memory).mpr ⟨_, hlowest.1, hlowest.2.1⟩⟩
  · rintro ⟨hanswers, hfound⟩
    exact exists_initSucceeds hanswers hfound

end

-- With the driver found anywhere else the first call is given up.
theorem not_usableAfterInit {memory : Memory} {s : Sdk} {int : UInt8} (code : Code) (loc : FarPtr)
    (location : List UInt8) (hanswers : RmdevAnswers s) (hlowest : memory.Lowest int)
    (hne : int ≠ 0x80) : ¬UsableAfterInit code memory loc location s := by
  rintro ⟨hsucceeds, husable⟩
  obtain ⟨s₁, hinit⟩ := hsucceeds.mpr ⟨hanswers, int, hlowest.1, hlowest.2.1⟩
  have hint : s₁.fmpdrvInt ≠ 0x80 := by
    obtain ⟨_, hprobe, hset⟩ := hinit.spec
    rw [hset, hprobe.unique hlowest]
    exact hne
  have hreset := husable s₁ int hinit hlowest [.rmReset]
  have haborts : [Wrapper.rmReset].foldlM (Wrapper.run code) s₁ = .error .aborted := by
    simp only [List.foldlM_cons, Wrapper.run, rmReset, rmCallFmpdrv, if_pos hint]
    rfl
  rw [haborts] at hreset
  exact hreset rfl

-- What is asked of `rm_init` holds exactly where the driver it finds is at 80h, or it finds
-- none: the probe goes up to FFh, and the calls go to INT 80h and are given up elsewhere.
theorem usable_after_init_iff (code : Code) (memory : Memory) (loc : FarPtr)
    (location : List UInt8) (s : Sdk) :
    UsableAfterInit code memory loc location s ↔
      ¬RmdevAnswers s ∨ ∀ int, memory.Lowest int → int = 0x80 := by
  constructor
  · intro husable
    by_contra hnot
    push Not at hnot
    obtain ⟨hanswers, int, hlowest, hne⟩ := hnot
    exact not_usableAfterInit code loc location hanswers hlowest hne husable
  · intro hcondition
    refine ⟨exists_initSucceeds_iff, ?_⟩
    intro s₁ int hinit hlowest wrappers
    obtain ⟨hanswers, hprobe, hset⟩ := hinit.spec
    have hint : int = 0x80 := by
      rcases hcondition with hnot | hall
      · exact absurd hanswers hnot
      · exact hall int hlowest
    rw [hprobe.unique hlowest, hint] at hset
    rw [hint]
    exact (endsWell_calls code hset wrappers).mono fun _ hcontinues => hcontinues.2

-- The driver is at 81h alone: the vector points at 1000:0000, and the name is at 1000:0003.
def driverAt81 : Memory := fun ptr =>
  if ptr = ⟨0, 0x207⟩ then 0x10
  else if ptr.seg = 0x1000 then ((0 :: 0 :: 0 :: ascii "FMPDriver").getD ptr.off.toNat 0)
  else 0

def answeringSdk : Sdk :=
  ⟨0, 0, false, true, false, 0, [⟨0x524D, 0, 0, 0⟩, ⟨0x0214, 0, 0, 0⟩, ⟨0, 0, 0, 0⟩], []⟩

theorem not_usable_after_init :
    ¬∀ code memory loc location s, UsableAfterInit code memory loc location s := by
  intro h
  have hprobe : rmProbeFmpdrvInt driverAt81 = 0x81 := by decide +kernel
  have hlowest : driverAt81.Lowest 0x81 := by
    rw [← hprobe]
    exact (rmProbeFmpdrvInt_cases driverAt81).resolve_right fun hnone =>
      absurd (hprobe.symm.trans hnone.1) (by decide)
  have hanswers : RmdevAnswers answeringSdk := ⟨_, _, _, [], rfl, rfl⟩
  have hcode : Code := ⟨⟨1, 0⟩, ⟨1, 1⟩, by decide, by decide, by decide⟩
  exact not_usableAfterInit hcode ⟨0, 0⟩ [] hanswers hlowest (by decide) (h _ _ _ _ _)

end ReelMagic.Rmsdk
