import ReelMagic.Rmprobe.Waitplay
import ReelMagic.Rmsdk.Theorems

namespace ReelMagic.Rmsdk

open Library Library.Registers
open ReelMagic.Rmprobe (IsDone World isDone_iff onEachOutput poll waitplay waitplay_of_replies)
open ReelMagic.Recorder (FarPtr Regs)

-- The status poll, as it is called.
def statusPoll (handle : UInt8) : Regs := ⟨0, (0xA : UInt8).toUInt16 <<< 8 ||| handle.toUInt16, 0x204, 0⟩

-- Both waits poll up to the same reply, report its low word on the outputs that are on, and leave
-- the log switched as it was.
def WaitsAgree (handle : UInt8) (sleepInterval : UInt16) (linebuf : List UInt8) (s : Sdk) (w : World)
    (playing : List Regs) (done : Regs) : Prop :=
  ∃ s' w', rmWaitplay handle sleepInterval s = .ok s' ∧
    waitplay handle sleepInterval linebuf w = .ok w' ∧
    s'.calls = s.calls ++ (playing ++ [done]).map (statusPoll handle, ·) ∧
    w'.interrupts = w.interrupts ++ (playing ++ [done]).map (poll w.fmpDriverInt handle linebuf) ∧
    s'.reports = s.reports ++ onEachOutput s.stdouton s.logout done.ax ∧
    w'.reports = w.reports ++ onEachOutput w.stdouton w.logout done.ax ∧
    s'.muted = s.muted ∧ s'.stdouton = s.stdouton ∧ s'.logout = s.logout ∧
    w'.stdouton = w.stdouton ∧ w'.logout = w.logout

section

variable {s s₁ : Sdk} {reply : Regs} {rest : List Regs}

theorem rmGetPlayStatus_of_replies (hint : s.fmpdrvInt = 0x80) (h : s.replies = reply :: rest)
    (handle : UInt8) :
    ∃ s', rmGetPlayStatus handle s = .ok (reply.ax, s') ∧ Keeps s [(statusPoll handle, reply)] s' := by
  obtain ⟨s', hcall, hkeeps⟩ := rmCallFmpdrv_of_replies hint h 0xA handle 0x204 0 0
  refine ⟨s', ?_, hkeeps⟩
  rw [rmGetPlayStatus, rmGet, hcall]
  exact congrArg (fun status => Except.ok (status, s')) (dword_toUInt16 reply.dx reply.ax)

theorem pollWhilePlaying_eq {handle : UInt8} {status : UInt16} (h : rmGetPlayStatus handle s = .ok (status, s₁))
    (sleepInterval : UInt16) :
    pollWhilePlaying handle sleepInterval s =
      if status &&& 3 = 0 then
        pollWhilePlaying handle sleepInterval
          (if sleepInterval ≠ 0 then s₁.emit [.sleep sleepInterval] else s₁)
      else .ok (status &&& 3, s₁) := by
  rw [pollWhilePlaying]
  split
  · rename_i stop herror
    rw [h] at herror
    cases herror
  · rename_i value polled hok
    rw [h] at hok
    obtain ⟨rfl, rfl⟩ := Prod.mk.inj (Except.ok.inj hok)
    rfl

-- The loop polls up to the first reply with one of the two bits, and has the masked status then.
theorem pollWhilePlaying_of_replies {playing : List Regs} {done : Regs} (hint : s.fmpdrvInt = 0x80)
    (h : s.replies = playing ++ done :: rest) (hplaying : ∀ reply ∈ playing, reply.ax &&& 3 = 0)
    (hdone : done.ax &&& 3 ≠ 0) (handle : UInt8) (sleepInterval : UInt16) :
    ∃ s', pollWhilePlaying handle sleepInterval s = .ok (done.ax &&& 3, s') ∧
      Keeps s ((playing ++ [done]).map (statusPoll handle, ·)) s' := by
  induction playing generalizing s with
  | nil =>
      obtain ⟨s', hpoll, hkeeps⟩ := rmGetPlayStatus_of_replies hint h handle
      refine ⟨s', ?_, hkeeps⟩
      rw [pollWhilePlaying_eq hpoll, if_neg hdone]
  | cons reply playing ih =>
      obtain ⟨hfirst, hplaying⟩ := List.forall_mem_cons.mp hplaying
      obtain ⟨s₁, hpoll, hkeeps⟩ := rmGetPlayStatus_of_replies hint h handle
      have hslept : Keeps s₁ []
          (if sleepInterval ≠ 0 then s₁.emit [.sleep sleepInterval] else s₁) := by
        split
        · exact keeps_sleep sleepInterval s₁
        · exact Keeps.refl s₁
      have hround := hkeeps.trans hslept
      have hreplies := hround.replies
      rw [h] at hreplies
      obtain ⟨s', hrest, hkept⟩ := ih (hround.fmpdrvInt.trans hint)
        (List.cons.inj hreplies).2.symm hplaying
      refine ⟨s', ?_, hround.trans hkept⟩
      rw [pollWhilePlaying_eq hpoll, if_pos hfirst, hrest]

theorem reports_doneWaiting (handle : UInt8) (status : UInt16) (s : Sdk) :
    (lineEffects (.doneWaiting handle status) s).filterMap Effect.reported =
      if s.muted then [] else onEachOutput s.stdouton s.logout status := by
  unfold lineEffects onEachOutput
  cases s.muted <;> cases s.stdouton <;> cases s.logout <;> rfl

-- The whole of `rm_waitplay`: what is masked is reported, and the log is on afterwards.
theorem rmWaitplay_of_replies {playing : List Regs} {done : Regs} (hint : s.fmpdrvInt = 0x80)
    (h : s.replies = playing ++ done :: rest) (hplaying : ∀ reply ∈ playing, reply.ax &&& 3 = 0)
    (hdone : done.ax &&& 3 ≠ 0) (handle : UInt8) (sleepInterval : UInt16) :
    ∃ s', rmWaitplay handle sleepInterval s = .ok s' ∧
      s'.calls = s.calls ++ (playing ++ [done]).map (statusPoll handle, ·) ∧
      s'.reports = s.reports ++ onEachOutput s.stdouton s.logout (done.ax &&& 3) ∧
      s'.muted = false ∧ s'.stdouton = s.stdouton ∧ s'.logout = s.logout := by
  have hwaiting := keeps_logfi (.waiting (decide (sleepInterval ≠ 0)) handle) nofun s
  -- what is logged or muted before the loop leaves all but the mute switch as it was
  obtain ⟨s₂, hs₂, hreplies, hcalls, hreports, hint₂, hstdouton, hlogout⟩ : ∃ s₂,
      (if sleepInterval ≠ 0 then
        logfi (.sleepInterval sleepInterval) (logfi (.waiting (decide (sleepInterval ≠ 0)) handle) s)
      else logfSetmute true (logfi (.waiting (decide (sleepInterval ≠ 0)) handle) s)) = s₂ ∧
      s.replies = s₂.replies ∧ s₂.calls = s.calls ∧ s₂.reports = s.reports ∧
      s₂.fmpdrvInt = s.fmpdrvInt ∧ s₂.stdouton = s.stdouton ∧ s₂.logout = s.logout := by
    refine ⟨_, rfl, ?_⟩
    split
    · have hready := hwaiting.trans (keeps_logfi (.sleepInterval sleepInterval) nofun _)
      exact ⟨hready.replies, hready.calls.trans (List.append_nil _), hready.reports, hready.fmpdrvInt,
        hready.stdouton, hready.logout⟩
    · exact ⟨hwaiting.replies, hwaiting.calls.trans (List.append_nil _), hwaiting.reports,
        hwaiting.fmpdrvInt, hwaiting.stdouton, hwaiting.logout⟩
  obtain ⟨s₃, hpoll, hkeeps⟩ := pollWhilePlaying_of_replies (hint₂.trans hint) (hreplies.symm.trans h)
    hplaying hdone handle sleepInterval
  refine ⟨logfi (.doneWaiting handle (done.ax &&& 3)) (logfSetmute false s₃), ?_, ?_, ?_, ?_, ?_, ?_⟩
  · rw [rmWaitplay]
    dsimp only
    rw [hs₂, hpoll]
    rfl
  · rw [logfi_eq, calls_emit, lineEffects_called, List.append_nil, ← hcalls]
    exact hkeeps.calls
  · rw [logfi_eq, reports_emit, reports_doneWaiting, ← hreports, ← hstdouton, ← hlogout,
      ← hkeeps.stdouton, ← hkeeps.logout, ← hkeeps.reports]
    rfl
  · rw [logfi_eq]
    rfl
  · rw [logfi_eq, ← hstdouton, ← hkeeps.stdouton]
    rfl
  · rw [logfi_eq, ← hlogout, ← hkeeps.logout]
    rfl

end

theorem and_three_eq_self_iff (status : UInt16) : status &&& 3 = status ↔ status < 4 := by
  have hmod : status.toNat &&& 3 = status.toNat % 4 := Nat.and_two_pow_sub_one_eq_mod status.toNat 2
  rw [← UInt16.toNat_inj, UInt16.toNat_and, UInt16.lt_iff_toNat_lt]
  show status.toNat &&& 3 = status.toNat ↔ status.toNat < 4
  rw [hmod]
  omega

theorem onEachOutput_inj_iff (stdouton logout : Bool) (status status' : UInt16) :
    onEachOutput stdouton logout status = onEachOutput stdouton logout status' ↔
      status = status' ∨ stdouton = false ∧ logout = false := by
  unfold onEachOutput
  cases stdouton <;> cases logout <;> simp

-- The two agree exactly where the mask takes nothing from the status that ends the wait, or
-- nothing is logged at all, and the log was not muted.
theorem waits_agree_iff (handle : UInt8) (sleepInterval : UInt16) (linebuf : List UInt8) (s : Sdk)
    (w : World) (playing rest : List Regs) (done : Regs) (hint : s.fmpdrvInt = 0x80)
    (hs : s.replies = playing ++ done :: rest) (hw : w.replies = playing ++ done :: rest)
    (hplaying : ∀ reply ∈ playing, ¬IsDone reply) (hdone : IsDone done) :
    WaitsAgree handle sleepInterval linebuf s w playing done ↔
      s.muted = false ∧ (done.ax < 4 ∨ s.stdouton = false ∧ s.logout = false) := by
  have hmasked : ∀ reply ∈ playing, reply.ax &&& 3 = 0 := fun reply hreply =>
    not_not.mp (mt (isDone_iff reply).mpr (hplaying reply hreply))
  obtain ⟨s₁, hsdk, hcalls, hreports, hmuted, hstdouton, hlogout⟩ :=
    rmWaitplay_of_replies hint hs hmasked ((isDone_iff done).mp hdone) handle sleepInterval
  obtain ⟨w₁, hprobe, hinterrupts, hprobed, hswitches⟩ :=
    waitplay_of_replies hw hplaying hdone handle sleepInterval linebuf
  rw [← and_three_eq_self_iff, ← onEachOutput_inj_iff]
  constructor
  · rintro ⟨s', w', hok, _, _, _, hreported, _, hkept, _⟩
    obtain rfl := Except.ok.inj (hsdk.symm.trans hok)
    rw [hreports] at hreported
    exact ⟨hkept.symm.trans hmuted, List.append_cancel_left hreported⟩
  · rintro ⟨hkept, hreported⟩
    rw [hreported] at hreports
    exact ⟨s₁, w₁, hsdk, hprobe, hcalls, hinterrupts, hreports, hprobed, hmuted.trans hkept.symm,
      hstdouton, hlogout, hswitches⟩

def sampleSdk (replies : List Regs) : Sdk := ⟨0x80, 0, false, true, false, 0, replies, []⟩

-- The status with which a stopped stream ends the wait is its two low bits.
theorem waits_agree_stopped :
    WaitsAgree 1 5 [] (sampleSdk [⟨0, 0, 0, 0⟩, ⟨2, 0, 0, 7⟩]) (.start [⟨0, 0, 0, 0⟩, ⟨2, 0, 0, 7⟩])
        [⟨0, 0, 0, 0⟩] ⟨2, 0, 0, 7⟩ ↔
      false = false ∧ ((2 : UInt16) < 4 ∨ true = false ∧ false = false) :=
  waits_agree_iff 1 5 [] (sampleSdk [⟨0, 0, 0, 0⟩, ⟨2, 0, 0, 7⟩]) (.start [⟨0, 0, 0, 0⟩, ⟨2, 0, 0, 7⟩])
    [⟨0, 0, 0, 0⟩] [] ⟨2, 0, 0, 7⟩ rfl rfl rfl
    (by
      intro reply hreply
      rw [List.mem_singleton.mp hreply]
      decide)
    (by decide)

-- Of status 6 only the 2 is reported.
theorem status_masked :
    ¬∀ handle sleepInterval linebuf (s : Sdk) (w : World) (playing rest : List Regs) (done : Regs),
      s.fmpdrvInt = 0x80 → s.replies = playing ++ done :: rest → w.replies = playing ++ done :: rest →
        (∀ reply ∈ playing, ¬IsDone reply) → IsDone done →
          WaitsAgree handle sleepInterval linebuf s w playing done := by
  intro h
  obtain ⟨s', w', hok, _, _, _, hreported, _⟩ := h 1 0 [] (sampleSdk [⟨6, 0, 0, 0⟩])
    (.start [⟨6, 0, 0, 0⟩]) [] [] ⟨6, 0, 0, 0⟩ rfl rfl rfl nofun (by decide)
  have hreplies : (sampleSdk [⟨6, 0, 0, 0⟩]).replies = [] ++ ⟨6, 0, 0, 0⟩ :: [] := rfl
  obtain ⟨s₁, hsdk, _, hreports, _⟩ := rmWaitplay_of_replies rfl hreplies nofun (by decide) 1 0
  obtain rfl := Except.ok.inj (hsdk.symm.trans hok)
  rw [hreports] at hreported
  exact absurd hreported (by decide)

end ReelMagic.Rmsdk
