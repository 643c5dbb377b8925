import ReelMagic.Player.Dialogue

namespace ReelMagic.Player

open Library
open ReelMagic.Recorder (FarPtr Regs)
open ReelMagic.Rmsdk (EndsWell InitSucceeds InitTalk Interrupt Memory Polled Sdk Stop
  conducts_rmClose conducts_rmGetStreamTypes conducts_rmInit conducts_rmOpen conducts_rmPlay
  conducts_rmReset conducts_rmSetZorder conducts_rmWaitplay driverCall endsWell_rmCallFmpdrv
  endsWell_rmCallRmdevsys endsWell_rmGet endsWell_rmSet endsWell_rmWaitplay rmInit rmProbeFmpdrvInt
  rmReset)

-- The calls up to the one that opens the file.
def openingCalls (ptr : FarPtr) (reset zorder opened : Regs) : List Interrupt :=
  [driverCall 0xE 0 0 0 0 reset, driverCall 0x9 0 0x40E 4 0 zorder,
    driverCall 1 0 0x0001 ptr.off ptr.seg opened]

-- What the driver is asked for one file, and how this ends. A file that is opened stays open
-- when its types cannot be told.
inductive FileTalk (ptr : FarPtr) : List Interrupt → Exit → Prop
  | openFailed {reset zorder opened : Regs} : opened.ax.toUInt8 = 0 →
      FileTalk ptr (openingCalls ptr reset zorder opened) .aborted
  | unreadable {reset zorder opened types : Regs} : opened.ax.toUInt8 ≠ 0 → types.ax = 0 →
      FileTalk ptr
        (openingCalls ptr reset zorder opened ++
          [driverCall 0xA opened.ax.toUInt8 0x202 0 0 types]) .aborted
  | played {reset zorder opened types playing done closed : Regs} {polls : List Interrupt} :
      opened.ax.toUInt8 ≠ 0 → types.ax ≠ 0 → Polled opened.ax.toUInt8 polls done →
        FileTalk ptr
          (openingCalls ptr reset zorder opened ++
            [driverCall 0xA opened.ax.toUInt8 0x202 0 0 types,
              driverCall 0x3 opened.ax.toUInt8 1 0 0 playing] ++ polls ++
            [driverCall 2 opened.ax.toUInt8 0 0 0 closed]) (.returned 0)

-- What is asked once the types are known.
def afterTypes (handle : UInt8) (types : Regs) (talk : List Interrupt) (exit : Exit) : Prop :=
  if types.ax = 0 then talk = [] ∧ exit = .aborted
  else
    following (fun talk reply => talk = [driverCall 0x3 handle 1 0 0 reply])
      (fun _ => following (Polled handle) fun _ =>
        following (fun talk reply => talk = [driverCall 2 handle 0 0 0 reply]) fun _ talk exit =>
          talk = [] ∧ exit = .returned 0)
      talk exit

def afterOpen (opened : Regs) (talk : List Interrupt) (exit : Exit) : Prop :=
  if opened.ax.toUInt8 = 0 then talk = [] ∧ exit = .aborted
  else
    following (fun talk types => talk = [driverCall 0xA opened.ax.toUInt8 0x202 0 0 types])
      (afterTypes opened.ax.toUInt8) talk exit

theorem fileTalk_iff (ptr : FarPtr) (talk : List Interrupt) (exit : Exit) :
    following (fun talk reset => talk = [driverCall 0xE 0 0 0 0 reset])
      (fun _ => following (fun talk zorder => talk = [driverCall 0x9 0 0x40E 4 0 zorder]) fun _ =>
        following (fun talk opened => talk = [driverCall 1 0 0x0001 ptr.off ptr.seg opened]) afterOpen)
      talk exit ↔ FileTalk ptr talk exit := by
  constructor
  · rintro ⟨reset, _, _, rfl, rfl, zorder, _, _, rfl, rfl, opened, _, _, rfl, rfl, hopened⟩
    unfold afterOpen at hopened
    split at hopened
    · rename_i hfailed
      obtain ⟨rfl, rfl⟩ := hopened
      exact .openFailed hfailed
    rename_i hhandle
    obtain ⟨types, _, _, rfl, rfl, htypes⟩ := hopened
    unfold afterTypes at htypes
    split at htypes
    · rename_i hunreadable
      obtain ⟨rfl, rfl⟩ := htypes
      exact .unreadable hhandle hunreadable
    rename_i hreadable
    obtain ⟨playing, _, _, rfl, rfl, done, polls, _, rfl, hpolls, closed, _, _, rfl, rfl, rfl, rfl⟩ :=
      htypes
    have htalk : FileTalk ptr
        (openingCalls ptr reset zorder opened ++
          [driverCall 0xA opened.ax.toUInt8 0x202 0 0 types,
            driverCall 0x3 opened.ax.toUInt8 1 0 0 playing] ++ polls ++
          [driverCall 2 opened.ax.toUInt8 0 0 0 closed]) (.returned 0) :=
      .played hhandle hreadable hpolls
    simpa [openingCalls] using htalk
  · intro h
    cases h with
    | openFailed hfailed =>
        refine following_exchange (following_exchange (following_exchange ?_))
        rw [afterOpen, if_pos hfailed]
        exact ⟨rfl, rfl⟩
    | unreadable hhandle hunreadable =>
        refine following_exchange (following_exchange (following_exchange ?_))
        rw [afterOpen, if_neg hhandle]
        refine following_exchange ?_
        rw [afterTypes, if_pos hunreadable]
        exact ⟨rfl, rfl⟩
    | @played _ _ _ _ _ done _ polls hhandle hreadable hpolls =>
        rw [List.append_assoc]
        refine following_exchange (following_exchange (following_exchange ?_))
        rw [afterOpen, if_neg hhandle]
        refine following_exchange ?_
        rw [afterTypes, if_neg hreadable]
        refine following_exchange ⟨done, polls, _, rfl, hpolls, ?_⟩
        exact following_exchange ⟨rfl, rfl⟩

section

variable {p : Program}

theorem conducts_playFile (hint : p.sdk.fmpdrvInt = 0x80) (filename : List UInt8) (ptr : FarPtr) :
    Conducts (programAsker True) p Prod.mk (FileTalk ptr) (playFile filename ptr p) := by
  refine (Conducts.bind (conducts_perform fun _ hs => conducts_rmReset (hs.trans hint)) ?_).congr
    (fileTalk_iff ptr)
  intro _ _ p₁ _ _ hreset
  have hint₁ := (hreset.fmpdrvInt trivial).trans hint
  refine Conducts.bind (conducts_perform fun _ hs => conducts_rmSetZorder (hs.trans hint₁) 0 4) ?_
  intro _ _ p₂ _ _ hzorder
  have hint₂ := (hzorder.fmpdrvInt trivial).trans hint₁
  refine Conducts.bind (conducts_ask fun _ hs => conducts_rmOpen (hs.trans hint₂) ptr 0x0001) ?_
  intro _ opened p₃ _ _ hopened
  have hint₃ := (hopened.fmpdrvInt trivial).trans hint₂
  refine Conducts.ite ?_ ?_
  · intro _
    exact conducts_ok Exit.aborted (asks_logfAbort True (.openFailed filename) p₃)
  intro _
  refine Conducts.bind (conducts_ask fun _ hs =>
    conducts_rmGetStreamTypes (hs.trans hint₃) opened.ax.toUInt8) ?_
  intro _ types p₄ _ _ htypes
  have hint₄ := (htypes.fmpdrvInt trivial).trans hint₃
  refine Conducts.ite ?_ ?_
  · intro _
    exact conducts_ok Exit.aborted (asks_logfAbort True (.errorReading filename) p₄)
  intro _
  have hdetected := asks_logAt True 0
    (.streamsDetected (types.ax &&& 2 ≠ 0) (types.ax &&& 1 ≠ 0)) p₄
  refine Conducts.before hdetected ?_
  have hint₅ := (hdetected.fmpdrvInt trivial).trans hint₄
  refine Conducts.bind (conducts_perform fun _ hs =>
    conducts_rmPlay (hs.trans hint₅) opened.ax.toUInt8 1) ?_
  intro _ _ p₆ _ _ hplaying
  have hint₆ := (hplaying.fmpdrvInt trivial).trans hint₅
  refine Conducts.bind (conducts_perform fun _ hs =>
    conducts_rmWaitplay (hs.trans hint₆) opened.ax.toUInt8) ?_
  intro _ _ p₇ _ _ hpolled
  have hint₇ := (hpolled.fmpdrvInt trivial).trans hint₆
  refine Conducts.bind (conducts_perform fun _ hs =>
    conducts_rmClose (hs.trans hint₇) opened.ax.toUInt8) ?_
  intro _ _ p₈ _ _ _
  exact conducts_ok (Exit.returned 0) (Program.Asks.refl True p₈)

-- The calls are given up when the driver is at another interrupt.
theorem playFile_of_ne (hint : p.sdk.fmpdrvInt ≠ 0x80) (filename : List UInt8) (ptr : FarPtr) :
    playFile filename ptr p = .error .aborted := by
  have hreset : p.perform rmReset = .error .aborted := by
    unfold Program.perform rmReset Rmsdk.rmCallFmpdrv
    rw [if_pos hint]
    rfl
  unfold playFile
  rw [hreset]
  rfl

end

-- What a whole run asks. With a driver that is found at another interrupt than 80h it is not a
-- session.
inductive RunTalk (found : Surroundings) : List Interrupt → Exit → Prop
  | noLogfile : found.opened = false → RunTalk found [] .aborted
  | usage : found.opened = true → found.argc ≠ 2 → RunTalk found [] (.returned 1)
  | initFailed {talk : List Interrupt} : found.opened = true → found.argc = 2 →
      InitTalk found.memory found.loc talk 0 → RunTalk found talk .aborted
  | file {talk later : List Interrupt} {exit : Exit} : found.opened = true → found.argc = 2 →
      InitTalk found.memory found.loc talk 1 → rmProbeFmpdrvInt found.memory = 0x80 →
        FileTalk found.ptr later exit → RunTalk found (talk ++ later) exit

-- What is asked once `rm_init` has returned.
def afterInit (found : Surroundings) (rv : Int) (talk : List Interrupt) (exit : Exit) : Prop :=
  if rv = 0 then talk = [] ∧ exit = .aborted
  else rmProbeFmpdrvInt found.memory = 0x80 ∧ FileTalk found.ptr talk exit

theorem initTalk_eq_one {memory : Memory} {loc : FarPtr} {talk : List Interrupt} {rv : Int}
    (h : InitTalk memory loc talk rv) (hrv : rv ≠ 0) : rv = 1 := by
  cases h with
  | found => rfl
  | _ => exact absurd rfl hrv

theorem runTalk_iff {found : Surroundings} (hopened : found.opened = true) (hargc : found.argc = 2)
    (talk : List Interrupt) (exit : Exit) :
    following (InitTalk found.memory found.loc) (afterInit found) talk exit ↔
      RunTalk found talk exit := by
  constructor
  · rintro ⟨rv, opening, rest, rfl, hinit, hrest⟩
    unfold afterInit at hrest
    split at hrest
    · rename_i hfailed
      obtain ⟨rfl, rfl⟩ := hrest
      rw [hfailed] at hinit
      rw [List.append_nil]
      exact .initFailed hopened hargc hinit
    · rename_i hok
      rw [initTalk_eq_one hinit hok] at hinit
      exact .file hopened hargc hinit hrest.1 hrest.2
  · intro h
    cases h with
    | noLogfile hclosed => exact absurd (hclosed.symm.trans hopened) (by decide)
    | usage _ hne => exact absurd hargc hne
    | initFailed _ _ hinit =>
        refine ⟨0, talk, [], (List.append_nil _).symm, hinit, ?_⟩
        rw [afterInit, if_pos rfl]
        exact ⟨rfl, rfl⟩
    | file _ _ hinit hint hfile =>
        refine ⟨1, _, _, rfl, hinit, ?_⟩
        rw [afterInit, if_neg (by decide)]
        exact ⟨hint, hfile⟩

theorem exit_of_fileTalk {ptr : FarPtr} {talk : List Interrupt} {exit : Exit}
    (h : FileTalk ptr talk exit) : exit = .aborted ∨ exit = .returned 0 := by
  cases h with
  | played => exact Or.inr rfl
  | _ => exact Or.inl rfl

section

variable {found : Surroundings} {p q : Program}

-- What `logf_openlogfile` leaves when the file can be opened.
def Program.withLogfile (p : Program) : Program :=
  { p.logfCloselogfile with
    sdk := { p.logfCloselogfile.sdk with logout := true } }.logfi .logfileOpened

theorem asks_withLogfile (p : Program) : p.Asks False [] p.withLogfile := by
  have hclosed := asks_logfCloselogfile False p
  have hopened : p.Asks False [] { p.logfCloselogfile with
      sdk := { p.logfCloselogfile.sdk with logout := true } } :=
    ⟨hclosed.replies, hclosed.interrupts, False.elim⟩
  exact hopened.trans (asks_logAt False _ .logfileOpened _)

-- The vector that `rm_init` leaves when it does not fail.
theorem fmpdrvInt_of_ask {rv : Int}
    (h : p.ask (rmInit found.memory found.loc found.location) = .ok (rv, q)) (hrv : rv ≠ 0) :
    q.sdk.fmpdrvInt = rmProbeFmpdrvInt found.memory := by
  obtain ⟨⟨value, s⟩, hinit, hret⟩ := bind_eq_ok h
  obtain ⟨rfl, rfl⟩ := Prod.mk.inj (Except.ok.inj hret)
  have hsucceeds : InitSucceeds found.memory found.loc found.location { p.sdk with effects := [] } s :=
    ⟨value, hinit, hrv⟩
  exact hsucceeds.spec.2.2

theorem conducts_file (hint : q.sdk.fmpdrvInt = rmProbeFmpdrvInt found.memory) :
    Conducts (programAsker False) q Prod.mk
      (fun talk exit => rmProbeFmpdrvInt found.memory = 0x80 ∧ FileTalk found.ptr talk exit)
      ((playFile found.filename found.ptr q).bind fun played =>
        if played.1 = .aborted then .ok played else .ok (.returned 0, played.2.logfCloselogfile)) := by
  by_cases hprobe : rmProbeFmpdrvInt found.memory = 0x80
  · have hplayed : Conducts (programAsker False) q Prod.mk (FileTalk found.ptr)
        (playFile found.filename found.ptr q) :=
      (conducts_playFile (hint.trans hprobe) found.filename found.ptr).weaken rfl rfl
        fun _ _ _ h => ⟨h.replies, h.interrupts, False.elim⟩
    refine (hplayed.bind ?_).congr fun talk exit =>
      (following_nothing (FileTalk found.ptr) talk exit).trans (and_iff_right hprobe).symm
    intro talk exit r _ htalk _
    rcases exit_of_fileTalk htalk with rfl | rfl
    · exact conducts_ok Exit.aborted (Program.Asks.refl False r)
    · exact conducts_ok (Exit.returned 0) (asks_logfCloselogfile False r)
  · rw [playFile_of_ne (fun heq => hprobe (hint.symm.trans heq))]
    refine (conducts_error Stop.aborted).congr ?_
    intro talk exit
    exact ⟨False.elim, fun h => hprobe h.1⟩

theorem conducts_main (found : Surroundings) (p : Program) :
    Conducts (programAsker False) p Prod.mk (RunTalk found) (main found p) := by
  unfold main
  cases hopened : found.opened with
  | false =>
      refine (conducts_ok Exit.aborted ((asks_logfCloselogfile False p).trans
        (asks_logfAbort False .logfileFailed p.logfCloselogfile))).congr ?_
      intro talk exit
      constructor
      · rintro ⟨rfl, rfl⟩
        exact .noLogfile hopened
      · intro h
        cases h with
        | noLogfile => exact ⟨rfl, rfl⟩
        | usage hopen => exact absurd (hopened.symm.trans hopen) (by decide)
        | initFailed hopen => exact absurd (hopened.symm.trans hopen) (by decide)
        | file hopen => exact absurd (hopened.symm.trans hopen) (by decide)
  | true =>
      refine Conducts.before (asks_withLogfile p) ?_
      by_cases hargc : found.argc = 2
      · refine Conducts.congr ?_ (runTalk_iff hopened hargc)
        show Conducts _ _ _ _ (if found.argc ≠ 2 then _ else _)
        rw [if_neg (not_not.mpr hargc)]
        refine Conducts.bind (conducts_ask fun s _ =>
          conducts_rmInit found.memory found.loc found.location s) ?_
        intro _ rv q hinit _ _
        refine Conducts.ite ?_ ?_
        · intro _
          exact conducts_ok Exit.aborted (asks_logfAbort False .initFailed q)
        · intro hrv
          exact conducts_file (fmpdrvInt_of_ask hinit hrv)
      · show Conducts _ _ _ _ (if found.argc ≠ 2 then _ else _)
        rw [if_pos hargc]
        refine (conducts_ok (Exit.returned 1) (asks_logAt False 0 .usage _)).congr ?_
        intro talk exit
        constructor
        · rintro ⟨rfl, rfl⟩
          exact .usage hopened hargc
        · intro h
          cases h with
          | noLogfile hclosed => exact absurd (hclosed.symm.trans hopened) (by decide)
          | usage => exact ⟨rfl, rfl⟩
          | initFailed _ htwo => exact absurd htwo hargc
          | file _ htwo => exact absurd htwo hargc

theorem logout_logAt (indent : Nat) (line : Line) (p : Program) :
    (p.logAt indent line).sdk.logout = p.sdk.logout := by
  unfold Program.logAt
  split <;> rfl

theorem logout_logfCloselogfile (p : Program) : p.logfCloselogfile.sdk.logout = false := by
  unfold Program.logfCloselogfile
  split
  · rfl
  · rename_i hclosed
    exact eq_false_of_ne_true hclosed

-- How a run leaves the log file: open after the usage, and else closed.
def LeavesLog (result : Exit × Program) : Prop :=
  result.2.sdk.logout = true ↔ result.1 = .returned 1

theorem leavesLog_abort (line : Line) (p : Program) : LeavesLog (p.logfAbort line) := by
  have hclosed : (p.logfAbort line).2.sdk.logout = false := logout_logfCloselogfile _
  unfold LeavesLog
  rw [hclosed]
  exact ⟨fun h => absurd h (by decide), fun h => by cases h⟩

theorem leavesLog_closed (p : Program) : LeavesLog (.returned 0, p.logfCloselogfile) := by
  unfold LeavesLog
  rw [logout_logfCloselogfile]
  exact ⟨fun h => absurd h (by decide), fun h => absurd (Exit.returned.inj h) (by decide)⟩

-- `play_file` aborts with the log closed, or returns 0.
theorem ends_playFile (filename : List UInt8) (ptr : FarPtr) (p : Program) :
    Ends (fun _ => True) (fun result => result.1 = .aborted ∧ LeavesLog result ∨ result.1 = .returned 0)
      (playFile filename ptr p) := by
  have hany : ∀ {α : Type} (x : Except Stop α), Ends (fun _ => True) (fun _ => True) x := by
    intro α x
    cases x <;> trivial
  refine Ends.bind (hany _) fun p₁ _ => Ends.bind (hany _) fun p₂ _ => Ends.bind (hany _) ?_
  rintro ⟨handle, p₃⟩ _
  dsimp only
  split
  · exact Or.inl ⟨rfl, leavesLog_abort _ p₃⟩
  refine Ends.bind (hany _) ?_
  rintro ⟨types, p₄⟩ _
  dsimp only
  split
  · exact Or.inl ⟨rfl, leavesLog_abort _ p₄⟩
  refine Ends.bind (hany _) fun p₅ _ => Ends.bind (hany _) fun p₆ _ => Ends.bind (hany _) fun p₇ _ => ?_
  exact Or.inr rfl

theorem ends_main (found : Surroundings) (p : Program) :
    Ends (fun _ => True) LeavesLog (main found p) := by
  unfold main
  cases hopened : found.opened with
  | false => exact leavesLog_abort .logfileFailed p.logfCloselogfile
  | true =>
      show Ends _ _ (if found.argc ≠ 2 then _ else _)
      split
      · refine ⟨fun _ => rfl, fun _ => ?_⟩
        show (Program.logAt _ _ _).sdk.logout = true
        rw [logout_logAt]
        exact logout_logAt _ _ _
      cases hinit : Program.ask (rmInit found.memory found.loc found.location) _ with
      | error stop => trivial
      | ok asked =>
          show Ends _ _ (if asked.1 = 0 then _ else _)
          split
          · exact leavesLog_abort .initFailed asked.2
          refine Ends.bind (ends_playFile found.filename found.ptr asked.2) ?_
          rintro ⟨exit, q⟩ (⟨hexit, hleaves⟩ | hexit)
          · show Ends _ _ (if exit = .aborted then _ else _)
            rw [if_pos hexit]
            exact hleaves
          · have hnot : exit ≠ .aborted := by
              rw [show exit = _ from hexit]
              exact fun h => by cases h
            show Ends _ _ (if exit = .aborted then _ else _)
            rw [if_neg hnot]
            exact leavesLog_closed q

-- Once the vector is 80h, the functions of the library are not given up.
theorem ends_perform {function : Sdk → Except Stop Sdk}
    (h : ∀ s : Sdk, s.fmpdrvInt = p.sdk.fmpdrvInt → EndsWell id s (function s)) :
    Ends (· ≠ .aborted) (fun q => q.sdk.fmpdrvInt = p.sdk.fmpdrvInt) (p.perform function) := by
  refine Ends.bind (h { p.sdk with effects := [] } rfl) ?_
  intro s hcontinues
  exact hcontinues.1

theorem ends_ask {α : Type} {function : Sdk → Except Stop (α × Sdk)}
    (h : ∀ s : Sdk, s.fmpdrvInt = p.sdk.fmpdrvInt → EndsWell Prod.snd s (function s)) :
    Ends (· ≠ .aborted) (fun result => result.2.sdk.fmpdrvInt = p.sdk.fmpdrvInt)
      (p.ask function) := by
  refine Ends.bind (h { p.sdk with effects := [] } rfl) ?_
  rintro ⟨value, s⟩ hcontinues
  exact hcontinues.1

theorem playFile_ne_aborted (hint : p.sdk.fmpdrvInt = 0x80) (filename : List UInt8)
    (ptr : FarPtr) : Ends (· ≠ .aborted) (fun _ => True) (playFile filename ptr p) := by
  refine Ends.bind (ends_perform fun _ hs =>
    (endsWell_rmCallFmpdrv (hs.trans hint) 0xE 0 0 0 0).dropped) ?_
  intro p₁ h₁
  have hint₁ := h₁.trans hint
  refine Ends.bind (ends_perform fun _ hs => endsWell_rmSet (hs.trans hint₁) 0 0x40E 4 0) ?_
  intro p₂ h₂
  have hint₂ := h₂.trans hint₁
  refine Ends.bind (ends_ask fun _ hs =>
    (endsWell_rmCallFmpdrv (hs.trans hint₂) 1 0 0x0001 ptr.off ptr.seg).converted
      UInt32.toUInt8) ?_
  rintro ⟨handle, p₃⟩ h₃
  have hint₃ := h₃.trans hint₂
  dsimp only
  split
  · trivial
  refine Ends.bind (ends_ask fun _ hs =>
    (endsWell_rmGet (hs.trans hint₃) handle 0x202).converted UInt32.toUInt16) ?_
  rintro ⟨types, p₄⟩ h₄
  dsimp only
  split
  · trivial
  have hdetected := asks_logAt True 0 (.streamsDetected (types &&& 2 ≠ 0) (types &&& 1 ≠ 0)) p₄
  have hint₄ := (hdetected.fmpdrvInt trivial).trans (h₄.trans hint₃)
  refine Ends.bind (ends_perform fun _ hs =>
    (endsWell_rmCallFmpdrv (hs.trans hint₄) 0x3 handle 1 0 0).dropped) ?_
  intro p₅ h₅
  have hint₅ := h₅.trans hint₄
  refine Ends.bind (ends_perform fun _ hs => endsWell_rmWaitplay (hs.trans hint₅) handle 0) ?_
  intro p₆ h₆
  refine Ends.bind (ends_perform fun _ hs =>
    (endsWell_rmCallFmpdrv (hs.trans (h₆.trans hint₅)) 2 handle 0 0 0).dropped) ?_
  intro _ _
  trivial

theorem rmInit_ne_aborted (memory : Memory) (loc : FarPtr) (location : List UInt8) (s : Sdk) :
    Ends (· ≠ .aborted) (fun _ => True) (rmInit memory loc location s) := by
  refine Ends.bind (endsWell_rmCallRmdevsys 0 0 0 0) ?_
  rintro ⟨signature, s₁⟩ _
  dsimp only
  split
  · trivial
  refine Ends.bind (endsWell_rmCallRmdevsys 0 1 0 0) ?_
  rintro ⟨version, s₂⟩ _
  refine Ends.bind (endsWell_rmCallRmdevsys 3 loc.off 0 loc.seg).dropped ?_
  intro s₃ _
  split
  · trivial
  · trivial

theorem rmInit_ask_ne_aborted (found : Surroundings) (p : Program) :
    p.ask (rmInit found.memory found.loc found.location) ≠ .error .aborted := by
  intro haborted
  have hinit := rmInit_ne_aborted found.memory found.loc found.location { p.sdk with effects := [] }
  rw [eq_error_of_bind haborted fun result => ⟨_, rfl⟩] at hinit
  exact hinit rfl

theorem playFile_closed_ne_aborted (hint : p.sdk.fmpdrvInt = 0x80) (filename : List UInt8)
    (ptr : FarPtr) :
    ((playFile filename ptr p).bind fun played =>
      if played.1 = .aborted then .ok played
      else .ok (.returned 0, played.2.logfCloselogfile)) ≠ .error .aborted := by
  intro haborted
  have hplayed := playFile_ne_aborted hint filename ptr
  have hstop := eq_error_of_bind haborted fun played => by
    split
    · exact ⟨_, rfl⟩
    · exact ⟨_, rfl⟩
  rw [hstop] at hplayed
  exact hplayed rfl

theorem main_of_file (hopened : found.opened = true) (hargc : found.argc = 2) (p : Program) :
    main found p =
      (p.withLogfile.ask (rmInit found.memory found.loc found.location)).bind fun asked =>
        if asked.1 = 0 then .ok (asked.2.logfAbort .initFailed)
        else
          (playFile found.filename found.ptr asked.2).bind fun played =>
            if played.1 = .aborted then .ok played
            else .ok (.returned 0, played.2.logfCloselogfile) := by
  unfold main
  rw [hopened]
  show (if found.argc ≠ 2 then _ else _) = _
  rw [if_neg (not_not.mpr hargc)]
  rfl

-- The abort in the first call of a driver that is found, but not at INT 80h.
theorem main_aborted_iff (found : Surroundings) (p : Program) :
    main found p = .error .aborted ↔
      found.opened = true ∧ found.argc = 2 ∧ rmProbeFmpdrvInt found.memory ≠ 0x80 ∧
        ∃ talk, InitTalk found.memory found.loc talk 1 ∧
          talk.map Interrupt.reply <+: p.sdk.replies := by
  have hask : Conducts (programAsker False) p.withLogfile Prod.mk (InitTalk found.memory found.loc)
      (p.withLogfile.ask (rmInit found.memory found.loc found.location)) :=
    conducts_ask fun s _ => conducts_rmInit found.memory found.loc found.location s
  have hinit := hask.before (asks_withLogfile p)
  constructor
  · intro haborted
    cases hopened : found.opened with
    | false =>
        unfold main at haborted
        rw [hopened] at haborted
        cases haborted
    | true =>
        by_cases hargc : found.argc = 2
        · rw [main_of_file hopened hargc] at haborted
          obtain ⟨⟨rv, q⟩, hok, hrest⟩ := (bind_eq_error haborted).resolve_left fun hstop =>
            (rmInit_ask_ne_aborted found p.withLogfile) hstop
          by_cases hrv : rv = 0
          · rw [if_pos hrv] at hrest
            cases hrest
          rw [if_neg hrv] at hrest
          refine ⟨rfl, hargc, ?_, ?_⟩
          · intro hprobe
            have hint := (fmpdrvInt_of_ask hok hrv).trans hprobe
            exact playFile_closed_ne_aborted hint found.filename found.ptr hrest
          · obtain ⟨talk, value, r, heq, htalk, halong⟩ := hinit.sound _ hok
            obtain ⟨rfl, rfl⟩ := Prod.mk.inj heq
            rw [initTalk_eq_one htalk hrv] at htalk
            exact ⟨talk, htalk, q.sdk.replies, halong.replies.symm⟩
        · unfold main at haborted
          rw [hopened] at haborted
          have husage : (if found.argc ≠ 2 then _ else _) = Except.error Stop.aborted := haborted
          rw [if_pos hargc] at husage
          cases husage
  · rintro ⟨hopened, hargc, hprobe, talk, htalk, rest, hrest⟩
    obtain ⟨q, hok, _⟩ := hinit.complete talk 1 rest htalk hrest.symm
    have hint := fmpdrvInt_of_ask hok (by decide)
    rw [main_of_file hopened hargc, hok]
    show (playFile found.filename found.ptr q).bind _ = _
    rw [playFile_of_ne (fun heq => hprobe (hint.symm.trans heq))]
    rfl

end

-- The runs that come to an end are the sessions: `main` ends with this exit after these
-- interrupts exactly where they are a session and their replies are the first to come. The one
-- other end is the abort in the first call of a driver that is found, but not at INT 80h.
theorem player_ends_iff (found : Surroundings) (replies : List Regs) :
    (∀ talk exit,
      (∃ p, main found (.start replies) = .ok (exit, p) ∧ p.interrupts = talk ∧
        (p.sdk.logout = true ↔ exit = .returned 1)) ↔
        RunTalk found talk exit ∧ talk.map Interrupt.reply <+: replies) ∧
      (main found (.start replies) = .error .aborted ↔
        found.opened = true ∧ found.argc = 2 ∧ rmProbeFmpdrvInt found.memory ≠ 0x80 ∧
          ∃ talk, InitTalk found.memory found.loc talk 1 ∧
            talk.map Interrupt.reply <+: replies) := by
  have hmain := conducts_main found (.start replies)
  have hlog := ends_main found (.start replies)
  refine ⟨fun talk exit => ⟨?_, ?_⟩, main_aborted_iff found (.start replies)⟩
  · rintro ⟨p, hok, hinterrupts, _⟩
    obtain ⟨session, ended, q, heq, htalk, halong⟩ := hmain.sound _ hok
    obtain ⟨rfl, rfl⟩ := Prod.mk.inj heq
    have hsession : talk = session := hinterrupts.symm.trans halong.interrupts
    rw [hsession]
    exact ⟨htalk, p.sdk.replies, halong.replies.symm⟩
  · rintro ⟨htalk, rest, hrest⟩
    obtain ⟨p, hok, halong⟩ := hmain.complete talk exit rest htalk hrest.symm
    rw [hok] at hlog
    exact ⟨p, hok, halong.interrupts, hlog⟩

end ReelMagic.Player
