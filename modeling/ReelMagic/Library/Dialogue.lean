import ReelMagic.Library.Fallible

namespace Library

-- A machine that asks and is given a reply to each thing it asks. The replies that are pending
-- were chosen beforehand; `Along` relates the states before and after an exchange.
structure Asker (State Exchange Reply : Type*) where
  pending : State → List Reply
  reply : Exchange → Reply
  Along : State → List Exchange → State → Prop
  refl : ∀ s, Along s [] s
  trans : ∀ {s s₁ s₂ first later}, Along s first s₁ → Along s₁ later s₂ → Along s (first ++ later) s₂
  pending_eq : ∀ {s talk s'}, Along s talk s' → pending s = talk.map reply ++ pending s'

variable {State Exchange Reply ε α β γ δ : Type*} {m : Asker State Exchange Reply}

-- The runs of a computation are the talks of a language: each run that returns has had one, and
-- the computation returns wherever the replies of one are pending. `result` is what is returned
-- with a value and a state.
structure Conducts (m : Asker State Exchange Reply) (s : State) (result : α → State → γ)
    (talks : List Exchange → α → Prop) (x : Except ε γ) : Prop where
  sound : ∀ c, x = .ok c → ∃ talk a s', c = result a s' ∧ talks talk a ∧ m.Along s talk s'
  complete : ∀ talk a rest, talks talk a → m.pending s = talk.map m.reply ++ rest →
    ∃ s', x = .ok (result a s') ∧ m.Along s talk s'

-- One talk and then another, which may depend on the value of the first.
def following (first : List Exchange → α → Prop) (later : α → List Exchange → β → Prop)
    (talk : List Exchange) (b : β) : Prop :=
  ∃ a opening rest, talk = opening ++ rest ∧ first opening a ∧ later a rest b

theorem following_exchange {exchange : Reply → Exchange} {later : Reply → List Exchange → β → Prop}
    {r : Reply} {rest : List Exchange} {b : β} (h : later r rest b) :
    following (fun talk r => talk = [exchange r]) later (exchange r :: rest) b :=
  ⟨r, [exchange r], rest, rfl, rfl, h⟩

theorem following_nothing (talks : List Exchange → α → Prop) (talk : List Exchange) (a : α) :
    following talks (fun a talk b => talk = [] ∧ b = a) talk a ↔ talks talk a := by
  constructor
  · rintro ⟨_, opening, _, rfl, htalk, rfl, rfl⟩
    rwa [List.append_nil]
  · intro htalk
    exact ⟨a, talk, [], (List.append_nil _).symm, htalk, rfl, rfl⟩

section

variable {s s₁ : State} {result : α → State → γ} {result' : β → State → δ}
  {talks talks' : List Exchange → α → Prop} {x : Except ε γ} {f : γ → Except ε δ}

theorem Conducts.bind {later : α → List Exchange → β → Prop} (hx : Conducts m s result talks x)
    (hf : ∀ talk a s', x = .ok (result a s') → talks talk a → m.Along s talk s' →
      Conducts m s' result' (later a) (f (result a s'))) :
    Conducts m s result' (following talks later) (x.bind f) where
  sound := by
    intro c hc
    obtain ⟨b, hb, hret⟩ := bind_eq_ok hc
    obtain ⟨opening, a, s', rfl, hopening, hfirst⟩ := hx.sound b hb
    obtain ⟨rest, v, s₂, rfl, hrest, hlater⟩ := (hf opening a s' hb hopening hfirst).sound c hret
    exact ⟨opening ++ rest, v, s₂, rfl, ⟨a, opening, rest, rfl, hopening, hrest⟩,
      m.trans hfirst hlater⟩
  complete := by
    rintro talk v left ⟨a, opening, rest, rfl, hopening, hrest⟩ hpending
    rw [List.map_append, List.append_assoc] at hpending
    obtain ⟨s', hok, hfirst⟩ := hx.complete opening a _ hopening hpending
    rw [m.pending_eq hfirst] at hpending
    obtain ⟨s₂, hret, hlater⟩ := (hf opening a s' hok hopening hfirst).complete rest v left hrest
      (List.append_cancel_left hpending)
    refine ⟨s₂, ?_, m.trans hfirst hlater⟩
    rw [hok]
    exact hret

-- What returns at once says nothing.
theorem conducts_ok (a : α) (h : m.Along s [] s₁) :
    Conducts m s result (fun talk b => talk = [] ∧ b = a) (Except.ok (result a s₁) : Except ε γ) where
  sound := by
    intro c hc
    exact ⟨[], a, s₁, (Except.ok.inj hc).symm, ⟨rfl, rfl⟩, h⟩
  complete := by
    rintro talk b rest ⟨rfl, rfl⟩ _
    exact ⟨s₁, rfl, h⟩

theorem conducts_error (stop : ε) :
    Conducts m s result (fun _ _ => False) (Except.error stop : Except ε γ) where
  sound := fun _ hc => by cases hc
  complete := fun _ _ _ hfalse _ => hfalse.elim

theorem Conducts.congr (hx : Conducts m s result talks x)
    (h : ∀ talk a, talks talk a ↔ talks' talk a) : Conducts m s result talks' x where
  sound := by
    intro c hc
    obtain ⟨talk, a, s', hresult, htalk, halong⟩ := hx.sound c hc
    exact ⟨talk, a, s', hresult, (h talk a).mp htalk, halong⟩
  complete := fun talk a rest htalk hpending => hx.complete talk a rest ((h talk a).mpr htalk) hpending

-- An asker of which less is required has the same talks.
theorem Conducts.weaken {m' : Asker State Exchange Reply} (hx : Conducts m s result talks x)
    (hpending : m'.pending = m.pending) (hreply : m'.reply = m.reply)
    (h : ∀ s talk s', m.Along s talk s' → m'.Along s talk s') : Conducts m' s result talks x where
  sound := by
    intro c hc
    obtain ⟨talk, a, s', hresult, htalk, halong⟩ := hx.sound c hc
    exact ⟨talk, a, s', hresult, htalk, h s talk s' halong⟩
  complete := by
    intro talk a rest htalk hreplies
    rw [hpending, hreply] at hreplies
    obtain ⟨s', hok, halong⟩ := hx.complete talk a rest htalk hreplies
    exact ⟨s', hok, h s talk s' halong⟩

-- A branch on what is known beforehand.
theorem Conducts.ite {c : Prop} [Decidable c] {y : Except ε γ}
    (hx : c → Conducts m s result talks x) (hy : ¬c → Conducts m s result talks' y) :
    Conducts m s result (fun talk a => if c then talks talk a else talks' talk a)
      (if c then x else y) := by
  by_cases hc : c
  · simp only [if_pos hc]
    exact hx hc
  · simp only [if_neg hc]
    exact hy hc

-- What is done beforehand without asking anything is part of the run.
theorem Conducts.before (hbefore : m.Along s [] s₁) (hx : Conducts m s₁ result talks x) :
    Conducts m s result talks x where
  sound := by
    intro c hc
    obtain ⟨talk, a, s', hresult, htalk, halong⟩ := hx.sound c hc
    exact ⟨talk, a, s', hresult, htalk, m.trans hbefore halong⟩
  complete := by
    intro talk a rest htalk hpending
    obtain ⟨s', hok, halong⟩ := hx.complete talk a rest htalk
      ((m.pending_eq hbefore).symm.trans hpending)
    exact ⟨s', hok, m.trans hbefore halong⟩

-- The run of a part of a greater state, with its result seen from there. That state may still be
-- changed where nothing is asked.
theorem Conducts.lift {State' : Type*} {m' : Asker State' Exchange Reply} {t : State'}
    {result' : α → State' → δ} (hx : Conducts m s result talks x) (up : α → State → State')
    (hpending : m'.pending t = m.pending s) (hreply : m'.reply = m.reply)
    (halong : ∀ talk a s', m.Along s talk s' → m'.Along t talk (up a s'))
    (hf : ∀ a s', f (result a s') = .ok (result' a (up a s'))) :
    Conducts m' t result' talks (x.bind f) where
  sound := by
    intro c hc
    obtain ⟨b, hb, hret⟩ := bind_eq_ok hc
    obtain ⟨talk, a, s', rfl, htalk, hdone⟩ := hx.sound b hb
    rw [hf] at hret
    exact ⟨talk, a, up a s', (Except.ok.inj hret).symm, htalk, halong talk a s' hdone⟩
  complete := by
    intro talk a rest htalk hreplies
    rw [hpending, hreply] at hreplies
    obtain ⟨s', hok, hdone⟩ := hx.complete talk a rest htalk hreplies
    refine ⟨up a s', ?_, halong talk a s' hdone⟩
    rw [hok]
    exact hf a s'

theorem Conducts.map {result' : α → State → δ} (hx : Conducts m s result talks x)
    (after : α → State → State) (hf : ∀ a s', f (result a s') = .ok (result' a (after a s')))
    (hafter : ∀ a s', m.Along s' [] (after a s')) : Conducts m s result' talks (x.bind f) := by
  refine hx.lift after rfl rfl ?_ hf
  intro talk a s' halong
  have hlast := m.trans halong (hafter a s')
  rwa [List.append_nil] at hlast

theorem Conducts.returning {result' : α → State → δ} (hx : Conducts m s result talks x)
    (hf : ∀ a s', f (result a s') = .ok (result' a s')) :
    Conducts m s result' talks (x.bind f) :=
  hx.map (fun _ s' => s') hf fun _ s' => m.refl s'

-- One thing asked: without a reply there is no run, and with one there is.
theorem conducts_exchange {exchange : Reply → Exchange} {result : Reply → State → γ}
    (hreply : ∀ r, m.reply (exchange r) = r)
    (hnone : m.pending s = [] → ∃ stop, x = .error stop)
    (hsome : ∀ r rest, m.pending s = r :: rest → ∃ s', x = .ok (result r s') ∧
      m.Along s [exchange r] s') :
    Conducts m s result (fun talk r => talk = [exchange r]) x where
  sound := by
    intro c hc
    cases hpending : m.pending s with
    | nil =>
        obtain ⟨stop, hstop⟩ := hnone hpending
        cases hstop.symm.trans hc
    | cons r rest =>
        obtain ⟨s', hok, halong⟩ := hsome r rest hpending
        exact ⟨[exchange r], r, s', Except.ok.inj (hc.symm.trans hok), rfl, halong⟩
  complete := by
    rintro talk r rest rfl hpending
    rw [List.map_singleton, hreply] at hpending
    exact hsome r rest hpending

end

end Library
