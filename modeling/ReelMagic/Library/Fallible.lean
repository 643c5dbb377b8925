import Mathlib.Init

namespace Library

variable {ε α β : Type*} {x : Except ε α} {f : α → Except ε β}

-- A computation in two parts gets through both, or stops in one of them.
theorem bind_eq_ok {b : β} (h : x.bind f = .ok b) : ∃ a, x = .ok a ∧ f a = .ok b := by
  cases x with
  | error stop => cases h
  | ok a => exact ⟨a, rfl, h⟩

theorem bind_eq_error {stop : ε} (h : x.bind f = .error stop) :
    x = .error stop ∨ ∃ a, x = .ok a ∧ f a = .error stop := by
  cases x with
  | error other =>
      obtain rfl := Except.error.inj h
      exact Or.inl rfl
  | ok a => exact Or.inr ⟨a, rfl, h⟩

-- Where what follows always returns, only the first part can have failed.
theorem eq_error_of_bind {stop : ε} (h : x.bind f = .error stop) (hf : ∀ a, ∃ b, f a = .ok b) :
    x = .error stop := by
  rcases bind_eq_error h with hx | ⟨a, _, ha⟩
  · exact hx
  · obtain ⟨b, hb⟩ := hf a
    cases hb.symm.trans ha

-- How a computation may end: a condition on what stops it and one on what it returns.
def Ends (stops : ε → Prop) (returns : α → Prop) : Except ε α → Prop
  | .error stop => stops stop
  | .ok a => returns a

section

variable {stops : ε → Prop} {returns : α → Prop} {returns' : β → Prop}

theorem Ends.bind (hx : Ends stops returns x) (hf : ∀ a, returns a → Ends stops returns' (f a)) :
    Ends stops returns' (x.bind f) := by
  cases x with
  | error stop => exact hx
  | ok a => exact hf a hx

theorem Ends.imp {stops' : ε → Prop} {weaker : α → Prop} (hx : Ends stops returns x)
    (hstops : ∀ stop, stops stop → stops' stop) (h : ∀ a, returns a → weaker a) :
    Ends stops' weaker x := by
  cases x with
  | error stop => exact hstops stop hx
  | ok a => exact h a hx

theorem Ends.mono {weaker : α → Prop} (hx : Ends stops returns x) (h : ∀ a, returns a → weaker a) :
    Ends stops weaker x :=
  hx.imp (fun _ hstop => hstop) h

theorem Ends.map {g : α → β} (hx : Ends stops (fun a => returns' (g a)) x) :
    Ends stops returns' (x.map g) := by
  cases x with
  | error stop => exact hx
  | ok a => exact hx

theorem Ends.of_map {g : α → β} (hx : Ends stops returns' (x.map g)) :
    Ends stops (fun a => returns' (g a)) x := by
  cases x with
  | error stop => exact hx
  | ok a => exact hx

-- A computation that is known to return something is known to return as it may.
theorem Ends.exists_of_toOption {g : α → β} {b : β} (hx : Ends stops returns x)
    (h : x.toOption.map g = some b) : ∃ a, x = .ok a ∧ g a = b ∧ returns a := by
  cases x with
  | error stop => cases h
  | ok a => exact ⟨a, rfl, Option.some.inj h, hx⟩

-- A loop over a list of steps, each of which keeps an invariant where it returns.
theorem Ends.foldlM {σ τ : Type*} {step : σ → τ → Except ε σ} {inv : σ → Prop}
    (hstep : ∀ s t, inv s → Ends stops inv (step s t)) (s : σ) (hs : inv s) (steps : List τ) :
    Ends stops inv (steps.foldlM step s) := by
  induction steps generalizing s with
  | nil => exact hs
  | cons t steps ih =>
      rw [List.foldlM_cons]
      exact Ends.bind (hstep s t hs) (fun s' hs' => ih s' hs')

end

-- Two computations come to the same, where both return and where both are stopped.
def Agree {ε' α' : Type*} (stops : ε → ε' → Prop) (returns : α → α' → Prop) :
    Except ε α → Except ε' α' → Prop
  | .ok a, .ok a' => returns a a'
  | .error stop, .error stop' => stops stop stop'
  | _, _ => False

theorem Agree.bind {ε' α' β' : Type*} {stops : ε → ε' → Prop} {returns : α → α' → Prop}
    {returns' : β → β' → Prop} {x' : Except ε' α'} {f' : α' → Except ε' β'}
    (hx : Agree stops returns x x') (hf : ∀ a a', returns a a' → Agree stops returns' (f a) (f' a')) :
    Agree stops returns' (x.bind f) (x'.bind f') := by
  cases x with
  | error stop =>
      cases x' with
      | error stop' => exact hx
      | ok a' => exact hx.elim
  | ok a =>
      cases x' with
      | error stop' => exact hx.elim
      | ok a' => exact hf a a' hx

end Library
