import Mathlib.Data.List.Induction

namespace Library

variable {σ ε : Type*}

-- The states a labelled step relation reaches from `start`, with the labels on the way.
inductive Run (start : σ) (step : σ → ε → σ → Prop) : List ε → σ → Prop
  | nil : Run start step [] start
  | snoc {events : List ε} {s next : σ} {event : ε} :
      Run start step events s → step s event next → Run start step (events ++ [event]) next

namespace Run

variable {start : σ} {step : σ → ε → σ → Prop}

-- What holds at the start and is kept by every step holds in every state reached. The
-- property may speak of the labels seen so far.
theorem invariant {events : List ε} {s : σ} (P : List ε → σ → Prop)
    (run : Run start step events s) (hstart : P [] start)
    (hstep : ∀ events s event next, P events s → step s event next → P (events ++ [event]) next) :
    P events s := by
  induction run with
  | nil => exact hstart
  | snoc _ h ih => exact hstep _ _ _ _ ih h

-- One run may go on where another has ended.
theorem append {mid s : σ} {events after : List ε} (run : Run start step events mid)
    (more : Run mid step after s) : Run start step (events ++ after) s := by
  induction more with
  | nil =>
      rw [List.append_nil]
      exact run
  | snoc _ h ih =>
      rw [← List.append_assoc]
      exact .snoc ih h

theorem cons {mid s : σ} {event : ε} {events : List ε} (h : step start event mid)
    (run : Run mid step events s) : Run start step (event :: events) s :=
  (Run.snoc .nil h).append run

theorem last {s : σ} {event : ε} {events : List ε} (run : Run start step (events ++ [event]) s) :
    ∃ mid, Run start step events mid ∧ step mid event s := by
  generalize hall : events ++ [event] = all at run
  cases run with
  | nil => exact absurd hall (by simp)
  | snoc run h =>
      obtain ⟨rfl, hevent⟩ := List.append_inj' hall rfl
      obtain rfl := List.singleton_inj.mp hevent
      exact ⟨_, run, h⟩

-- A run passes through a state before each of its events.
theorem split {s : σ} {event : ε} {events after : List ε}
    (run : Run start step (events ++ event :: after) s) :
    ∃ mid next, Run start step events mid ∧ step mid event next := by
  induction after using List.reverseRecOn generalizing s with
  | nil =>
      obtain ⟨mid, hbefore, h⟩ := run.last
      exact ⟨mid, s, hbefore, h⟩
  | append_singleton after last ih =>
      rw [← List.cons_append, ← List.append_assoc] at run
      obtain ⟨mid, hbefore, _⟩ := run.last
      exact ih hbefore

-- A run of a step function, from its evaluation.
theorem of_foldlM {f : σ → ε → Option σ} (events : List ε) {s : σ}
    (h : events.foldlM f start = some s) : Run start (fun s event next => f s event = some next) events s := by
  induction events using List.reverseRecOn generalizing s with
  | nil =>
      obtain rfl := Option.some.inj h
      exact .nil
  | append_singleton events event ih =>
      rw [List.foldlM_append] at h
      cases hbefore : events.foldlM f start with
      | none =>
          rw [hbefore] at h
          cases h
      | some before =>
          rw [hbefore] at h
          refine .snoc (ih hbefore) ?_
          simpa using h

-- What holds at every step of a run. It may speak of the labels before the step and of the
-- states around it.
def Always (start : σ) (step : σ → ε → σ → Prop) (events : List ε) (P : List ε → σ → ε → σ → Prop) :
    Prop :=
  ∀ before event after s next, events = before ++ event :: after → Run start step before s →
    step s event next → P before s event next

theorem Always.of_append {events after : List ε} {P : List ε → σ → ε → σ → Prop}
    (h : Always start step (events ++ after) P) : Always start step events P := by
  rintro before event rest s next rfl run hstep
  refine h before event (rest ++ after) s next ?_ run hstep
  rw [List.append_assoc, List.cons_append]

theorem Always.last {events : List ε} {event : ε} {s next : σ} {P : List ε → σ → ε → σ → Prop}
    (h : Always start step (events ++ [event]) P) (run : Run start step events s)
    (hstep : step s event next) : P events s event next :=
  h events event [] s next rfl run hstep

-- Two properties hold at every step of the same runs if each step of a run has both or neither.
theorem always_congr {events : List ε} {P Q : List ε → σ → ε → σ → Prop}
    (h : ∀ before s event next, Run start step before s → step s event next →
      (P before s event next ↔ Q before s event next)) :
    Always start step events P ↔ Always start step events Q := by
  constructor
  · intro halways before event after s next heq run hstep
    exact (h before s event next run hstep).mp (halways before event after s next heq run hstep)
  · intro halways before event after s next heq run hstep
    exact (h before s event next run hstep).mpr (halways before event after s next heq run hstep)

-- An invariant may rest on what holds at every step.
theorem invariant_of_always {events : List ε} {s : σ} {P : List ε → σ → ε → σ → Prop}
    (I : List ε → σ → Prop) (run : Run start step events s) (halways : Always start step events P)
    (hstart : I [] start)
    (hstep : ∀ events s event next, I events s → step s event next → P events s event next →
      I (events ++ [event]) next) : I events s := by
  induction run with
  | nil => exact hstart
  | snoc run h ih => exact hstep _ _ _ _ (ih halways.of_append) h (halways.last run h)

end Run

end Library
