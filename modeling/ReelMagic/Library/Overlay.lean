import Mathlib.Data.List.Induction

namespace Library.Overlay

variable {ι α : Type*}

-- A layer says which places it covers and with what; later layers hide earlier ones.
def overlay (base : ι → α) (layers : List (ι → Option α)) (i : ι) : α :=
  (layers.reverse.findSome? (fun layer => layer i)).getD (base i)

theorem overlay_append_singleton (base : ι → α) (layers : List (ι → Option α))
    (layer : ι → Option α) (i : ι) :
    overlay base (layers ++ [layer]) i = (layer i).getD (overlay base layers i) := by
  cases h : layer i <;> simp [overlay, h]

theorem overlay_of_uncovered (base : ι → α) (layers : List (ι → Option α)) (i : ι)
    (h : ∀ layer ∈ layers, layer i = none) : overlay base layers i = base i := by
  have hn : layers.reverse.findSome? (fun layer => layer i) = none := by
    simpa [List.findSome?_eq_none_iff] using h
  rw [overlay, hn, Option.getD_none]

theorem overlay_of_last (base : ι → α) (before after : List (ι → Option α))
    (layer : ι → Option α) (i : ι) (a : α) (hl : layer i = some a)
    (h : ∀ later ∈ after, later i = none) :
    overlay base (before ++ layer :: after) i = a := by
  induction after using List.reverseRecOn with
  | nil => rw [overlay_append_singleton, hl, Option.getD_some]
  | append_singleton after later ih =>
      have hlater : later i = none := h later (by simp)
      rw [← List.cons_append, ← List.append_assoc, overlay_append_singleton]
      rw [hlater, Option.getD_none]
      exact ih fun other ho => h other (by simp [ho])

-- Writes that each lay one layer over what is there build the overlay of them all.
theorem foldl_eq_overlay {σ τ : Type*} (write : σ → τ → σ) (contents : σ → ι → α)
    (layer : τ → ι → Option α) (start : σ) (writes : List τ)
    (hwrite : ∀ t ∈ writes, ∀ s i, contents (write s t) i = (layer t i).getD (contents s i)) (i : ι) :
    contents (writes.foldl write start) i = overlay (contents start) (writes.map layer) i := by
  induction writes using List.reverseRecOn with
  | nil => rfl
  | append_singleton writes t ih =>
      rw [List.foldl_append, List.map_append, List.map_singleton, overlay_append_singleton,
        ← ih fun other ho => hwrite other (by simp [ho])]
      exact hwrite t (by simp) _ i

end Library.Overlay
