import Webserv.Control.Method

/-!
# Methods that simulate

A loop that simulates a fold: seen through `abs`, each of its calls is one step of a pure
function.
-/

namespace Method

variable {σ ε ι τ : Type}

/-- A loop over distinct elements that are ready is the fold of what its calls do. -/
theorem forEach_foldl {x : ι → Method σ ε Unit} {inv : σ → Prop} {ready : σ → ι → Prop}
    {abs : σ → τ} {f : τ → ι → τ}
    (hstep : ∀ s i, inv s → ready s i → ∃ s', (x i).run s = (.ok (), s') ∧ inv s' ∧
      abs s' = f (abs s) i ∧ ∀ j, j ≠ i → ready s j → ready s' j)
    {l : List ι} (hl : l.Nodup) {s : σ} (hinv : inv s) (hready : ∀ i ∈ l, ready s i) :
    ∃ s', (forEach x l).run s = (.ok (), s') ∧ inv s' ∧ abs s' = l.foldl f (abs s) := by
  induction l generalizing s with
  | nil => exact ⟨s, rfl, hinv, rfl⟩
  | cons i rest ih =>
    rw [List.nodup_cons] at hl
    rw [List.forall_mem_cons] at hready
    obtain ⟨s₁, hrun, hinv₁, habs, hother⟩ := hstep s i hinv hready.1
    have hrest : ∀ j ∈ rest, ready s₁ j := fun j hj =>
      hother j (fun heq => hl.1 (heq ▸ hj)) (hready.2 j hj)
    obtain ⟨s₂, hrun₂, hinv₂, habs₂⟩ := ih hl.2 hinv₁ hrest
    refine ⟨s₂, ?_, hinv₂, ?_⟩
    · rw [forEach_cons, run_bind_ok hrun, hrun₂]
    · rw [habs₂, habs, List.foldl_cons]

end Method
