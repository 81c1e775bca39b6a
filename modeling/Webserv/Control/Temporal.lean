import Mathlib.Order.Nat

/-!
# What happens in the end

Properties of an endless run, as predicates of the time.  Progress comes from fairness: what
stays possible for ever happens at some time.
-/

namespace Temporal

variable {P Q R : ℕ → Prop}

/-- Whenever `P` holds, `Q` holds then or later. -/
def LeadsTo (P Q : ℕ → Prop) : Prop := ∀ n, P n → ∃ m, n ≤ m ∧ Q m

namespace LeadsTo

theorem of_imp (h : ∀ n, P n → Q n) : LeadsTo P Q := fun n hn => ⟨n, Nat.le_refl n, h n hn⟩

theorem next (h : ∀ n, P n → Q (n + 1)) : LeadsTo P Q :=
  fun n hn => ⟨n + 1, Nat.le_succ n, h n hn⟩

theorem trans (hpq : LeadsTo P Q) (hqr : LeadsTo Q R) : LeadsTo P R := by
  intro n hn
  obtain ⟨m, hnm, hm⟩ := hpq n hn
  obtain ⟨k, hmk, hk⟩ := hqr m hm
  exact ⟨k, hnm.trans hmk, hk⟩

/-- What goes on until an action occurs leads to the action, if the action cannot be put off for
ever. -/
theorem of_fair {occurs : ℕ → Prop} (hkeep : ∀ n, P n → ¬ occurs n → P (n + 1))
    (hfair : ∀ n, (∀ m, n ≤ m → P m) → ∃ m, n ≤ m ∧ occurs m) :
    LeadsTo P fun n => P n ∧ occurs n := by
  intro n hn
  by_contra hnever
  have halways : ∀ m, n ≤ m → P m := by
    intro m hm
    induction m, hm using Nat.le_induction with
    | base => exact hn
    | succ m hm ih => exact hkeep m ih fun hoccurs => hnever ⟨m, hm, ih, hoccurs⟩
  obtain ⟨m, hm, hoccurs⟩ := hfair n halways
  exact hnever ⟨m, hm, halways m hm, hoccurs⟩

/-- Stages that each lead to the next one lead from the first to the last. -/
theorem chain {stage : ℕ → ℕ → Prop} {k : ℕ}
    (h : ∀ i, i < k → LeadsTo (stage i) (stage (i + 1))) : LeadsTo (stage 0) (stage k) := by
  induction k with
  | zero => exact of_imp fun _ hn => hn
  | succ k ih => exact (ih fun i hi => h i (Nat.lt_succ_of_lt hi)).trans (h k (Nat.lt_succ_self k))

end LeadsTo

end Temporal
