import Mathlib.Data.List.Basic
import Mathlib.Order.Nat

/-!
# Maximal runs

The maximal intervals on which a predicate of positions holds, and a scan from left to right that
finds them with two indices: where the open run began, and the place that is looked at.
-/

namespace Text

variable {L : Nat → Prop}

/-- The predicate holds from `b` up to `e`, and on no larger interval. -/
structure IsRun (L : Nat → Prop) (b e : Nat) : Prop where
  lt : b < e
  inside : ∀ k, b ≤ k → k < e → L k
  starts : b = 0 ∨ ¬ L (b - 1)
  ends : ¬ L e

namespace IsRun

variable {b e b' e' i k : Nat}

theorem le_of_starts (h : IsRun L b e) (hstarts : b' = 0 ∨ ¬ L (b' - 1)) (hlt : b' - 1 < e) :
    b' ≤ b := by
  by_contra hle
  have hL := h.inside (b' - 1) (by omega) hlt
  rcases hstarts with hzero | hnot
  · omega
  · exact hnot hL

/-- Two runs with a position in common are the same. -/
theorem unique (h : IsRun L b e) (h' : IsRun L b' e') (hb : b ≤ k) (he : k < e) (hb' : b' ≤ k)
    (he' : k < e') : b = b' ∧ e = e' := by
  have hle : b' ≤ b := h.le_of_starts h'.starts (by omega)
  have hge : b ≤ b' := h'.le_of_starts h.starts (by omega)
  refine ⟨by omega, ?_⟩
  by_contra hne
  rcases Nat.lt_or_gt_of_ne hne with hlt | hlt
  · exact h.ends (h'.inside e (by omega) hlt)
  · exact h'.ends (h.inside e' (by omega) hlt)

end IsRun

/-- An interval on which the predicate holds is inside a run, when the predicate ends somewhere. -/
theorem exists_isRun {i k bound : Nat} (hbound : ∀ m, bound ≤ m → ¬ L m) (hik : i ≤ k)
    (h : ∀ m, i ≤ m → m ≤ k → L m) : ∃ b e, IsRun L b e ∧ b ≤ i ∧ k < e := by
  classical
  have hfirst : ∃ b, ∀ m, b ≤ m → m ≤ i → L m := ⟨i, fun m hm hmi => h m hm (by omega)⟩
  have hlast : ∃ e, k ≤ e ∧ ¬ L e := ⟨max k bound, by omega, hbound _ (by omega)⟩
  have hbi : Nat.find hfirst ≤ i := Nat.find_min' hfirst fun m hm hmi => h m hm (by omega)
  have hke : k < Nat.find hlast := by
    refine lt_of_le_of_ne (Nat.find_spec hlast).1 fun heq => (Nat.find_spec hlast).2 ?_
    rw [← heq]
    exact h k hik (by omega)
  refine ⟨Nat.find hfirst, Nat.find hlast, ⟨by omega, fun m hm hme => ?_, ?_,
    (Nat.find_spec hlast).2⟩, hbi, hke⟩
  · by_cases hmi : m ≤ i
    · exact Nat.find_spec hfirst m hm hmi
    · by_cases hmk : m ≤ k
      · exact h m (by omega) hmk
      · by_contra hL
        exact Nat.find_min hlast hme ⟨by omega, hL⟩
  · -- a run that could begin earlier would be found earlier
    rw [or_iff_not_imp_left]
    intro hzero hL
    refine Nat.find_min hfirst (m := Nat.find hfirst - 1) (by omega) fun m hm hmi => ?_
    rcases Nat.eq_or_lt_of_le hm with heq | hlt
    · rw [← heq]
      exact hL
    · exact Nat.find_spec hfirst m (by omega) hmi

/-- Two positions are in one run exactly when the predicate holds from the one to the other. -/
theorem exists_isRun_iff {i k bound : Nat} (hbound : ∀ m, bound ≤ m → ¬ L m) (hik : i ≤ k) :
    (∃ b e, IsRun L b e ∧ b ≤ i ∧ k < e) ↔ ∀ m, i ≤ m → m ≤ k → L m := by
  constructor
  · rintro ⟨b, e, hrun, hb, he⟩ m hm hmk
    exact hrun.inside m (by omega) (by omega)
  · exact exists_isRun hbound hik

/-! ## The scan -/

/-- The runs that end in front of `j` were found, and from `j` up to `i` a run is open, which is
empty when they are the same. -/
structure Scanned (L : Nat → Prop) (j i : Nat) (runs : List (Nat × Nat)) : Prop where
  le : j ≤ i
  inside : ∀ k, j ≤ k → k < i → L k
  starts : j = 0 ∨ ¬ L (j - 1)
  sorted : runs.Pairwise fun r r' => r.2 < r'.1
  complete : ∀ b e, (b, e) ∈ runs ↔ IsRun L b e ∧ e < j

/-- The runs with the open one, unless that is empty. -/
def closeRun (j i : Nat) (runs : List (Nat × Nat)) : List (Nat × Nat) :=
  if j = i then runs else runs ++ [(j, i)]

namespace Scanned

variable {i j b e : Nat} {runs : List (Nat × Nat)}

theorem start (L : Nat → Prop) : Scanned L 0 0 [] where
  le := Nat.le_refl 0
  inside := fun k _ hk => absurd hk (Nat.not_lt_zero k)
  starts := Or.inl rfl
  sorted := .nil
  complete := by simp

theorem letter (h : Scanned L j i runs) (hL : L i) : Scanned L j (i + 1) runs where
  le := Nat.le_succ_of_le h.le
  inside := fun k hk hki => by
    rcases Nat.lt_succ_iff_lt_or_eq.mp hki with hlt | rfl
    · exact h.inside k hk hlt
    · exact hL
  starts := h.starts
  sorted := h.sorted
  complete := h.complete

/-- No run ends where the open one begins. -/
theorem ne_of_isRun (h : Scanned L j i runs) (hrun : IsRun L b e) : e ≠ j := by
  rintro rfl
  have hlt := hrun.lt
  rcases h.starts with hzero | hnot
  · omega
  · exact hnot (hrun.inside (e - 1) (by omega) (by omega))

/-- A run that is not behind the place is the open one, or was found. -/
theorem isRun_le_iff (h : Scanned L j i runs) (hL : ¬ L i) :
    IsRun L b e ∧ e < i + 1 ↔ (b, e) ∈ runs ∨ j < i ∧ b = j ∧ e = i := by
  rw [h.complete]
  constructor
  · rintro ⟨hrun, he⟩
    rcases Nat.lt_or_gt_of_ne (h.ne_of_isRun hrun) with hlt | hgt
    · exact Or.inl ⟨hrun, hlt⟩
    · have hei : e = i := by
        by_contra hne
        exact hrun.ends (h.inside e (by omega) (by omega))
      subst hei
      have hopen : IsRun L j e := ⟨hgt, h.inside, h.starts, hL⟩
      have hlt := hrun.lt
      exact Or.inr ⟨hgt, (hrun.unique hopen (k := e - 1) (by omega) (by omega) (by omega)
        (by omega)).1, rfl⟩
  · rintro (⟨hrun, hlt⟩ | ⟨hlt, rfl, rfl⟩)
    · have hle := h.le
      exact ⟨hrun, by omega⟩
    · exact ⟨⟨hlt, h.inside, h.starts, hL⟩, by omega⟩

theorem mem_closeRun_iff (h : Scanned L j i runs) :
    (b, e) ∈ closeRun j i runs ↔ (b, e) ∈ runs ∨ j < i ∧ b = j ∧ e = i := by
  have hle := h.le
  unfold closeRun
  split
  · exact (or_iff_left (by omega)).symm
  · rw [List.mem_append, List.mem_singleton, Prod.mk.injEq]
    exact or_congr_right (by omega)

theorem sorted_closeRun (h : Scanned L j i runs) :
    (closeRun j i runs).Pairwise fun r r' => r.2 < r'.1 := by
  unfold closeRun
  split
  · exact h.sorted
  · refine List.pairwise_append.mpr ⟨h.sorted, List.pairwise_singleton _ _, ?_⟩
    intro r hr r' hr'
    obtain rfl := List.mem_singleton.mp hr'
    exact ((h.complete r.1 r.2).mp hr).2

theorem blank (h : Scanned L j i runs) (hL : ¬ L i) :
    Scanned L (i + 1) (i + 1) (closeRun j i runs) where
  le := Nat.le_refl _
  inside := fun k hk hki => by omega
  starts := Or.inr hL
  sorted := h.sorted_closeRun
  complete := fun b e => by rw [h.mem_closeRun_iff, h.isRun_le_iff hL]

/-- Behind the last position all runs were found. -/
theorem mem_closeRun_of_end (h : Scanned L j i runs) (hend : ∀ k, i ≤ k → ¬ L k) :
    (b, e) ∈ closeRun j i runs ↔ IsRun L b e := by
  rw [h.mem_closeRun_iff, ← h.isRun_le_iff (hend i (Nat.le_refl i))]
  refine and_iff_left_of_imp fun hrun => ?_
  by_contra hlt
  have hpos := hrun.lt
  exact hend (e - 1) (by omega) (hrun.inside (e - 1) (by omega) (by omega))

end Scanned

end Text
