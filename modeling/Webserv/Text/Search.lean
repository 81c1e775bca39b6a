import Mathlib.Data.List.Infix

/-!
# Substring search

`find pat s` is the first position at which `pat` stands in `s`.  The lemmas state a first
occurrence without positions: `s = a ++ pat ++ b`, and `pat` does not occur in
`a ++ pat.dropLast`, which is the longest prefix of `s` that ends before the occurrence does.
A prefix of `s` that is long enough to show the occurrence decides the search for every
continuation, so `find` can be used on text that is still growing.
-/

namespace Text

variable {α : Type*} [DecidableEq α]

/-- The first position at which `pat` stands in a list. -/
def find (pat : List α) : List α → Option Nat
  | [] => if pat = [] then some 0 else none
  | c :: s => if pat <+: c :: s then some 0 else (find pat s).map (· + 1)

/-- `find` from position `pos` on.  A position past the end finds nothing, not even the empty
pattern. -/
def findFrom (s pat : List α) (pos : Nat) : Option Nat :=
  if pos ≤ s.length then (find pat (s.drop pos)).map (· + pos) else none

theorem find_eq_none_iff {pat s : List α} : find pat s = none ↔ ¬ pat <:+: s := by
  induction s with
  | nil => by_cases h : pat = [] <;> simp [find, h]
  | cons c s ih =>
    by_cases h : pat <+: c :: s
    · simp [find, h, h.isInfix]
    · simp [find, h, List.infix_cons_iff, ih]

theorem find_isSome_iff {pat s : List α} : (find pat s).isSome ↔ pat <:+: s := by
  rw [← not_iff_not, ← find_eq_none_iff, Option.not_isSome_iff_eq_none]

omit [DecidableEq α] in
/-- A pattern does not fit into its own proper prefix. -/
theorem not_infix_dropLast {pat : List α} (hpat : pat ≠ []) : ¬ pat <:+: pat.dropLast := by
  intro h
  have hlen := h.length_le
  have hpos := List.length_pos_of_ne_nil hpat
  rw [List.length_dropLast] at hlen
  omega

omit [DecidableEq α] in
/-- At the head of `a ++ pat ++ b`, with `a` non-empty, `pat` stands only if it already stands
at the head of `a ++ pat.dropLast`. -/
theorem prefix_append_dropLast {pat a b : List α} (ha : a ≠ [])
    (h : pat <+: a ++ (pat ++ b)) : pat <+: a ++ pat.dropLast := by
  have hlen : 0 < a.length := List.length_pos_of_ne_nil ha
  have hpat : pat ++ b = pat.dropLast ++ (pat ++ b).drop (pat.length - 1) := by
    have hcut := (List.take_append_drop (pat.length - 1) (pat ++ b)).symm
    rwa [List.take_append_of_le_length (Nat.sub_le _ _), ← List.dropLast_eq_take] at hcut
  have hsplit : a ++ (pat ++ b) =
      (a ++ pat.dropLast) ++ (pat ++ b).drop (pat.length - 1) := by
    rw [List.append_assoc, ← hpat]
  refine List.prefix_of_prefix_length_le h ⟨_, hsplit.symm⟩ ?_
  rw [List.length_append, List.length_dropLast]
  omega

/-- The first occurrence, as a split of the text. -/
theorem find_eq_some_iff {pat s : List α} {i : Nat} (hpat : pat ≠ []) :
    find pat s = some i ↔
      ∃ a b, s = a ++ (pat ++ b) ∧ a.length = i ∧ ¬ pat <:+: a ++ pat.dropLast := by
  induction s generalizing i with
  | nil => simp [find, hpat]
  | cons c s ih =>
    by_cases hhead : pat <+: c :: s
    · simp only [find, hhead, if_true, Option.some.injEq]
      constructor
      · rintro rfl
        obtain ⟨b, hb⟩ := hhead
        exact ⟨[], b, hb.symm, rfl, by simpa using not_infix_dropLast hpat⟩
      · rintro ⟨a, b, hs, rfl, hfirst⟩
        by_contra hne
        have ha : a ≠ [] := fun h => hne (by rw [h]; rfl)
        rw [hs] at hhead
        exact hfirst (prefix_append_dropLast ha hhead).isInfix
    · simp only [find, hhead, if_false, Option.map_eq_some_iff]
      constructor
      · rintro ⟨j, hj, rfl⟩
        obtain ⟨a, b, hs, rfl, hfirst⟩ := ih.mp hj
        refine ⟨c :: a, b, by rw [hs, List.cons_append], rfl, ?_⟩
        rw [List.cons_append, List.infix_cons_iff, not_or]
        refine ⟨fun hpre => hhead ?_, hfirst⟩
        rw [hs]
        refine hpre.trans ?_
        rw [List.cons_prefix_cons]
        exact ⟨rfl, List.prefix_append_right_inj a |>.mpr
          ((List.dropLast_prefix pat).trans (List.prefix_append pat b))⟩
      · rintro ⟨a, b, hs, rfl, hfirst⟩
        cases a with
        | nil => exact absurd ⟨b, hs.symm⟩ hhead
        | cons d a =>
          obtain ⟨rfl, rfl⟩ := List.cons.inj hs
          rw [List.cons_append, List.infix_cons_iff, not_or] at hfirst
          exact ⟨a.length, ih.mpr ⟨a, b, rfl, rfl, hfirst.2⟩, rfl⟩

/-- Text behind the first occurrence does not move it. -/
theorem find_append_of_eq_some {pat s : List α} {i : Nat} (hpat : pat ≠ [])
    (h : find pat s = some i) (t : List α) : find pat (s ++ t) = some i := by
  obtain ⟨a, b, rfl, rfl, hfirst⟩ := (find_eq_some_iff hpat).mp h
  exact (find_eq_some_iff hpat).mpr ⟨a, b ++ t, by simp only [List.append_assoc], rfl, hfirst⟩

theorem find_add_length_le {pat s : List α} {i : Nat} (hpat : pat ≠ [])
    (h : find pat s = some i) : i + pat.length ≤ s.length := by
  obtain ⟨a, b, rfl, rfl, -⟩ := (find_eq_some_iff hpat).mp h
  simp only [List.length_append]
  omega

/-- The first occurrence is still the first one in every prefix that contains it. -/
theorem find_take_of_eq_some {pat s : List α} {i n : Nat} (hpat : pat ≠ [])
    (h : find pat s = some i) (hn : i + pat.length ≤ n) : find pat (s.take n) = some i := by
  obtain ⟨a, b, rfl, rfl, hfirst⟩ := (find_eq_some_iff hpat).mp h
  refine (find_eq_some_iff hpat).mpr ⟨a, b.take (n - a.length - pat.length), ?_, rfl, hfirst⟩
  rw [List.take_append, List.take_of_length_le (by omega), List.take_append,
    List.take_of_length_le (by omega)]

theorem findFrom_eq_some_iff {s pat : List α} {pos i : Nat} :
    findFrom s pat pos = some i ↔
      pos ≤ s.length ∧ ∃ j, find pat (s.drop pos) = some j ∧ j + pos = i := by
  by_cases h : pos ≤ s.length <;> simp [findFrom, h]

theorem findFrom_isSome_iff {s pat : List α} {pos : Nat} (hpos : pos ≤ s.length) :
    (findFrom s pat pos).isSome ↔ pat <:+: s.drop pos := by
  rw [findFrom, if_pos hpos, Option.isSome_map, find_isSome_iff]

omit [DecidableEq α] in
/-- The first occurrence of a letter, as a split of the text. -/
theorem append_cons_unique {x : α} {a a' b b' : List α} (ha : x ∉ a) (ha' : x ∉ a')
    (h : a ++ x :: b = a' ++ x :: b') : a = a' ∧ b = b' := by
  rcases List.append_eq_append_iff.mp h with ⟨t, rfl, ht⟩ | ⟨t, rfl, ht⟩
  · cases t with
    | nil => exact ⟨by rw [List.append_nil], (List.cons.inj ht).2⟩
    | cons y t =>
      obtain ⟨rfl, -⟩ := List.cons.inj ht
      exact absurd (by simp) ha'
  · cases t with
    | nil => exact ⟨by rw [List.append_nil], (List.cons.inj ht).2.symm⟩
    | cons y t =>
      obtain ⟨rfl, -⟩ := List.cons.inj ht
      exact absurd (by simp) ha

/-! ## Two-letter patterns

A pattern of two distinct letters does not overlap itself, so text in front of its first
occurrence only has to be free of it. -/

omit [DecidableEq α] in
theorem pair_infix_concat_iff {x y : α} (hxy : x ≠ y) {a : List α} :
    [x, y] <:+: a ++ [x] ↔ [x, y] <:+: a := by
  rw [List.infix_append_iff]
  constructor
  · rintro (h | h | ⟨l₁, l₂, hl, hsuf, hpre⟩)
    · exact h
    · exact absurd h.length_le (by simp)
    · rcases List.prefix_cons_iff.mp hpre with rfl | ⟨t, rfl, ht⟩
      · rw [List.append_nil] at hl
        exact hl ▸ hsuf.isInfix
      · have hlast : [x, y].getLast? = (l₁ ++ x :: t).getLast? := by rw [hl]
        rw [List.prefix_nil] at ht
        simp [ht] at hlast
        exact absurd hlast.symm hxy
  · exact Or.inl

theorem find_pair_eq_some_iff {x y : α} (hxy : x ≠ y) {s : List α} {i : Nat} :
    find [x, y] s = some i ↔
      ∃ a b, s = a ++ x :: y :: b ∧ a.length = i ∧ ¬ [x, y] <:+: a := by
  rw [find_eq_some_iff (by simp)]
  simp only [List.cons_append, List.nil_append, List.dropLast_cons_cons, List.dropLast_singleton,
    pair_infix_concat_iff hxy]

theorem find_pair_append {x y : α} (hxy : x ≠ y) {a : List α} (ha : ¬ [x, y] <:+: a)
    (b : List α) : find [x, y] (a ++ x :: y :: b) = some a.length :=
  (find_pair_eq_some_iff hxy).mpr ⟨a, b, rfl, rfl, ha⟩

end Text
