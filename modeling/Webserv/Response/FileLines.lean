import Webserv.Response.HttpResponseBuilder

/-!
# Reading line by line

A text that is read with `std::getline` and written with a terminator behind every line.  Every
newline is replaced by the terminator, and a last line without one gets it as well.
-/

namespace Webserv

open Text

/-- Nothing stands behind the last newline. -/
def EndsLine (s : Str) : Prop := ∀ c ∈ s.getLast?, c = 10

instance (s : Str) : Decidable (EndsLine s) :=
  inferInstanceAs (Decidable (∀ c ∈ s.getLast?, c = 10))

theorem endsLine_nil : EndsLine [] := fun _ h => nomatch h

theorem endsLine_singleton {c : Byte} : EndsLine [c] ↔ c = 10 := by simp [EndsLine]

theorem endsLine_cons {c : Byte} {s : Str} (h : s ≠ []) : EndsLine (c :: s) ↔ EndsLine s := by
  obtain ⟨d, rest, rfl⟩ := List.exists_cons_of_ne_nil h
  rw [EndsLine, EndsLine, List.getLast?_cons_cons]

theorem getlines_line {line : Str} (h : 10 ∉ line) (rest : Str) :
    getlines (line ++ 10 :: rest) = line :: getlines rest := by
  induction line with
  | nil => rfl
  | cons c line ih =>
    rw [List.mem_cons, not_or] at h
    rw [List.cons_append, getlines, if_neg (Ne.symm h.1), ih h.2]

theorem getlines_eq_nil_iff {s : Str} : getlines s = [] ↔ s = [] := by
  cases s with
  | nil => exact iff_of_true rfl rfl
  | cons c s =>
    refine iff_of_false ?_ (List.cons_ne_nil _ _)
    rw [getlines]
    split
    · exact List.cons_ne_nil _ _
    · cases getlines s <;> exact List.cons_ne_nil _ _

/-- The lines, each with a terminator behind it. -/
theorem getlines_join (sep s : Str) :
    (getlines s).flatMap (· ++ sep) =
      (s.flatMap fun c => if c = 10 then sep else [c]) ++ if EndsLine s then [] else sep := by
  induction s with
  | nil =>
    rw [if_pos endsLine_nil]
    rfl
  | cons c s ih =>
    rw [List.flatMap_cons, List.append_assoc]
    by_cases hs : s = []
    · subst hs
      by_cases hc : c = 10
      · subst hc
        rw [if_pos rfl, if_pos (endsLine_singleton.mpr rfl)]
        rfl
      · rw [if_neg hc, if_neg fun h => hc (endsLine_singleton.mp h), getlines, if_neg hc]
        simp [getlines]
    · simp only [endsLine_cons hs]
      rw [← ih, getlines]
      split
      · rw [List.flatMap_cons, List.nil_append]
      · cases hlines : getlines s with
        | nil => exact absurd (getlines_eq_nil_iff.mp hlines) hs
        | cons line lines => simp only [List.flatMap_cons, List.cons_append, List.nil_append]

/-- With newlines as terminators only a missing last one is added. -/
theorem getlines_join_newline (s : Str) :
    (getlines s).flatMap (· ++ lit "\n") = s ++ if EndsLine s then [] else [10] := by
  have hsame : (s.flatMap fun c => if c = 10 then lit "\n" else [c]) = s := by
    conv_rhs => rw [← List.flatMap_singleton' s]
    refine List.flatMap_congr fun c _ => ?_
    split
    · next hc => rw [hc]; rfl
    · rfl
  rw [getlines_join, hsame]
  rfl

theorem getlines_join_newline_eq_iff {s : Str} :
    (getlines s).flatMap (· ++ lit "\n") = s ↔ EndsLine s := by
  rw [getlines_join_newline]
  split
  · next h => exact iff_of_true (List.append_nil s) h
  · next h => exact iff_of_false (by simp) h

/-- A terminator of two bytes makes the text longer. -/
theorem length_lt_getlines_join {sep : Str} (hsep : 1 < sep.length) {s : Str} (hs : s ≠ []) :
    s.length < ((getlines s).flatMap (· ++ sep)).length := by
  have hle : ∀ t : Str, t.length ≤ (t.flatMap fun c => if c = 10 then sep else [c]).length := by
    intro t
    induction t with
    | nil => exact Nat.zero_le _
    | cons c t ih =>
      rw [List.flatMap_cons, List.length_append, List.length_cons]
      split
      · omega
      · rw [List.length_singleton]
        omega
  rw [getlines_join, List.length_append]
  by_cases hends : EndsLine s
  · -- the last newline has become longer
    obtain ⟨front, c, rfl⟩ := List.eq_nil_or_concat s |>.resolve_left hs
    obtain rfl : c = 10 := hends c (by simp)
    have hfront := hle front
    rw [if_pos hends, List.concat_eq_append, List.flatMap_append, List.flatMap_singleton,
      if_pos rfl, List.length_append, List.length_append, List.length_singleton, List.length_nil]
    omega
  · have hs' := hle s
    rw [if_neg hends]
    omega

theorem lines_ne_nil {content : Str} (h : content ≠ []) :
    (getlines content).flatMap (· ++ HttpResponseBuilder.CRLF) ≠ [] := by
  have hlt := length_lt_getlines_join (show 1 < HttpResponseBuilder.CRLF.length by decide) h
  exact List.ne_nil_of_length_pos (Nat.zero_lt_of_lt hlt)

/-- What `readFile` makes of a file is its content only when there is none. -/
theorem getlines_join_CRLF_eq_iff {s : Str} :
    (getlines s).flatMap (· ++ HttpResponseBuilder.CRLF) = s ↔ s = [] := by
  constructor
  · intro h
    by_contra hs
    have hlt := length_lt_getlines_join (show 1 < HttpResponseBuilder.CRLF.length by decide) hs
    rw [h] at hlt
    exact absurd hlt (Nat.lt_irrefl _)
  · rintro rfl
    rfl

end Webserv
