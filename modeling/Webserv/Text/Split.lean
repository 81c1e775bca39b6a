import Mathlib.Data.List.Basic
import Webserv.Text.Search

/-!
# Splitting at a separator

A scanner that cuts a text at each occurrence of a separator that it comes to, as a relation
between a position and the pieces from there on.  The pieces are free of the separator, they are
joined by it to the text again, and a separator that is not empty lets the scanner come to the
end.
-/

namespace Text

variable {α : Type*} [DecidableEq α]

/-- The pieces of `s` from `start` on. -/
inductive Split (s sep : List α) : Nat → List (List α) → Prop
  | last {start : Nat} (hle : start ≤ s.length) (hnone : findFrom s sep start = none) :
    Split s sep start [s.drop start]
  | piece {start pos : Nat} {pieces : List (List α)} (hpos : findFrom s sep start = some pos)
    (rest : Split s sep (pos + sep.length) pieces) :
    Split s sep start ((s.drop start).take (pos - start) :: pieces)

namespace Split

variable {s sep : List α} {start : Nat} {pieces : List (List α)}

theorem ne_nil (h : Split s sep start pieces) : pieces ≠ [] := by
  cases h <;> exact List.cons_ne_nil _ _

/-- What a cut takes out of a text. -/
theorem cut {pos : Nat} (hsep : sep ≠ []) (h : findFrom s sep start = some pos) :
    ¬ sep <:+: (s.drop start).take (pos - start) ∧
      s.drop start = (s.drop start).take (pos - start) ++ (sep ++ s.drop (pos + sep.length)) := by
  obtain ⟨-, j, hj, rfl⟩ := findFrom_eq_some_iff.mp h
  obtain ⟨a, b, hab, rfl, hfirst⟩ := (find_eq_some_iff hsep).mp hj
  have htake : (s.drop start).take a.length = a := by
    rw [hab]
    exact List.take_left' rfl
  have hdrop : s.drop (a.length + start + sep.length) = b := by
    rw [show a.length + start + sep.length = start + (a.length + sep.length) by omega,
      ← List.drop_drop, hab, ← List.append_assoc]
    exact List.drop_left' List.length_append
  rw [Nat.add_sub_cancel, htake, hdrop]
  exact ⟨fun hin => hfirst (hin.trans (List.prefix_append a _).isInfix), hab⟩

theorem not_infix (hsep : sep ≠ []) (h : Split s sep start pieces) :
    ∀ piece ∈ pieces, ¬ sep <:+: piece := by
  induction h with
  | last hle hnone =>
    rw [List.forall_mem_singleton, ← findFrom_isSome_iff hle, hnone]
    exact Bool.false_ne_true
  | piece hpos _ ih => exact List.forall_mem_cons.mpr ⟨(cut hsep hpos).1, ih⟩

theorem intercalate (hsep : sep ≠ []) (h : Split s sep start pieces) :
    sep.intercalate pieces = s.drop start := by
  induction h with
  | last _ _ => exact List.intercalate_singleton
  | piece hpos rest ih =>
    rw [List.intercalate_cons_of_ne_nil rest.ne_nil, ih, List.append_assoc,
      ← (cut hsep hpos).2]

theorem unique {pieces' : List (List α)} (h : Split s sep start pieces)
    (h' : Split s sep start pieces') : pieces = pieces' := by
  induction h generalizing pieces' with
  | last _ hnone =>
    cases h' with
    | last _ _ => rfl
    | piece hpos _ => cases hnone.symm.trans hpos
  | piece hpos _ ih =>
    cases h' with
    | last _ hnone => cases hnone.symm.trans hpos
    | piece hpos' rest' =>
      obtain rfl := Option.some.inj (hpos.symm.trans hpos')
      rw [ih rest']

end Split

end Text
