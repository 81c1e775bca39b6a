import Webserv.Text.Search

/-!
# Lines

A text of lines, each followed by a terminator of two distinct letters `x y`.  A line does not
contain the terminator, so the text determines its lines.  A block of non-empty lines that ends
with an empty one contains the doubled terminator at its end only, and a block that is a suffix
of another one consists of its last lines, the first of them possibly cut.
-/

namespace Text

variable {α : Type*} [DecidableEq α] {x y : α}

/-- The lines, each with the terminator behind it. -/
def unlines (sep : List α) (lines : List (List α)) : List α := lines.flatMap (· ++ sep)

omit [DecidableEq α] in
@[simp] theorem unlines_nil (sep : List α) : unlines sep [] = [] := rfl

omit [DecidableEq α] in
theorem unlines_cons (sep line : List α) (lines : List (List α)) :
    unlines sep (line :: lines) = line ++ (sep ++ unlines sep lines) := by
  rw [unlines, List.flatMap_cons, List.append_assoc, unlines]

omit [DecidableEq α] in
theorem unlines_cons_append (sep line : List α) (lines : List (List α)) (b : List α) :
    unlines sep (line :: lines) ++ b = line ++ (sep ++ (unlines sep lines ++ b)) := by
  rw [unlines_cons, List.append_assoc, List.append_assoc]

omit [DecidableEq α] in
theorem unlines_append (sep : List α) (ls ms : List (List α)) :
    unlines sep (ls ++ ms) = unlines sep ls ++ unlines sep ms :=
  List.flatMap_append

omit [DecidableEq α] in
theorem length_le_unlines (sep : List α) (hsep : sep ≠ []) (lines : List (List α)) :
    lines.length ≤ (unlines sep lines).length := by
  have hpos := List.length_pos_of_ne_nil hsep
  induction lines with
  | nil => exact Nat.zero_le _
  | cons line lines ih =>
    rw [unlines_cons, List.length_append, List.length_append, List.length_cons]
    omega

/-- A line that is neither empty nor contains the terminator. -/
def IsLine (x y : α) (line : List α) : Prop := line ≠ [] ∧ ¬ [x, y] <:+: line

/-- The first terminator ends the first line. -/
theorem line_unique (hxy : x ≠ y) {a a' b b' : List α} (ha : ¬ [x, y] <:+: a)
    (ha' : ¬ [x, y] <:+: a') (h : a ++ x :: y :: b = a' ++ x :: y :: b') : a = a' ∧ b = b' := by
  have hfind := find_pair_append hxy ha b
  rw [h, find_pair_append hxy ha' b'] at hfind
  have hlen : a.length = a'.length := (Option.some.inj hfind).symm
  obtain ⟨h1, h2⟩ := List.append_inj h hlen
  exact ⟨h1, (List.cons.inj (List.cons.inj h2).2).2⟩

/-- A non-empty line does not start with a terminator, whatever follows it. -/
theorem not_prefix_line (hxy : x ≠ y) {line : List α} (hline : IsLine x y line) (b : List α) :
    ¬ [x, y] <+: line ++ x :: y :: b := by
  intro h
  obtain ⟨t, ht⟩ := h
  have hnil : ¬ [x, y] <:+: ([] : List α) := by simp
  exact hline.1 (line_unique hxy hnil hline.2 ht).1.symm

/-! ## The doubled terminator -/

omit [DecidableEq α] in
/-- Between a line and a text that does not start with a terminator there is no doubled one. -/
theorem not_double_infix_append (hxy : x ≠ y) {line rest : List α} (hline : ¬ [x, y] <:+: line)
    (hstart : ¬ [x, y] <+: rest) (hrest : ¬ [x, y, x, y] <:+: rest) :
    ¬ [x, y, x, y] <:+: line ++ x :: y :: rest := by
  intro h
  obtain ⟨u, v, huv⟩ := h
  rw [List.append_assoc] at huv
  -- the terminator behind `u` is not in front of the one behind `line`
  rcases List.append_eq_append_iff.mp huv with ⟨c, rfl, hc⟩ | ⟨c, rfl, hc⟩
  · cases c with
    | nil =>
      simp only [List.nil_append, List.cons_append, List.cons.injEq, true_and] at hc
      exact hstart ⟨v, by rw [← hc]; rfl⟩
    | cons d c =>
      refine hline ?_
      cases c with
      | nil =>
        simp only [List.cons_append, List.nil_append, List.cons.injEq] at hc
        exact absurd hc.2.1.symm hxy
      | cons e c =>
        simp only [List.cons_append, List.nil_append, List.cons.injEq] at hc
        obtain ⟨rfl, rfl, -⟩ := hc
        exact ⟨u, c, by simp⟩
  · cases c with
    | nil =>
      simp only [List.nil_append, List.cons_append, List.cons.injEq, true_and] at hc
      exact hstart ⟨v, by rw [hc]; rfl⟩
    | cons d c =>
      cases c with
      | nil =>
        simp only [List.cons_append, List.nil_append, List.cons.injEq] at hc
        exact absurd hc.2.1.symm hxy
      | cons e c =>
        simp only [List.cons_append, List.cons.injEq] at hc
        exact hrest ⟨c, v, by rw [hc.2.2, List.append_assoc]; rfl⟩

theorem not_double_infix_unlines (hxy : x ≠ y) {lines : List (List α)}
    (hlines : ∀ l ∈ lines, IsLine x y l) : ¬ [x, y, x, y] <:+: unlines [x, y] lines ++ [x] := by
  induction lines with
  | nil =>
    intro h
    exact absurd h.length_le (by simp)
  | cons line lines ih =>
    rw [List.forall_mem_cons] at hlines
    rw [unlines_cons_append]
    refine not_double_infix_append hxy hlines.1.2 ?_ (ih hlines.2)
    cases lines with
    | nil =>
      intro h
      exact absurd h.length_le (by simp)
    | cons next rest =>
      rw [unlines_cons_append]
      exact not_prefix_line hxy (hlines.2 next (List.mem_cons_self ..)) _

/-- A text up to its first doubled terminator is a block: a first line, which may be empty, lines
that are not, and an empty one. -/
theorem exists_lines_of_double (hxy : x ≠ y) {a : List α}
    (h : ¬ [x, y, x, y] <:+: a ++ [x, y, x]) :
    ∃ line lines, ¬ [x, y] <:+: line ∧ (∀ l ∈ lines, IsLine x y l) ∧
      a ++ [x, y, x, y] = unlines [x, y] (line :: lines) ++ [x, y] := by
  induction hlen : a.length using Nat.strongRecOn generalizing a with
  | ind n ih =>
    by_cases hpair : [x, y] <:+: a
    · obtain ⟨i, hi⟩ := Option.isSome_iff_exists.mp (find_isSome_iff.mpr hpair)
      obtain ⟨line, rest, rfl, -, hline⟩ := (find_pair_eq_some_iff hxy).mp hi
      have hsuffix : rest ++ [x, y, x] <:+ line ++ x :: y :: rest ++ [x, y, x] :=
        ⟨line ++ [x, y], by simp⟩
      have hlt : rest.length < n := by
        rw [← hlen, List.length_append, List.length_cons, List.length_cons]
        omega
      obtain ⟨next, lines, hnext, hlines, hrest⟩ :=
        ih rest.length hlt (fun hin => h (hin.trans hsuffix.isInfix)) rfl
      have hne : next ≠ [] := by
        rintro rfl
        -- the text would start with two terminators behind `line`
        rw [unlines_cons_append, List.nil_append] at hrest
        have hlong : [x, y] <+: rest ++ [x, y, x, y] := ⟨_, hrest.symm⟩
        obtain ⟨tail, htail⟩ : [x, y] <+: rest ++ [x, y, x] :=
          List.prefix_of_prefix_length_le hlong ⟨[y], by simp⟩ (by simp)
        have heq : line ++ x :: y :: rest ++ [x, y, x] = line ++ x :: y :: (rest ++ [x, y, x]) := by
          simp
        rw [heq, ← htail] at h
        exact h ⟨line, tail, by simp⟩
      refine ⟨line, next :: lines, hline, List.forall_mem_cons.mpr ⟨⟨hne, hnext⟩, hlines⟩, ?_⟩
      rw [unlines_cons_append, ← hrest]
      simp
    · refine ⟨a, [], hpair, by simp, ?_⟩
      rw [unlines_cons_append]
      rfl

/-! ## Blocks -/

/-- The text determines the lines of a block. -/
theorem unlines_inj (hxy : x ≠ y) {ls ms : List (List α)} {b c : List α}
    (hls : ∀ l ∈ ls, IsLine x y l) (hms : ∀ m ∈ ms, IsLine x y m)
    (h : unlines [x, y] ls ++ x :: y :: b = unlines [x, y] ms ++ x :: y :: c) :
    ls = ms ∧ b = c := by
  have hnil : ¬ [x, y] <:+: ([] : List α) := by simp
  induction ls generalizing ms with
  | nil =>
    cases ms with
    | nil => exact ⟨rfl, (line_unique hxy hnil hnil h).2⟩
    | cons m ms =>
      rw [List.forall_mem_cons] at hms
      rw [unlines_cons_append] at h
      exact absurd (line_unique hxy hnil hms.1.2 h).1.symm hms.1.1
  | cons l ls ih =>
    rw [List.forall_mem_cons] at hls
    cases ms with
    | nil =>
      rw [unlines_cons_append] at h
      exact absurd (line_unique hxy hls.1.2 hnil h).1 hls.1.1
    | cons m ms =>
      rw [List.forall_mem_cons] at hms
      rw [unlines_cons_append, unlines_cons_append] at h
      obtain ⟨rfl, hrest⟩ := line_unique hxy hls.1.2 hms.1.2 h
      obtain ⟨rfl, hb⟩ := ih hls.2 hms.2 hrest
      exact ⟨rfl, hb⟩

/-- A block that is a suffix of another one consists of its last lines, the first of them
possibly cut.  It must not start inside a terminator. -/
theorem suffix_unlines (hxy : x ≠ y) {ls ms : List (List α)} {m : List α}
    (hls : ∀ l ∈ ls, IsLine x y l) (hms : ∀ l ∈ m :: ms, IsLine x y l) (hhead : m.head? ≠ some y)
    (h : unlines [x, y] (m :: ms) ++ [x, y] <:+ unlines [x, y] ls ++ [x, y]) :
    ∃ before cut, ls = before ++ (cut ++ m) :: ms := by
  induction ls with
  | nil =>
    have hlen := h.length_le
    rw [unlines_cons_append] at hlen
    simp only [unlines_nil, List.length_append, List.length_cons, List.length_nil] at hlen
    omega
  | cons l ls ih =>
    rw [List.forall_mem_cons] at hls
    obtain ⟨u, hu⟩ := h
    rw [unlines_cons_append _ l] at hu
    rcases List.append_eq_append_iff.mp hu with ⟨c, rfl, hc⟩ | ⟨c, rfl, hc⟩
    · -- the block starts inside the line
      have hcut : ¬ [x, y] <:+: c := fun h => hls.1.2 (h.trans (List.suffix_append u c).isInfix)
      rw [unlines_cons_append] at hc
      rw [List.forall_mem_cons] at hms
      obtain ⟨rfl, hrest⟩ := line_unique hxy hms.1.2 hcut hc
      obtain ⟨rfl, -⟩ := unlines_inj hxy hms.2 hls.2 hrest
      exact ⟨[], u, rfl⟩
    · cases c with
      | nil =>
        rw [unlines_cons_append] at hc
        rw [List.forall_mem_cons] at hms
        have hnil : ¬ [x, y] <:+: ([] : List α) := by simp
        exact absurd (line_unique hxy hnil hms.1.2 hc).1.symm hms.1.1
      | cons d c =>
        cases c with
        | nil =>
          -- the block starts with the second letter of the terminator
          simp only [List.cons_append, List.nil_append, List.cons.injEq] at hc
          cases m with
          | nil => exact absurd rfl (hms [] (List.mem_cons_self ..)).1
          | cons e m =>
            rw [unlines_cons, List.cons_append, List.cons_append, List.cons.injEq] at hc
            exact absurd (congrArg some hc.2.1.symm) hhead
        | cons e c =>
          simp only [List.cons_append, List.cons.injEq, List.nil_append] at hc
          obtain ⟨before, cut, rfl⟩ := ih hls.2 ⟨c, hc.2.2.symm⟩
          exact ⟨l :: before, cut, rfl⟩

/-! ## Reading the lines back -/

/-- The terminated lines of a text, at most `fuel` of them. -/
def linesOf (sep : List α) : Nat → List α → List (List α)
  | 0, _ => []
  | fuel + 1, s =>
    match find sep s with
    | none => []
    | some i => s.take i :: linesOf sep fuel (s.drop (i + sep.length))

theorem linesOf_append (hxy : x ≠ y) {line : List α} (hline : ¬ [x, y] <:+: line) (fuel : Nat)
    (rest : List α) :
    linesOf [x, y] (fuel + 1) (line ++ x :: y :: rest) = line :: linesOf [x, y] fuel rest := by
  rw [linesOf, find_pair_append hxy hline]
  dsimp only [List.length_cons, List.length_nil]
  rw [List.take_left' rfl, List.drop_append, List.drop_of_length_le (by omega),
    Nat.add_sub_cancel_left]
  rfl

theorem linesOf_unlines (hxy : x ≠ y) {lines : List (List α)}
    (hlines : ∀ l ∈ lines, ¬ [x, y] <:+: l) (fuel : Nat) (rest : List α) :
    linesOf [x, y] (lines.length + fuel) (unlines [x, y] lines ++ rest) =
      lines ++ linesOf [x, y] fuel rest := by
  induction lines with
  | nil => simp
  | cons line lines ih =>
    rw [List.forall_mem_cons] at hlines
    rw [unlines_cons_append, List.length_cons, Nat.add_right_comm, List.cons_append,
      List.cons_append, List.nil_append, linesOf_append hxy hlines.1, ih hlines.2,
      List.cons_append]

end Text
