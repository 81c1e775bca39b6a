import Mathlib.Data.Finset.Card
import Mathlib.Data.Finset.Range
import Mathlib.Data.Int.Interval

/-!
# Descriptors

A process opens one descriptor after the other, each time the lowest that is not open.  There are
descriptors below a limit only, and a call that finds none fails.

`Answers` is for any calls that open descriptors, each known by a key.  The results say which
descriptors the calls get, and that all of them get one if and only if there are enough.
-/

namespace Descriptors

variable {κ : Type*} {limit : ℕ} {table : Finset ℤ} {fd : ℤ}

/-- The lowest descriptor that is not open. -/
def unused (limit : ℕ) (table : Finset ℤ) : Option ℤ :=
  ((List.range limit).map Int.ofNat).find? fun fd => decide (fd ∉ table)

theorem mem_below {limit : ℕ} {fd : ℤ} :
    fd ∈ (List.range limit).map Int.ofNat ↔ 0 ≤ fd ∧ fd < limit := by
  rw [List.mem_map]
  constructor
  · rintro ⟨n, hn, rfl⟩
    rw [List.mem_range] at hn
    simp only [Int.ofNat_eq_natCast]
    omega
  · intro h
    refine ⟨fd.toNat, ?_, ?_⟩
    · rw [List.mem_range]
      omega
    · simp only [Int.ofNat_eq_natCast]
      omega

theorem unused_some (h : unused limit table = some fd) : 0 ≤ fd ∧ fd < limit ∧ fd ∉ table := by
  have hmem := mem_below.mp (List.mem_of_find?_eq_some h)
  have hfree := List.find?_some h
  exact ⟨hmem.1, hmem.2, of_decide_eq_true hfree⟩

theorem unused_lowest (h : unused limit table = some fd) {k : ℤ} (hpos : 0 ≤ k) (hlt : k < fd) :
    k ∈ table := by
  obtain ⟨-, before, after, hsplit, hbefore⟩ := List.find?_eq_some_iff_append.mp h
  have hsorted : ((List.range limit).map Int.ofNat).Pairwise (· < ·) := by
    rw [List.pairwise_map]
    exact List.pairwise_lt_range.imp fun hlt => Int.ofNat_lt.mpr hlt
  have hk : k ∈ before ++ fd :: after := by
    rw [← hsplit, mem_below]
    have hfd := (unused_some h).2.1
    omega
  rw [hsplit, List.pairwise_append, List.pairwise_cons] at hsorted
  rcases List.mem_append.mp hk with hk | hk
  · simpa using hbefore k hk
  · rcases List.mem_cons.mp hk with rfl | hk
    · omega
    · have hgt := hsorted.2.1.1 k hk
      omega

theorem unused_eq_none_iff :
    unused limit table = none ↔ ∀ k : ℤ, 0 ≤ k → k < limit → k ∈ table := by
  rw [unused, List.find?_eq_none]
  constructor
  · intro h k hpos hlt
    have hk := h k (mem_below.mpr ⟨hpos, hlt⟩)
    simpa using hk
  · intro h k hk
    have hmem := mem_below.mp hk
    simpa using h k hmem.1 hmem.2

theorem unused_eq_some_iff : unused limit table = some fd ↔
    (0 ≤ fd ∧ fd < limit ∧ fd ∉ table) ∧ ∀ k : ℤ, 0 ≤ k → k < fd → k ∈ table := by
  constructor
  · intro h
    exact ⟨unused_some h, fun k hpos hlt => unused_lowest h hpos hlt⟩
  · rintro ⟨⟨hpos, hlt, hfree⟩, hlowest⟩
    cases h : unused limit table with
    | none => exact absurd (unused_eq_none_iff.mp h fd hpos hlt) hfree
    | some new =>
      have hge : ¬ new < fd := fun hnew =>
        (unused_some h).2.2 (hlowest new (unused_some h).1 hnew)
      have hle : ¬ fd < new := fun hfd => hfree (unused_lowest h hpos hfd)
      rw [le_antisymm (not_lt.mp hle) (not_lt.mp hge)]

/-- Every open descriptor is below the limit. -/
def Within (limit : ℕ) (table : Finset ℤ) : Prop := ∀ k ∈ table, 0 ≤ k ∧ k < limit

theorem Within.card_le (h : Within limit table) : table.card ≤ limit := by
  have hsub : table ⊆ Finset.Ico 0 (limit : ℤ) := fun k hk => Finset.mem_Ico.mpr (h k hk)
  have hcard := Finset.card_le_card hsub
  rw [Int.card_Ico] at hcard
  omega

theorem Within.card_eq_iff (h : Within limit table) :
    table.card = limit ↔ unused limit table = none := by
  have hsub : table ⊆ Finset.Ico 0 (limit : ℤ) := fun k hk => Finset.mem_Ico.mpr (h k hk)
  rw [unused_eq_none_iff]
  constructor
  · intro hcard k hpos hlt
    have heq : table = Finset.Ico 0 (limit : ℤ) := by
      refine Finset.eq_of_subset_of_card_le hsub ?_
      rw [Int.card_Ico]
      omega
    rw [heq, Finset.mem_Ico]
    exact ⟨hpos, hlt⟩
  · intro hfull
    have heq : table = Finset.Ico 0 (limit : ℤ) := by
      refine Finset.Subset.antisymm hsub fun k hk => ?_
      rw [Finset.mem_Ico] at hk
      exact hfull k hk.1 hk.2
    rw [heq, Int.card_Ico]
    omega

theorem Within.insert (h : Within limit table) (hfd : unused limit table = some fd) :
    Within limit (insert fd table) := by
  intro k hk
  rw [Finset.mem_insert] at hk
  rcases hk with rfl | hk
  · exact ⟨(unused_some hfd).1, (unused_some hfd).2.1⟩
  · exact h k hk

/-- What the calls get, one after the other.  Nothing is said about the calls behind one that
failed. -/
def Answers (limit : ℕ) (answer : κ → Option ℤ) : List κ → Finset ℤ → Prop
  | [], _ => True
  | key :: rest, table => answer key = unused limit table ∧
      ∀ fd, answer key = some fd → Answers limit answer rest (insert fd table)

/-- The table behind calls that all got a descriptor. -/
def opened (answer : κ → Option ℤ) (keys : List κ) (table : Finset ℤ) : Finset ℤ :=
  table ∪ (keys.filterMap answer).toFinset

theorem mem_opened {answer : κ → Option ℤ} {keys : List κ} :
    fd ∈ opened answer keys table ↔ fd ∈ table ∨ ∃ key ∈ keys, answer key = some fd := by
  rw [opened, Finset.mem_union, List.mem_toFinset, List.mem_filterMap]

section

variable {answer : κ → Option ℤ} {keys : List κ}

/-- Every call gets a descriptor if and only if there are enough. -/
theorem Answers.all_iff (h : Answers limit answer keys table) (hwithin : Within limit table) :
    (∀ key ∈ keys, (answer key).isSome = true) ↔ table.card + keys.length ≤ limit := by
  induction keys generalizing table with
  | nil => exact iff_of_true (fun _ hk => absurd hk List.not_mem_nil) hwithin.card_le
  | cons key rest ih =>
    obtain ⟨hkey, hrest⟩ := h
    rw [List.forall_mem_cons, List.length_cons]
    cases hfd : unused limit table with
    | none =>
      have hcard := hwithin.card_eq_iff.mpr hfd
      rw [hkey, hfd]
      refine iff_of_false (fun hsome => ?_) (by omega)
      cases hsome.1
    | some fd =>
      rw [hkey, hfd, ih (hrest fd (hkey.trans hfd)) (hwithin.insert hfd),
        Finset.card_insert_of_notMem (unused_some hfd).2.2]
      simp only [Option.isSome_some, true_and]
      omega

/-- What a call gets was not open. -/
theorem Answers.fresh (h : Answers limit answer keys table)
    (hall : ∀ key ∈ keys, (answer key).isSome = true) {key : κ} (hkey : key ∈ keys)
    (hfd : answer key = some fd) : 0 ≤ fd ∧ fd < limit ∧ fd ∉ table := by
  induction keys generalizing table with
  | nil => exact absurd hkey List.not_mem_nil
  | cons first rest ih =>
    obtain ⟨hfirst, hrest⟩ := h
    rw [List.forall_mem_cons] at hall
    obtain ⟨new, hnew⟩ := Option.isSome_iff_exists.mp hall.1
    have hunused := hfirst.symm.trans hnew
    rcases List.mem_cons.mp hkey with rfl | hkey
    · rw [hfd] at hnew
      rw [Option.some.inj hnew]
      exact unused_some hunused
    · obtain ⟨hpos, hlt, hnot⟩ := ih (hrest new hnew) hall.2 hkey
      exact ⟨hpos, hlt, fun hmem => hnot (Finset.mem_insert_of_mem hmem)⟩

/-- No two calls get the same. -/
theorem Answers.distinct (h : Answers limit answer keys table)
    (hall : ∀ key ∈ keys, (answer key).isSome = true) {key key' : κ} (hkey : key ∈ keys)
    (hkey' : key' ∈ keys) (heq : answer key = answer key') : key = key' := by
  induction keys generalizing table with
  | nil => exact absurd hkey List.not_mem_nil
  | cons first rest ih =>
    obtain ⟨hfirst, hrest⟩ := h
    rw [List.forall_mem_cons] at hall
    obtain ⟨new, hnew⟩ := Option.isSome_iff_exists.mp hall.1
    have hlater : ∀ k ∈ rest, answer k ≠ some new := fun k hk hsame =>
      ((hrest new hnew).fresh hall.2 hk hsame).2.2 (Finset.mem_insert_self new table)
    rcases List.mem_cons.mp hkey with hk | hk <;> rcases List.mem_cons.mp hkey' with hk' | hk'
    · rw [hk, hk']
    · rw [hk, hnew] at heq
      exact absurd heq.symm (hlater key' hk')
    · rw [hk', hnew] at heq
      exact absurd heq (hlater key hk)
    · exact ih (hrest new hnew) hall.2 hk hk'

theorem Answers.within (h : Answers limit answer keys table)
    (hall : ∀ key ∈ keys, (answer key).isSome = true) (hwithin : Within limit table) :
    Within limit (opened answer keys table) := by
  intro k hk
  rcases mem_opened.mp hk with hk | ⟨key, hkey, hfd⟩
  · exact hwithin k hk
  · obtain ⟨hpos, hlt, -⟩ := h.fresh hall hkey hfd
    exact ⟨hpos, hlt⟩

end

end Descriptors
