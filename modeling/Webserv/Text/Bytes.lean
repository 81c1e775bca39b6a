import Mathlib

/-!
# Byte strings

A C++ `std::string` is a list of bytes.  The character classes are those of the C locale: a byte
from 128 on is neither printable nor a letter, and `tolower` leaves it alone.
-/

namespace Text

abbrev Byte := UInt8

abbrev Str := List Byte

instance : LawfulBEq Str := List.instLawfulBEq

/-- The bytes of a string literal. -/
def lit (s : String) : Str := s.toUTF8.data.toList

/-- What a C function sees of a string passed as `c_str()`: the bytes before the first NUL. -/
def cStr (s : Str) : Str := s.takeWhile (· ≠ 0)

theorem cStr_eq_self {s : Str} (h : 0 ∉ s) : cStr s = s :=
  List.takeWhile_eq_self_iff.mpr fun b hb => by
    have : b ≠ 0 := fun h0 => h (h0 ▸ hb)
    simpa using this

theorem length_cStr_le (s : Str) : (cStr s).length ≤ s.length :=
  (List.takeWhile_prefix _).length_le

theorem zero_notMem_cStr (s : Str) : 0 ∉ cStr s := by
  intro h
  have hne := List.mem_takeWhile_imp h
  simp at hne

theorem cStr_eq_self_iff {s : Str} : cStr s = s ↔ 0 ∉ s :=
  ⟨fun h => h ▸ zero_notMem_cStr s, cStr_eq_self⟩

/-- The bytes before the first NUL of a text that starts with none. -/
theorem cStr_append {s t : Str} (h : 0 ∉ s) : cStr (s ++ t) = s ++ cStr t := by
  rw [cStr, List.takeWhile_append_of_pos]
  · rfl
  · intro b hb
    have hne : b ≠ 0 := fun h0 => h (h0 ▸ hb)
    simpa using hne

/-- A byte that stops a scan before the first NUL also stops it in the whole text. -/
theorem head?_cStr {s : Str} {p : Byte → Bool} (hs : ∀ c ∈ s.head?, p c = false) :
    ∀ c ∈ (cStr s).head?, p c = false := by
  cases s with
  | nil => simp [cStr]
  | cons d s =>
    rw [cStr, List.takeWhile_cons]
    split
    · exact hs
    · simp

/-! ## Character classes -/

def isspace (c : Byte) : Bool := c = 32 || (9 ≤ c && c ≤ 13)

def isdigit (c : Byte) : Bool := 48 ≤ c && c ≤ 57

def isxdigit (c : Byte) : Bool :=
  isdigit c || (65 ≤ c && c ≤ 70) || (97 ≤ c && c ≤ 102)

def isprint (c : Byte) : Bool := 32 ≤ c && c ≤ 126

def tolower (c : Byte) : Byte := if 65 ≤ c && c ≤ 90 then c + 32 else c

/-! ## Positions

`StringPos` is `std::string::size_type`, with `npos` as `none`.  Arithmetic on `npos` wraps, as
`npos` is the largest `size_type`. -/

abbrev StringPos := Option Nat

abbrev npos : StringPos := none

/-- `pos + 1`. -/
def StringPos.succ : StringPos → Nat
  | none => 0
  | some n => n + 1

/-- `e - b`.  A difference that wraps exceeds the length of every string, and as a length it
then means "to the end", as `npos` does. -/
def StringPos.sub : StringPos → StringPos → StringPos
  | some e, some b => if b ≤ e then some (e - b) else npos
  | some e, none => some (e + 1)
  | none, some _ => npos
  | none, none => some 0

/-- `find_first_of`, and `find_first_not_of` with the negated class: the first position from
`pos` on whose byte satisfies `p`. -/
def findFirst (p : Byte → Bool) (s : Str) : StringPos → StringPos
  | none => npos
  | some pos => ((s.drop pos).findIdx? p).map (· + pos)

theorem findFirst_eq_some {p : Byte → Bool} {s : Str} {pos i : Nat}
    (h : findFirst p s (some pos) = some i) :
    ∃ a c b, s.drop pos = a ++ c :: b ∧ (∀ d ∈ a, p d = false) ∧ p c = true ∧
      i = pos + a.length := by
  obtain ⟨k, hk, rfl⟩ := Option.map_eq_some_iff.mp h
  obtain ⟨hlt, hp, hfirst⟩ := List.findIdx?_eq_some_iff_getElem.mp hk
  refine ⟨(s.drop pos).take k, (s.drop pos)[k], (s.drop pos).drop (k + 1), ?_, ?_, hp, ?_⟩
  · rw [← List.drop_eq_getElem_cons hlt, List.take_append_drop]
  · intro d hd
    obtain ⟨j, hj, rfl⟩ := List.mem_take_iff_getElem.mp hd
    have hj' : j < k := by omega
    simpa using hfirst j hj'
  · rw [List.length_take_of_le (Nat.le_of_lt hlt), Nat.add_comm]

theorem findFirst_eq_none {p : Byte → Bool} {s : Str} {pos : Nat}
    (h : findFirst p s (some pos) = none) : ∀ d ∈ s.drop pos, p d = false :=
  List.findIdx?_eq_none_iff.mp (Option.map_eq_none_iff.mp h)

theorem findFirst_of_drop {p : Byte → Bool} {s a b : Str} {c : Byte} {pos : Nat}
    (h : s.drop pos = a ++ c :: b) (ha : ∀ d ∈ a, p d = false) (hc : p c = true) :
    findFirst p s (some pos) = some (pos + a.length) := by
  have hidx : (s.drop pos).findIdx? p = some a.length := by
    rw [h, List.findIdx?_append, List.findIdx?_eq_none_iff.mpr ha, Option.none_or,
      List.findIdx?_cons, if_pos hc]
    simp
  rw [findFirst, hidx, Option.map_some, Nat.add_comm]

theorem findFirst_of_none {p : Byte → Bool} {s : Str} {pos : Nat}
    (h : ∀ d ∈ s.drop pos, p d = false) : findFirst p s (some pos) = none := by
  rw [findFirst, List.findIdx?_eq_none_iff.mpr h, Option.map_none]

/-- `find_last_of`, and `find_last_not_of` with the negated class. -/
def findLast (p : Byte → Bool) (s : Str) : StringPos :=
  (s.reverse.findIdx? p).map fun i => s.length - 1 - i

/-- The place of the last occurrence. -/
theorem exists_eq_append_last {s : Str} {c : Byte} (h : c ∈ s) :
    ∃ front back, s = front ++ c :: back ∧ c ∉ back := by
  obtain ⟨after, before, hreverse, hafter⟩ :=
    List.eq_append_cons_of_mem (List.mem_reverse.mpr h)
  refine ⟨before.reverse, after.reverse, ?_, fun hin => hafter (List.mem_reverse.mp hin)⟩
  rw [← List.reverse_reverse s, hreverse]
  simp

theorem findLast_append {p : Byte → Bool} {a b : Str} {c : Byte} (hc : p c = true)
    (hb : ∀ d ∈ b, p d = false) : findLast p (a ++ c :: b) = some a.length := by
  have hreverse : (a ++ c :: b).reverse = b.reverse ++ c :: a.reverse := by simp
  have hidx : (b.reverse ++ c :: a.reverse).findIdx? p = some b.length := by
    rw [List.findIdx?_append,
      List.findIdx?_eq_none_iff.mpr fun d hd => hb d (List.mem_reverse.mp hd), Option.none_or,
      List.findIdx?_cons, if_pos hc]
    simp
  have hlen : (a ++ c :: b).length - 1 - b.length = a.length := by
    rw [List.length_append, List.length_cons]
    omega
  rw [findLast, hreverse, hidx, Option.map_some, hlen]

/-- `s.substr(pos, n)`, which throws (`none` here) when `pos` is past the end. -/
def substr? (s : Str) (pos n : StringPos) : Option Str :=
  match pos with
  | none => none
  | some p =>
    if p ≤ s.length then
      some (match n with
        | none => s.drop p
        | some k => (s.drop p).take k)
    else none

end Text
