import Webserv.Text.Bytes

/-!
# Numbers in text

`decimal` is what `operator<<` prints for an unsigned integer and `strtol` reads a number back
from text, in the C locale and with a 64-bit `long`.
-/

namespace Text

/-! ## Printing -/

/-- The decimal representation of `n`. -/
def decimal (n : Nat) : Str := (Nat.toDigits 10 n).map fun c => UInt8.ofNat c.toNat

/-- The decimal representation of an `int`. -/
def decimalInt (n : Int) : Str := if n < 0 then 45 :: decimal n.natAbs else decimal n.natAbs

theorem decimal_ne_nil (n : Nat) : decimal n ≠ [] := by
  simp [decimal, Nat.toDigits_ne_nil]

theorem decimal_eq_singleton {n : Nat} {c : Byte} (h : decimal n = [c]) :
    n < 10 ∧ c = UInt8.ofNat (48 + n) := by
  have hlen : (Nat.toDigits 10 n).length ≤ 1 := by
    have := congrArg List.length h
    simp only [decimal, List.length_map, List.length_singleton] at this
    omega
  have hn : n < 10 := by
    simpa using (Nat.length_toDigits_le_iff (by decide) (by decide)).mp hlen
  refine ⟨hn, ?_⟩
  rw [decimal, Nat.toDigits_of_lt_base hn] at h
  have hc : UInt8.ofNat n.digitChar.toNat = c := by simpa using h
  rw [← hc]
  interval_cases n <;> rfl

/-! ## Reading -/

/-- The value of a digit of base at most 36. -/
def digitVal (c : Byte) : Option Nat :=
  if isdigit c then some (c.toNat - 48)
  else if 97 ≤ c && c ≤ 122 then some (c.toNat - 87)
  else if 65 ≤ c && c ≤ 90 then some (c.toNat - 55)
  else none

def isDigitOf (base : Nat) (c : Byte) : Bool :=
  match digitVal c with
  | some d => d < base
  | none => false

/-- The number a list of digits denotes, most significant digit first. -/
def ofDigits (base : Nat) (s : Str) : Nat :=
  s.foldl (fun acc c => acc * base + (digitVal c).getD 0) 0

theorem ofDigits_concat (base : Nat) (s : Str) (c : Byte) :
    ofDigits base (s ++ [c]) = ofDigits base s * base + (digitVal c).getD 0 := by
  rw [ofDigits, List.foldl_append]
  rfl

def longMax : Int := 9223372036854775807

def longMin : Int := -9223372036854775808

def intMax : Int := 2147483647

def intMin : Int := -2147483648

/-- The conversion of an `int` to `size_t`, which wraps for a negative number. -/
def sizeOfInt (n : Int) : Nat := (n % 18446744073709551616).toNat

/-- The conversion of a `size_t` to `int`: the low 32 bits in two's complement. -/
def intOfSize (n : Nat) : Int :=
  let low : Int := (n % 4294967296 : Nat)
  if low ≤ intMax then low else low - 4294967296

/-- An `int` survives the way through `size_t` and back. -/
theorem intOfSize_sizeOfInt {n : Int} (hmin : intMin ≤ n) (hmax : n ≤ intMax) :
    intOfSize (sizeOfInt n) = n := by
  have hpos := Int.emod_nonneg n (show (18446744073709551616 : Int) ≠ 0 by decide)
  have hsize : (sizeOfInt n : Int) = n % 18446744073709551616 := Int.toNat_of_nonneg hpos
  rw [intMin] at hmin
  rw [intMax] at hmax
  unfold intOfSize intMax
  by_cases hlow : ((sizeOfInt n % 4294967296 : Nat) : Int) ≤ 2147483647
  · rw [if_pos hlow]
    omega
  · rw [if_neg hlow]
    omega

/-- A `size_t` that came from an `int` survives the way through `int` and back. -/
theorem sizeOfInt_intOfSize_sizeOfInt {n : Int} (hmin : intMin ≤ n) (hmax : n ≤ intMax) :
    sizeOfInt (intOfSize (sizeOfInt n)) = sizeOfInt n := by
  rw [intOfSize_sizeOfInt hmin hmax]

theorem sizeOfInt_natCast {n : Nat} (h : (n : Int) ≤ intMax) : sizeOfInt n = n := by
  unfold intMax at h
  unfold sizeOfInt
  omega

/-- What `strtol` reports: the value, saturated on overflow, whether it read any digit
(`endptr ≠ nptr`), and whether it set `errno` to `ERANGE`. -/
structure Strtol where
  value : Int
  converted : Bool
  erange : Bool
  deriving DecidableEq, Repr

/-- The digits `strtol` reads behind blanks and sign: in base 16 an optional `0x` before a hex
digit is skipped. -/
def strtolDigits (base : Nat) (s : Str) : Str :=
  match base, s with
  | 16, 48 :: x :: c :: rest =>
    if (x = 120 || x = 88) && isDigitOf 16 c then (c :: rest).takeWhile (isDigitOf 16)
    else s.takeWhile (isDigitOf 16)
  | _, _ => s.takeWhile (isDigitOf base)

/-- `strtol(s.c_str(), &end, base)` for base 10 or 16. -/
def strtol (s : Str) (base : Nat) : Strtol :=
  let unspaced := (cStr s).dropWhile isspace
  let (negative, unsigned) : Bool × Str :=
    match unspaced with
    | 45 :: rest => (true, rest)
    | 43 :: rest => (false, rest)
    | _ => (false, unspaced)
  let digits := strtolDigits base unsigned
  if digits = [] then ⟨0, false, false⟩
  else
    let n : Int := ofDigits base digits
    let v := if negative then -n else n
    if v < longMin then ⟨longMin, true, true⟩
    else if longMax < v then ⟨longMax, true, true⟩
    else ⟨v, true, false⟩

/-! ## Reading back what is printed -/

theorem decimal_of_lt {n : Nat} (h : n < 10) :
    decimal n = [UInt8.ofNat n.digitChar.toNat] := by
  rw [decimal, Nat.toDigits_of_lt_base h, List.map_singleton]

theorem decimal_of_ge {n : Nat} (h : 10 ≤ n) :
    decimal n = decimal (n / 10) ++ [UInt8.ofNat (n % 10).digitChar.toNat] := by
  rw [decimal, Nat.toDigits_of_base_le (by decide) h, List.map_append, List.map_singleton, decimal]

theorem digitVal_digitChar {d : Nat} (h : d < 10) :
    isdigit (UInt8.ofNat d.digitChar.toNat) = true ∧
      digitVal (UInt8.ofNat d.digitChar.toNat) = some d := by
  interval_cases d <;> decide

theorem isdigit_of_mem_decimal {n : Nat} {c : Byte} (h : c ∈ decimal n) : isdigit c = true := by
  induction n using Nat.strongRecOn with
  | ind n ih =>
    rcases Nat.lt_or_ge n 10 with hn | hn
    · rw [decimal_of_lt hn, List.mem_singleton] at h
      exact h ▸ (digitVal_digitChar hn).1
    · rw [decimal_of_ge hn] at h
      rcases List.mem_append.mp h with hinit | hlast
      · exact ih (n / 10) (by omega) hinit
      · exact List.mem_singleton.mp hlast ▸ (digitVal_digitChar (Nat.mod_lt n (by decide))).1

theorem cStr_decimal (n : Nat) : cStr (decimal n) = decimal n :=
  cStr_eq_self fun hmem => absurd (isdigit_of_mem_decimal hmem) (by decide)

theorem ofDigits_decimal (n : Nat) : ofDigits 10 (decimal n) = n := by
  induction n using Nat.strongRecOn with
  | ind n ih =>
    rcases Nat.lt_or_ge n 10 with hn | hn
    · rw [decimal_of_lt hn, ofDigits, List.foldl_cons, (digitVal_digitChar hn).2]
      simp
    · have hdiv := ih (n / 10) (by omega)
      rw [ofDigits] at hdiv
      rw [decimal_of_ge hn, ofDigits, List.foldl_append, hdiv, List.foldl_cons,
        (digitVal_digitChar (Nat.mod_lt n (by decide))).2]
      simp only [Option.getD_some, List.foldl_nil]
      omega

/-- A decimal number and nothing else. -/
def readDecimal (s : Str) : Option Nat :=
  if s ≠ [] ∧ ∀ c ∈ s, isdigit c = true then some (ofDigits 10 s) else none

theorem readDecimal_decimal (n : Nat) : readDecimal (decimal n) = some n := by
  rw [readDecimal, if_pos ⟨decimal_ne_nil n, fun _ => isdigit_of_mem_decimal⟩, ofDigits_decimal]

/-! ## Integers at the head of a text -/

def IsSign (sign : Str) : Prop := sign = [] ∨ sign = [43] ∨ sign = [45]

def signedValue (sign digits : Str) : Int :=
  if sign = [45] then -(ofDigits 10 digits : Int) else ofDigits 10 digits

/-- What `strtol` makes of a number. -/
def saturate (v : Int) : Strtol :=
  if v < longMin then ⟨longMin, true, true⟩
  else if longMax < v then ⟨longMax, true, true⟩
  else ⟨v, true, false⟩

/-- Blanks, a sign or none, and digits that no digit follows. -/
structure IntPrefix (s sign digits : Str) : Prop where
  split : ∃ blanks rest, s = blanks ++ (sign ++ (digits ++ rest)) ∧
    (∀ c ∈ blanks, isspace c = true) ∧ ∀ c ∈ rest.head?, isdigit c = false
  isSign : IsSign sign
  ne_nil : digits ≠ []
  isdigit_of_mem : ∀ c ∈ digits, isdigit c = true

theorem isdigit_iff {c : Byte} : isdigit c = true ↔ 48 ≤ c.toNat ∧ c.toNat ≤ 57 := by
  simp [isdigit, UInt8.le_iff_toNat_le]

theorem isDigitOf_ten (c : Byte) : isDigitOf 10 c = isdigit c := by
  unfold isDigitOf digitVal
  by_cases hc : isdigit c = true
  · have hrange := isdigit_iff.mp hc
    rw [hc, if_pos rfl]
    exact decide_eq_true (by omega)
  · rw [Bool.eq_false_iff.mpr hc, if_neg (by simp)]
    simp only [Bool.and_eq_true, decide_eq_true_eq, UInt8.le_iff_toNat_le, UInt8.reduceToNat]
    split
    · next d hd =>
      split at hd
      · next h => rw [← Option.some.inj hd]; exact decide_eq_false (by omega)
      · split at hd
        · next h => rw [← Option.some.inj hd]; exact decide_eq_false (by omega)
        · cases hd
    · rfl

theorem isspace_of_digit {c : Byte} (h : isdigit c = true) : isspace c = false := by
  rw [isdigit_iff] at h
  simp only [isspace, Bool.or_eq_false_iff, Bool.and_eq_false_iff, decide_eq_false_iff_not,
    UInt8.le_iff_toNat_le, UInt8.reduceToNat]
  refine ⟨fun h32 => ?_, by omega⟩
  rw [h32] at h
  simp at h

theorem takeWhile_append_head {p : Byte → Bool} {s t : Str} (hs : ∀ c ∈ s, p c = true)
    (ht : ∀ c ∈ t.head?, p c = false) : (s ++ t).takeWhile p = s := by
  rw [List.takeWhile_append_of_pos hs]
  cases t with
  | nil => simp
  | cons d t => rw [List.takeWhile_cons_of_neg (by simp [ht d rfl]), List.append_nil]

theorem dropWhile_append_head {p : Byte → Bool} {s t : Str} (hs : ∀ c ∈ s, p c = true)
    (ht : ∀ c ∈ t.head?, p c = false) : (s ++ t).dropWhile p = t := by
  rw [List.dropWhile_append_of_pos hs]
  cases t with
  | nil => rfl
  | cons d t => rw [List.dropWhile_cons_of_neg (by simp [ht d rfl])]

/-- `strtol` behind the blanks: the sign, and the digits that follow it. -/
theorem strtol_unspaced {s sign tail : Str} {base : Nat} (hsign : IsSign sign)
    (hdrop : (cStr s).dropWhile isspace = sign ++ tail)
    (htail : ∀ c ∈ tail.head?, c ≠ 45 ∧ c ≠ 43) (hne : strtolDigits base tail ≠ []) :
    strtol s base = saturate (if sign = [45] then -(ofDigits base (strtolDigits base tail) : Int)
      else ofDigits base (strtolDigits base tail)) := by
  simp only [strtol, hdrop]
  rcases hsign with rfl | rfl | rfl
  · rw [List.nil_append]
    split
    · exact absurd rfl (htail 45 rfl).1
    · exact absurd rfl (htail 43 rfl).2
    · dsimp only
      rw [if_neg hne]
      rfl
  · split
    · next h => cases (List.cons.inj h).1
    · next rest h =>
      obtain rfl : tail = rest := (List.cons.inj h).2
      rw [if_neg hne]
      rfl
    · next h => exact absurd rfl (h _)
  · split
    · next rest h =>
      obtain rfl : tail = rest := (List.cons.inj h).2
      rw [if_neg hne]
      rfl
    · next h => cases (List.cons.inj h).1
    · next h _ => exact absurd rfl (h _)

theorem strtol_intPrefix {s sign digits : Str} (h : IntPrefix s sign digits) :
    strtol s 10 = saturate (signedValue sign digits) := by
  obtain ⟨⟨blanks, rest, rfl, hblanks, hrest⟩, hsign, hne, hdigits⟩ := h
  have hblanks0 : 0 ∉ blanks := fun h0 => absurd (hblanks 0 h0) (by decide)
  have hdigits0 : 0 ∉ digits := fun h0 => absurd (hdigits 0 h0) (by decide)
  have hsign0 : 0 ∉ sign := by rcases hsign with rfl | rfl | rfl <;> decide
  have htake : strtolDigits 10 (digits ++ cStr rest) = digits := by
    rw [strtolDigits]
    · exact takeWhile_append_head (fun c hc => by rw [isDigitOf_ten, hdigits c hc])
        (fun c hc => by rw [isDigitOf_ten, head?_cStr hrest c hc])
    · intro _ _ _ h; cases h
  have hhead : ∀ c ∈ (digits ++ cStr rest).head?, isdigit c = true := by
    obtain ⟨d, ds, rfl⟩ := List.exists_cons_of_ne_nil hne
    intro c hc
    obtain rfl : d = c := Option.some.inj hc
    exact hdigits d (List.mem_cons_self ..)
  have hdrop : (cStr (blanks ++ (sign ++ (digits ++ rest)))).dropWhile isspace =
      sign ++ (digits ++ cStr rest) := by
    rw [cStr_append hblanks0, cStr_append hsign0, cStr_append hdigits0]
    refine dropWhile_append_head hblanks ?_
    intro c hc
    rcases hsign with rfl | rfl | rfl
    · exact isspace_of_digit (hhead c hc)
    · obtain rfl : (43 : Byte) = c := by simpa using hc
      decide
    · obtain rfl : (45 : Byte) = c := by simpa using hc
      decide
  have htail : ∀ c ∈ (digits ++ cStr rest).head?, c ≠ 45 ∧ c ≠ 43 := by
    intro c hc
    have hdigit := hhead c hc
    refine ⟨fun h => ?_, fun h => ?_⟩
    · rw [h] at hdigit; cases hdigit
    · rw [h] at hdigit; cases hdigit
  rw [strtol_unspaced hsign hdrop htail (by rwa [htake]), htake]
  rfl

/-- The sign and the digits that `strtol` looks for behind the blanks. -/
theorem exists_sign_of_converted {s : Str} (h : (strtol s 10).converted = true) :
    ∃ sign tail, IsSign sign ∧ (cStr s).dropWhile isspace = sign ++ tail ∧
      tail.takeWhile isdigit ≠ [] := by
  have hdigits : ∀ t, strtolDigits 10 t = t.takeWhile isdigit := by
    intro t
    rw [strtolDigits, funext isDigitOf_ten]
    intro _ _ _ h
    cases h
  simp only [strtol, hdigits] at h
  split at h
  · next rest hunspaced =>
    refine ⟨[45], rest, Or.inr (Or.inr rfl), hunspaced, fun hnil => ?_⟩
    rw [if_pos hnil] at h
    cases h
  · next rest hunspaced =>
    refine ⟨[43], rest, Or.inr (Or.inl rfl), hunspaced, fun hnil => ?_⟩
    rw [if_pos hnil] at h
    cases h
  · refine ⟨[], (cStr s).dropWhile isspace, Or.inl rfl, rfl, fun hnil => ?_⟩
    rw [if_pos hnil] at h
    cases h

/-- A text that `strtol` converts has a number at its head. -/
theorem exists_intPrefix {s : Str} (h : (strtol s 10).converted = true) :
    ∃ sign digits, IntPrefix s sign digits := by
  obtain ⟨sign, tail, hsign, hdrop, hne⟩ := exists_sign_of_converted h
  let after := s.dropWhile (· ≠ 0)
  have hafter : ∀ c ∈ after.head?, isdigit c = false := by
    intro c hc
    have hzero := List.head?_dropWhile_not (· ≠ 0) s
    rw [Option.mem_def.mp hc] at hzero
    obtain rfl : c = 0 := by simpa using hzero
    decide
  have hs : s = (cStr s).takeWhile isspace ++ (sign ++ (tail ++ after)) := by
    rw [← List.append_assoc sign, ← hdrop, ← List.append_assoc, List.takeWhile_append_dropWhile]
    exact (List.takeWhile_append_dropWhile).symm
  refine ⟨sign, tail.takeWhile isdigit,
    ⟨(cStr s).takeWhile isspace, tail.dropWhile isdigit ++ after, ?_, fun c hc => ?_, ?_⟩, hsign,
    hne, fun c hc => ?_⟩
  · rw [← List.append_assoc (tail.takeWhile isdigit), List.takeWhile_append_dropWhile]
    exact hs
  · exact List.mem_takeWhile_imp hc
  · intro c hc
    have hstop := List.head?_dropWhile_not isdigit tail
    cases hrest : tail.dropWhile isdigit with
    | nil =>
      rw [hrest] at hc
      exact hafter c hc
    | cons d rest =>
      rw [hrest] at hc hstop
      obtain rfl : d = c := by simpa using hc
      simpa using hstop
  · exact List.mem_takeWhile_imp hc

/-- In a text of digits the number is the whole text. -/
theorem IntPrefix.eq_of_digits {s sign digits : Str} (h : IntPrefix s sign digits)
    (hs : ∀ c ∈ s, isdigit c = true) : sign = [] ∧ digits = s := by
  obtain ⟨⟨blanks, rest, rfl, hblanks, hrest⟩, hsign, -, -⟩ := h
  have hmem : ∀ c ∈ blanks ++ (sign ++ (digits ++ rest)), isdigit c = true := hs
  simp only [List.mem_append] at hmem
  have hnoBlank : blanks = [] := by
    refine List.eq_nil_iff_forall_not_mem.mpr fun c hc => ?_
    have hspace := isspace_of_digit (hmem c (Or.inl hc))
    rw [hblanks c hc] at hspace
    cases hspace
  have hnoSign : sign = [] := by
    rcases hsign with rfl | rfl | rfl
    · rfl
    · exact absurd (hmem 43 (by simp)) (by decide)
    · exact absurd (hmem 45 (by simp)) (by decide)
  have hnoRest : rest = [] := by
    cases rest with
    | nil => rfl
    | cons c rest =>
      have hdigit := hmem c (by simp)
      rw [hrest c rfl] at hdigit
      cases hdigit
  subst hnoBlank hnoSign hnoRest
  simp

theorem intPrefix_digits {s : Str} (hne : s ≠ []) (hs : ∀ c ∈ s, isdigit c = true) :
    IntPrefix s [] s where
  split := ⟨[], [], by simp, by simp, by simp⟩
  isSign := Or.inl rfl
  ne_nil := hne
  isdigit_of_mem := hs

/-- The text starts with a number, behind blanks perhaps, that fits an `int`. -/
def StartsWithInt (s : Str) : Prop :=
  ∃ sign digits, IntPrefix s sign digits ∧ intMin ≤ signedValue sign digits ∧
    signedValue sign digits ≤ intMax

end Text
