import Webserv.Request.HttpParser

/-!
# Hexadecimal numbers

`hexStringToInt` hands nothing but hexadecimal digits to `strtol`, so there is no blank, sign or
`0x` to skip and the number is the whole string.  The value passes three ranges on its way out:
`strtol` saturates it to `long`, `stoi` compares the result with the limits of `int`, and the
conversion of the `long` to `int` keeps what is left.
-/

namespace Webserv

open Text

/-! ## Digits -/

/-- The characters that `hexStringToInt` is documented to accept. -/
def HEX_DIGITS : Str := lit "0123456789abcdefABCDEF"

/-- The value of a hexadecimal digit, in either case. -/
def hexDigit (c : Byte) : Nat := (lit "0123456789abcdef").idxOf (tolower c)

theorem isxdigit_iff_mem : ∀ c : Byte, isxdigit c = true ↔ c ∈ HEX_DIGITS := by
  decide +kernel

theorem digitVal_hex : ∀ c : Byte, isxdigit c = true → digitVal c = some (hexDigit c) := by
  decide +kernel

theorem isDigitOf_of_isxdigit {c : Byte} (h : isxdigit c = true) : isDigitOf 16 c = true := by
  have hdigits : ∀ d : Byte, isxdigit d = true → isDigitOf 16 d = true := by decide +kernel
  exact hdigits c h

/-- A hexadecimal letter is neither a blank nor a sign nor the `x` of a prefix. -/
theorem ne_of_isxdigit {c d : Byte} (h : isxdigit c = true) (hd : isxdigit d = false) : c ≠ d := by
  intro heq
  rw [heq, hd] at h
  cases h

theorem isspace_of_isxdigit {c : Byte} (h : isxdigit c = true) : isspace c = false := by
  have hdigits : ∀ d : Byte, isxdigit d = true → isspace d = false := by decide +kernel
  exact hdigits c h

/-! ## Values -/

/-- A non-empty string of hexadecimal digits. -/
structure HexNumber (str : Str) : Prop where
  ne_nil : str ≠ []
  mem_HEX_DIGITS : ∀ c ∈ str, c ∈ HEX_DIGITS

/-- The number that the digits of a string denote in base 16, the last one being the least
significant. -/
def hexValue (str : Str) : Nat := Nat.ofDigits 16 (str.reverse.map hexDigit)

theorem hexNumber_iff {str : Str} :
    HexNumber str ↔ str ≠ [] ∧ ∀ c ∈ str, isxdigit c = true :=
  ⟨fun h => ⟨h.ne_nil, fun c hc => (isxdigit_iff_mem c).mpr (h.mem_HEX_DIGITS c hc)⟩,
    fun h => ⟨h.1, fun c hc => (isxdigit_iff_mem c).mp (h.2 c hc)⟩⟩

theorem hexValue_concat (str : Str) (c : Byte) :
    hexValue (str ++ [c]) = hexDigit c + 16 * hexValue str := by
  rw [hexValue, List.reverse_append, List.reverse_singleton, List.singleton_append, List.map_cons,
    Nat.ofDigits_cons, hexValue]

/-- Reading the digits from the front gives the same number. -/
theorem ofDigits_eq_hexValue {str : Str} (h : ∀ c ∈ str, isxdigit c = true) :
    ofDigits 16 str = hexValue str := by
  induction str using List.reverseRecOn with
  | nil => rfl
  | append_singleton str c ih =>
    rw [List.forall_mem_append, List.forall_mem_singleton] at h
    rw [ofDigits_concat, hexValue_concat, ih h.1, digitVal_hex c h.2, Option.getD_some]
    omega

theorem ofDigits_zeros (n : Nat) : ofDigits 16 (List.replicate n 48) = 0 := by
  unfold ofDigits
  induction n with
  | zero => rfl
  | succ n ih =>
    rw [List.replicate_succ, List.foldl_cons]
    exact ih

/-! ## What `strtol` reads -/

theorem strtolDigits_hex {s : Str} (hs : ∀ c ∈ s, isxdigit c = true) : strtolDigits 16 s = s := by
  have hall : s.takeWhile (isDigitOf 16) = s :=
    List.takeWhile_eq_self_iff.mpr fun c hc => isDigitOf_of_isxdigit (hs c hc)
  unfold strtolDigits
  split
  · next x c rest _ =>
    have hx := hs x (by simp)
    have h120 : x ≠ 120 := ne_of_isxdigit hx (by decide)
    have h88 : x ≠ 88 := ne_of_isxdigit hx (by decide)
    rw [if_neg (by simp [h120, h88])]
    exact hall
  · exact hall

/-- The whole string is the number, which has no sign. -/
theorem strtol_hex {s : Str} (hne : s ≠ []) (hs : ∀ c ∈ s, isxdigit c = true) :
    strtol s 16 = saturate (ofDigits 16 s) := by
  have hcStr : cStr s = s := cStr_eq_self fun h0 => absurd (hs 0 h0) (by decide)
  have hhead : ∀ c ∈ s.head?, isxdigit c = true := fun c hc => hs c (List.mem_of_mem_head? hc)
  have hdrop : (cStr s).dropWhile isspace = [] ++ s := by
    rw [hcStr, List.nil_append]
    exact dropWhile_append_head (List.forall_mem_nil _) fun c hc => isspace_of_isxdigit (hhead c hc)
  have hsign : ∀ c ∈ s.head?, c ≠ 45 ∧ c ≠ 43 := fun c hc =>
    ⟨ne_of_isxdigit (hhead c hc) (by decide), ne_of_isxdigit (hhead c hc) (by decide)⟩
  have hdigits := strtolDigits_hex hs
  rw [strtol_unspaced (Or.inl rfl) hdrop hsign (by rwa [hdigits]), hdigits]
  rfl

/-! ## What `hexStringToInt` returns -/

/-- Hexadecimal digits are a number that fits an `int` or one that is out of range, whether or not
`strtol` could hold it. -/
theorem hexStringToInt_hex {s : Str} (hne : s ≠ []) (hs : ∀ c ∈ s, isxdigit c = true) :
    utility.hexStringToInt s =
      if (ofDigits 16 s : Int) ≤ intMax then .ok (ofDigits 16 s : Int)
      else .error (.outOfRange "stoi") := by
  have hall : utility.consistsOfHexadecimal s = true := List.all_eq_true.mpr hs
  have hlow : ¬ (ofDigits 16 s : Int) < longMin := by
    unfold longMin
    omega
  have hmin : ¬ (ofDigits 16 s : Int) < intMin := by
    unfold intMin
    omega
  simp only [utility.hexStringToInt, utility.stoi, hall, strtol_hex hne hs, saturate, if_neg hlow]
  by_cases hlong : longMax < (ofDigits 16 s : Int)
  · have hint : ¬ (ofDigits 16 s : Int) ≤ intMax := by
      unfold longMax at hlong
      unfold intMax
      omega
    rw [if_pos hlong, if_neg hint]
    rfl
  · rw [if_neg hlong]
    by_cases hint : (ofDigits 16 s : Int) ≤ intMax
    · simp [hmin, hint]
    · simp [hint]

theorem hexStringToInt_ok {s : Str} (hne : s ≠ []) (hs : ∀ c ∈ s, isxdigit c = true)
    (hmax : (ofDigits 16 s : Int) ≤ intMax) : utility.hexStringToInt s = .ok (ofDigits 16 s) := by
  rw [hexStringToInt_hex hne hs, if_pos hmax]

/-- The empty string passes the filter and is left to `strtol`, which converts nothing. -/
theorem hexStringToInt_of_not_hex {s : Str} (h : ¬ (s ≠ [] ∧ ∀ c ∈ s, isxdigit c = true)) :
    ∃ what, utility.hexStringToInt s = .error (.invalidArgument what) := by
  by_cases hne : s = []
  · subst hne
    exact ⟨_, rfl⟩
  · have hall : utility.consistsOfHexadecimal s = false := by
      rw [← Bool.not_eq_true]
      exact fun hall => h ⟨hne, List.all_eq_true.mp hall⟩
    refine ⟨"hexStringToInt", ?_⟩
    rw [utility.hexStringToInt, hall]
    rfl

/-! ## The conversion to `int` -/

namespace utility.Long

/-- The conversion of a `long` to `int`: the low 32 bits in two's complement. -/
def intOfLong (num : Int) : Int := num.bmod 4294967296

/-- `utility::stoi` with the `long` that `strtol` returns.  No caller asks for `endpos`. -/
def stoi (str : Str) (base : Nat) : Except Exn Int :=
  let r := strtol str base
  let num := r.value
  if !r.converted then .error (.invalidArgument "stoi")
  else if r.erange || num < intMin || num > intMax then .error (.outOfRange "stoi")
  else .ok (intOfLong num)

def hexStringToInt (hexStr : Str) : Except Exn Int :=
  if !consistsOfHexadecimal hexStr then .error (.invalidArgument "hexStringToInt")
  else stoi hexStr 16

theorem intOfLong_eq {num : Int} (hmin : intMin ≤ num) (hmax : num ≤ intMax) :
    intOfLong num = num := by
  unfold intMin at hmin
  unfold intMax at hmax
  exact Int.bmod_eq_of_le (by omega) (by omega)

/-- Behind the comparison with the limits of `int` the conversion changes nothing. -/
theorem stoi_eq (str : Str) (base : Nat) : stoi str base = utility.stoi str base := by
  unfold stoi utility.stoi
  dsimp only
  split
  · rfl
  · split
    · rfl
    · next hrange =>
      simp only [Bool.or_eq_true, decide_eq_true_eq, not_or, not_lt] at hrange
      rw [intOfLong_eq hrange.1.2 hrange.2]

theorem hexStringToInt_eq (hexStr : Str) :
    hexStringToInt hexStr = utility.hexStringToInt hexStr := by
  rw [hexStringToInt, utility.hexStringToInt, stoi_eq]

theorem hexStringToInt_of_hexNumber {str : Str} (h : HexNumber str) :
    hexStringToInt str =
      if (hexValue str : Int) ≤ intMax then .ok (hexValue str : Int)
      else .error (.outOfRange "stoi") := by
  have hhex := hexNumber_iff.mp h
  rw [hexStringToInt_eq, hexStringToInt_hex hhex.1 hhex.2, ofDigits_eq_hexValue hhex.2]

theorem hexStringToInt_of_not_hexNumber {str : Str} (h : ¬ HexNumber str) :
    ∃ what, hexStringToInt str = .error (.invalidArgument what) := by
  rw [hexStringToInt_eq]
  exact hexStringToInt_of_not_hex (mt hexNumber_iff.mpr h)

/-- A string of hexadecimal digits is converted to the number it denotes or refused as too large,
and every other string is refused as no number. -/
theorem hexStringToInt_spec (str : Str) :
    (∀ n, hexStringToInt str = .ok n ↔
      HexNumber str ∧ (hexValue str : Int) ≤ intMax ∧ n = hexValue str) ∧
    ((∃ what, hexStringToInt str = .error (.outOfRange what)) ↔
      HexNumber str ∧ intMax < (hexValue str : Int)) ∧
    ((∃ what, hexStringToInt str = .error (.invalidArgument what)) ↔ ¬ HexNumber str) := by
  by_cases hhex : HexNumber str
  · have hvalue := hexStringToInt_of_hexNumber hhex
    by_cases hmax : (hexValue str : Int) ≤ intMax
    · rw [if_pos hmax] at hvalue
      rw [hvalue]
      refine ⟨fun n => ?_, ?_, ?_⟩
      · simp [hhex, hmax, eq_comm]
      · simp [hmax]
      · simp [hhex]
    · rw [if_neg hmax] at hvalue
      rw [hvalue]
      refine ⟨fun n => ?_, ?_, ?_⟩
      · simp [hmax]
      · simp [hhex, not_le.mp hmax]
      · simp [hhex]
  · obtain ⟨what, hwhat⟩ := hexStringToInt_of_not_hexNumber hhex
    rw [hwhat]
    refine ⟨fun n => ?_, ?_, ?_⟩
    · simp [hhex]
    · simp [hhex]
    · simp [hhex]

/-- `INT_MAX` behind leading zeros, and the next number. -/
example : hexStringToInt (lit "00007fffFFFF") = .ok 2147483647 ∧
    hexStringToInt (lit "80000000") = .error (.outOfRange "stoi") := by
  decide +kernel

end utility.Long

end Webserv
