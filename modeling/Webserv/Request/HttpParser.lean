import Webserv.Control.Except
import Webserv.Exception
import Webserv.Text.Search

/-!
# `utility` and `HttpParser`

The string and number helpers of `utility.cpp`, and the constants and helpers that the request
parsers inherit from `HttpParser`.
-/

namespace Webserv

open Text

namespace utility

/-- `end - begin + 1` of the source is taken before `begin` is tested.  It wraps when the string
has only bytes of `set`, and is not used then. -/
def trimCopyIf (str set : Str) : Except Exn Str :=
  if str = [] || set = [] then .ok str
  else
    let beginPos := findFirst (fun c => !set.contains c) str (some 0)
    let endPos := findLast (fun c => !set.contains c) str
    match beginPos, endPos with
    | some b, some e => substr str (some b) (some (e + 1 - b))
    | _, _ => .ok []

def toLower (str : Str) : Str := str.map tolower

def stoi (str : Str) (base : Nat) : Except Exn Int :=
  let r := strtol str base
  if !r.converted then .error (.invalidArgument "stoi")
  else if r.erange || r.value < intMin || r.value > intMax then .error (.outOfRange "stoi")
  else .ok r.value

def consistsOfHexadecimal (str : Str) : Bool := str.all isxdigit

def hexStringToInt (hexStr : Str) : Except Exn Int :=
  if !consistsOfHexadecimal hexStr then .error (.invalidArgument "hexStringToInt")
  else stoi hexStr 16

/-- `utility::toString` of a `size_t`. -/
def toString (val : Nat) : Str := decimal val

/-- `utility::toInt` of a string: `operator>>` skips blanks and reads the longest decimal
prefix.  A string without one leaves 0. -/
def toInt (val : Str) : Int :=
  let r := strtol val 10
  if r.value < intMin then intMin else if intMax < r.value then intMax else r.value

/-! ## Numbers -/

theorem stoi_of_intPrefix {s sign digits : Str} (h : IntPrefix s sign digits)
    (hmin : intMin ≤ signedValue sign digits) (hmax : signedValue sign digits ≤ intMax) :
    stoi s 10 = .ok (signedValue sign digits) := by
  have hlongMin : ¬ signedValue sign digits < longMin := by
    unfold intMin at hmin
    unfold longMin
    omega
  have hlongMax : ¬ longMax < signedValue sign digits := by
    unfold intMax at hmax
    unfold longMax
    omega
  simp [stoi, strtol_intPrefix h, saturate, hlongMin, hlongMax, hmin, hmax]

theorem stoi_ok {s : Str} {n : Int} (h : stoi s 10 = .ok n) :
    ∃ sign digits, IntPrefix s sign digits ∧ n = signedValue sign digits ∧
      intMin ≤ n ∧ n ≤ intMax := by
  unfold stoi at h
  dsimp only at h
  split at h
  · cases h
  · next hconv =>
    obtain ⟨sign, digits, hpre⟩ := exists_intPrefix (s := s) (by simpa using hconv)
    split at h
    · cases h
    · next hrange =>
      simp only [Bool.or_eq_true, decide_eq_true_eq, not_or, Bool.not_eq_true, not_lt] at hrange
      obtain ⟨⟨herange, hmin⟩, hmax⟩ := hrange
      rw [strtol_intPrefix hpre] at h hmin hmax herange
      refine ⟨sign, digits, hpre, ?_⟩
      rw [← Except.ok.inj h]
      refine ⟨?_, hmin, hmax⟩
      unfold saturate at herange ⊢
      split
      · next hlow => rw [if_pos hlow] at herange; cases herange
      · next hlow =>
        rw [if_neg hlow] at herange
        split
        · next hhigh => rw [if_pos hhigh] at herange; cases herange
        · rfl

theorem stoi_isOk_iff {s : Str} : (∃ n, stoi s 10 = .ok n) ↔ StartsWithInt s := by
  constructor
  · intro h
    obtain ⟨n, hn⟩ := h
    obtain ⟨sign, digits, hpre, rfl, hmin, hmax⟩ := stoi_ok hn
    exact ⟨sign, digits, hpre, hmin, hmax⟩
  · intro h
    obtain ⟨sign, digits, hpre, hmin, hmax⟩ := h
    exact ⟨_, stoi_of_intPrefix hpre hmin hmax⟩

/-- A number without blanks and sign is converted to its value. -/
theorem stoi_digits_ok {s : Str} {n : Int} (hs : ∀ c ∈ s, isdigit c = true)
    (h : stoi s 10 = .ok n) : n = ofDigits 10 s := by
  obtain ⟨sign, digits, hpre, rfl, -, -⟩ := stoi_ok h
  obtain ⟨rfl, rfl⟩ := hpre.eq_of_digits hs
  rw [signedValue, if_neg (by simp)]

theorem stoi_decimal {n : Nat} (hmax : (n : Int) ≤ intMax) : stoi (decimal n) 10 = .ok n := by
  have hpre := intPrefix_digits (decimal_ne_nil n) fun _ => isdigit_of_mem_decimal
  have hvalue : signedValue [] (decimal n) = n := by
    rw [signedValue, if_neg (by simp), ofDigits_decimal]
  have hmin : intMin ≤ (n : Int) := by
    unfold intMin
    omega
  rw [stoi_of_intPrefix hpre (by rw [hvalue]; exact hmin) (by rw [hvalue]; exact hmax), hvalue]

end utility

namespace HttpParser

def CR : Byte := 13
def LF : Byte := 10
def CRLF : Str := [CR, LF]
def OWS : Str := lit " \t"
def Delimiters : Str := lit "\"(),/:;<=>?@[\\]\x7b\x7d"
def kMaxHeaderLength : Nat := 1024
def kMaxBodyLength : Nat := 1048576

/-- The length of a body that is not too long is an `int`. -/
theorem le_intMax {n : Nat} (h : n ≤ kMaxBodyLength) : (n : Int) ≤ intMax := by
  unfold kMaxBodyLength at h
  unfold intMax
  omega

def isOWS (c : Byte) : Bool := OWS.contains c

def isHeaderDelimiter (c : Byte) : Bool := Delimiters.contains c

def isHeaderTokenChar (c : Byte) : Bool :=
  if isHeaderDelimiter c || c = 32 then false else isprint c

def isHeaderToken (str : Str) : Bool := str.all isHeaderTokenChar

/-- Reads a line at the offset and returns it with the offset of the next line. -/
def getLine (unparsedStr : Str) (offset : Nat) : Except Exn (Str × Nat) :=
  match findFrom unparsedStr CRLF offset with
  | none => .error (.parseError HttpStatus.badRequest "getLine() error")
  | some crlfPos => .ok ((unparsedStr.drop offset).take (crlfPos - offset), crlfPos + 2)

/-! ## Lines

Without positions: `getLine` splits what is left of the text at the first `CRLF`. -/

theorem CR_ne_LF : CR ≠ LF := by decide

theorem find_CRLF_eq_some_iff {s : Str} {i : Nat} :
    find CRLF s = some i ↔ ∃ a b, s = a ++ CRLF ++ b ∧ a.length = i ∧ ¬ CRLF <:+: a := by
  simpa [CRLF, List.append_assoc] using find_pair_eq_some_iff CR_ne_LF (s := s) (i := i)

theorem getLine_ok_iff {s line : Str} {offset next : Nat} :
    getLine s offset = .ok (line, next) ↔
      offset ≤ s.length ∧ next = offset + line.length + 2 ∧ ¬ CRLF <:+: line ∧
        ∃ rest, s.drop offset = line ++ CRLF ++ rest := by
  unfold getLine
  constructor
  · intro h
    split at h
    · cases h
    · next pos hpos =>
      obtain ⟨hle, j, hj, rfl⟩ := findFrom_eq_some_iff.mp hpos
      obtain ⟨a, b, hs, rfl, ha⟩ := find_CRLF_eq_some_iff.mp hj
      have hline : line = a := by
        have h1 := (Prod.mk.inj (Except.ok.inj h)).1
        rw [hs, Nat.add_sub_cancel, List.append_assoc, List.take_left'] at h1
        · exact h1.symm
        · rfl
      have hnext := (Prod.mk.inj (Except.ok.inj h)).2
      subst hline
      exact ⟨hle, by omega, ha, b, hs⟩
  · intro h
    obtain ⟨hle, rfl, hline, rest, hs⟩ := h
    have hfind : find CRLF (s.drop offset) = some line.length :=
      find_CRLF_eq_some_iff.mpr ⟨line, rest, hs, rfl, hline⟩
    have hfrom : findFrom s CRLF offset = some (line.length + offset) :=
      findFrom_eq_some_iff.mpr ⟨hle, _, hfind, rfl⟩
    rw [hfrom]
    simp only [Except.ok.injEq, Prod.mk.injEq]
    refine ⟨?_, by omega⟩
    rw [hs, Nat.add_sub_cancel, List.append_assoc, List.take_left' rfl]

theorem getLine_of_drop {buffer line rest : Str} {offset : Nat} (hle : offset ≤ buffer.length)
    (hline : ¬ CRLF <:+: line) (h : buffer.drop offset = line ++ CRLF ++ rest) :
    getLine buffer offset = .ok (line, offset + line.length + 2) ∧
      buffer.drop (offset + line.length + 2) = rest ∧ offset + line.length + 2 ≤ buffer.length := by
  refine ⟨getLine_ok_iff.mpr ⟨hle, rfl, hline, rest, h⟩, ?_, ?_⟩
  · rw [Nat.add_assoc, ← List.drop_drop, h, List.drop_left' (by rw [List.length_append]; rfl)]
  · have hlen := congrArg List.length h
    rw [List.length_drop, List.length_append, List.length_append] at hlen
    have hCRLF : CRLF.length = 2 := rfl
    omega

theorem getLine_error {s : Str} {offset : Nat} {e : Exn} (h : getLine s offset = .error e) :
    e = .parseError HttpStatus.badRequest "getLine() error" := by
  unfold getLine at h
  split at h
  · exact (Except.error.inj h).symm
  · cases h

end HttpParser

end Webserv
