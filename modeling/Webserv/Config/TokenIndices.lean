import Webserv.Config.Tokens
import Webserv.Text.Runs

/-!
# The indices of `isspaceSplit`

The loop again, with the two indices that it keeps into the string.  Behind the NUL at its end
there is nothing to read, so a loop that comes to its end has read nothing outside the string.
-/

namespace Webserv

open Text

namespace ConfigParser

namespace Indexed

/-- `str[i]`.  At its size a `const` string has a NUL. -/
def charAt (str : Str) (i : Nat) : Except Stop Byte :=
  match str[i]? with
  | some c => .ok c
  | none => if i = str.length then .ok 0 else .error .pastEnd

/-- `std::string(str, pos, n)` -/
def substring (str : Str) (pos n : StringPos) : Except Stop Str :=
  match substr? str pos n with
  | some token => .ok token
  | none => .error (.thrown (.outOfRange "basic_string::basic_string"))

/-- The variables of the loop. -/
structure Scan where
  tokens : List Str
  i : Nat
  j : Nat
  deriving DecidableEq, Repr

/-- `tokens.push_back(std::string(str, j, i - j))` -/
def pushToken (str : Str) (s : Scan) : Except Stop (List Str) := do
  let token ← substring str (some s.j) (StringPos.sub (some s.i) (some s.j))
  return s.tokens ++ [token]

/-- A round of the loop, with the character at `i`. -/
def round (str : Str) (c : Byte) (s : Scan) : Except Stop Scan :=
  if isspace c then
    if s.i = s.j then return { s with j := s.j + 1, i := s.i + 1 }
    else do
      let tokens ← pushToken str s
      return { tokens := tokens, j := s.i + 1, i := s.i + 1 }
  else return { s with i := s.i + 1 }

def loop (str : Str) : Nat → Scan → Except Stop Scan
  | 0, _ => .error .outOfFuel
  | fuel + 1, s => do
    let c ← charAt str s.i
    if c = 0 then return s
    else do
      let s ← round str c s
      loop str fuel s

/-- The fuel bounds the number of times that the condition of the loop is evaluated. -/
def isspaceSplit (fuel : Nat) (str : Str) : Except Stop (List Str) := do
  let s ← loop str fuel ⟨[], 0, 0⟩
  if s.i ≠ s.j then pushToken str s else return s.tokens

/-! ## Reading the string -/

theorem charAt_of_lt {str : Str} {i : Nat} {c : Byte} (h : (cStr str)[i]? = some c) :
    charAt str i = .ok c ∧ c ≠ 0 := by
  obtain ⟨tail, -, htext⟩ := exists_behind_cStr str
  have hlt : i < (cStr str).length := (List.getElem?_eq_some_iff.mp h).1
  have hget : str[i]? = some c := by
    rw [htext, List.getElem?_append_left hlt, h]
  refine ⟨by rw [charAt, hget], ?_⟩
  rintro rfl
  exact zero_notMem_cStr str (List.mem_of_getElem? h)

/-- The loop ends at the first NUL, which may be the one behind the string. -/
theorem charAt_end (str : Str) : charAt str (cStr str).length = .ok 0 := by
  obtain ⟨tail, htail, htext⟩ := exists_behind_cStr str
  cases tail with
  | nil =>
    have hlength : (cStr str).length = str.length := by
      rw [List.append_nil] at htext
      rw [← htext]
    rw [hlength, charAt, List.getElem?_eq_none (Nat.le_refl _)]
    exact if_pos rfl
  | cons c tail =>
    have hget : (cStr str ++ c :: tail)[(cStr str).length]? = some c := by
      rw [List.getElem?_append_right (Nat.le_refl _), Nat.sub_self]
      rfl
    rw [← htext, htail c rfl] at hget
    rw [charAt, hget]

/-- The characters from `b` up to `e`. -/
def slice (text : Str) (run : Nat × Nat) : Str := (text.drop run.1).take (run.2 - run.1)

theorem pushToken_ok {str : Str} {s : Scan} (hle : s.j ≤ s.i) (hend : s.i ≤ (cStr str).length) :
    pushToken str s = .ok (s.tokens ++ [slice (cStr str) (s.j, s.i)]) := by
  obtain ⟨tail, -, htext⟩ := exists_behind_cStr str
  have hlength := length_cStr_le str
  have htake : (str.drop s.j).take (s.i - s.j) = slice (cStr str) (s.j, s.i) := by
    conv_lhs => rw [htext]
    rw [slice, List.drop_append_of_le_length (by omega), List.take_append_of_le_length]
    rw [List.length_drop]
    omega
  have hsub : substring str (some s.j) (StringPos.sub (some s.i) (some s.j)) =
      .ok (slice (cStr str) (s.j, s.i)) := by
    rw [substring, StringPos.sub, if_pos hle, substr?, if_pos (show s.j ≤ str.length by omega)]
    dsimp only
    rw [htake]
  rw [pushToken, hsub]
  rfl

/-! ## Slices -/

section

variable {text : Str} {j i : Nat}

theorem slice_self (text : Str) (i : Nat) : slice text (i, i) = [] := by
  rw [slice, Nat.sub_self, List.take_zero]

theorem slice_succ {c : Byte} (hle : j ≤ i) (h : text[i]? = some c) :
    slice text (j, i + 1) = slice text (j, i) ++ [c] := by
  have hget : (text.drop j)[i - j]? = some c := by
    rw [List.getElem?_drop, show j + (i - j) = i by omega, h]
  rw [slice, slice, show i + 1 - j = i - j + 1 by omega, List.take_add_one, hget]
  rfl

theorem slice_ne_nil (hlt : j < i) (hle : i ≤ text.length) : slice text (j, i) ≠ [] := by
  refine List.ne_nil_of_length_pos ?_
  rw [slice, List.length_take, List.length_drop]
  omega

end

/-! ## The rounds -/

/-- A character at `k` that is no white space. -/
def LetterAt (text : Str) (k : Nat) : Prop := ∃ c, text[k]? = some c ∧ isspace c = false

theorem letterAt_iff {text : Str} {k : Nat} {c : Byte} (h : text[k]? = some c) :
    LetterAt text k ↔ isspace c = false := by
  constructor
  · rintro ⟨d, hd, hspace⟩
    obtain rfl := Option.some.inj (h.symm.trans hd)
    exact hspace
  · exact fun hspace => ⟨c, h, hspace⟩

theorem not_letterAt_of_space {text : Str} {k : Nat} {c : Byte} (h : text[k]? = some c)
    (hspace : isspace c = true) : ¬ LetterAt text k := by
  rw [letterAt_iff h, hspace]
  exact Bool.false_ne_true.symm

theorem not_letterAt {text : Str} {k : Nat} (h : text.length ≤ k) : ¬ LetterAt text k := by
  rintro ⟨c, hc, -⟩
  rw [List.getElem?_eq_none h] at hc
  cases hc

/-- The tokens are the runs that were found, and the rest of the text is still to be split. -/
structure Inv (str : Str) (s : Scan) (runs : List (Nat × Nat)) : Prop where
  scanned : Scanned (LetterAt (cStr str)) s.j s.i runs
  le_length : s.i ≤ (cStr str).length
  tokens : s.tokens = runs.map (slice (cStr str))
  split : ConfigParser.isspaceSplit str =
    s.tokens ++ isspaceSplitLoop (slice (cStr str) (s.j, s.i)) ((cStr str).drop s.i)

theorem inv_start (str : Str) : Inv str ⟨[], 0, 0⟩ [] where
  scanned := .start _
  le_length := Nat.zero_le _
  tokens := rfl
  split := rfl

namespace Inv

variable {str : Str} {s : Scan} {runs : List (Nat × Nat)} {c : Byte}

theorem lt_length (hc : (cStr str)[s.i]? = some c) : s.i < (cStr str).length :=
  (List.getElem?_eq_some_iff.mp hc).1

theorem drop_eq (hc : (cStr str)[s.i]? = some c) :
    (cStr str).drop s.i = c :: (cStr str).drop (s.i + 1) := by
  obtain ⟨hlt, rfl⟩ := List.getElem?_eq_some_iff.mp hc
  exact List.drop_eq_getElem_cons hlt

theorem letter (h : Inv str s runs) (hc : (cStr str)[s.i]? = some c) (hspace : isspace c = false) :
    Inv str { s with i := s.i + 1 } runs where
  scanned := h.scanned.letter ((letterAt_iff hc).mpr hspace)
  le_length := lt_length hc
  tokens := h.tokens
  split := by
    rw [h.split, drop_eq hc, isspaceSplitLoop, hspace, if_neg Bool.false_ne_true,
      slice_succ h.scanned.le hc]

/-- White space behind white space moves both indices. -/
theorem skipped (h : Inv str s runs) (hc : (cStr str)[s.i]? = some c) (hspace : isspace c = true)
    (heq : s.i = s.j) : Inv str { s with j := s.j + 1, i := s.i + 1 } runs where
  scanned := by
    have hscanned := h.scanned.blank (not_letterAt_of_space hc hspace)
    rw [closeRun, if_pos heq.symm] at hscanned
    rw [← heq]
    exact hscanned
  le_length := lt_length hc
  tokens := h.tokens
  split := by
    rw [h.split, drop_eq hc, heq, slice_self, isspaceSplitLoop, hspace, if_pos rfl, if_pos rfl,
      slice_self]

/-- White space behind a token stores it. -/
theorem stored (h : Inv str s runs) (hc : (cStr str)[s.i]? = some c) (hspace : isspace c = true)
    (hne : s.i ≠ s.j) :
    Inv str ⟨s.tokens ++ [slice (cStr str) (s.j, s.i)], s.i + 1, s.i + 1⟩
      (runs ++ [(s.j, s.i)]) where
  scanned := by
    have hscanned := h.scanned.blank (not_letterAt_of_space hc hspace)
    rw [closeRun, if_neg hne.symm] at hscanned
    exact hscanned
  le_length := lt_length hc
  tokens := by rw [h.tokens, List.map_append, List.map_singleton]
  split := by
    have hle := h.scanned.le
    have hnil : slice (cStr str) (s.j, s.i) ≠ [] := slice_ne_nil (by omega) h.le_length
    rw [h.split, drop_eq hc, isspaceSplitLoop, hspace, if_pos rfl, if_neg hnil, slice_self,
      List.append_assoc]
    rfl

/-- A round comes to its end and keeps the invariant. -/
theorem round (h : Inv str s runs) (hc : (cStr str)[s.i]? = some c) :
    ∃ s' runs', Indexed.round str c s = .ok s' ∧ Inv str s' runs' ∧ s'.i = s.i + 1 := by
  cases hspace : isspace c with
  | false =>
    refine ⟨_, runs, ?_, h.letter hc hspace, rfl⟩
    rw [Indexed.round, hspace, if_neg Bool.false_ne_true]
    rfl
  | true =>
    by_cases heq : s.i = s.j
    · refine ⟨_, runs, ?_, h.skipped hc hspace heq, rfl⟩
      rw [Indexed.round, hspace, if_pos rfl, if_pos heq]
      rfl
    · refine ⟨_, _, ?_, h.stored hc hspace heq, rfl⟩
      rw [Indexed.round, hspace, if_pos rfl, if_neg heq, pushToken_ok h.scanned.le h.le_length]
      rfl

/-- The loop comes to the end of the text. -/
theorem loop (h : Inv str s runs) :
    ∃ s' runs', (∀ fuel, (cStr str).length - s.i < fuel → Indexed.loop str fuel s = .ok s') ∧
      Inv str s' runs' ∧ s'.i = (cStr str).length := by
  induction hn : (cStr str).length - s.i generalizing s runs with
  | zero =>
    have hle := h.le_length
    have hend : s.i = (cStr str).length := by omega
    refine ⟨s, runs, fun fuel hfuel => ?_, h, hend⟩
    obtain ⟨fuel, rfl⟩ := Nat.exists_eq_succ_of_ne_zero (Nat.ne_of_gt hfuel)
    rw [Indexed.loop, hend, charAt_end]
    rfl
  | succ n ih =>
    obtain ⟨c, hc⟩ : ∃ c, (cStr str)[s.i]? = some c :=
      ⟨_, List.getElem?_eq_getElem (show s.i < (cStr str).length by omega)⟩
    obtain ⟨s₁, runs₁, hround, h₁, hi⟩ := h.round hc
    obtain ⟨s', runs', hloop, h', hend⟩ := ih h₁ (by omega)
    refine ⟨s', runs', fun fuel hfuel => ?_, h', hend⟩
    obtain ⟨fuel, rfl⟩ := Nat.exists_eq_succ_of_ne_zero (Nat.ne_zero_of_lt hfuel)
    obtain ⟨hchar, hne⟩ := charAt_of_lt hc
    rw [Indexed.loop, hchar, Except.ok_bind, if_neg hne, hround, Except.ok_bind,
      hloop fuel (by omega)]

end Inv

/-- What the loop leaves behind at the end of the text, with the token that is open there. -/
theorem exists_runs (str : Str) :
    ∃ runs : List (Nat × Nat), (∀ fuel, (cStr str).length < fuel →
        isspaceSplit fuel str = .ok (runs.map (slice (cStr str)))) ∧
      ConfigParser.isspaceSplit str = runs.map (slice (cStr str)) ∧
      (runs.Pairwise fun r r' => r.2 < r'.1) ∧
      ∀ b e, (b, e) ∈ runs ↔ IsRun (LetterAt (cStr str)) b e := by
  obtain ⟨s, runs, hloop, hinv, hend⟩ := (inv_start str).loop
  have hle := hinv.scanned.le
  have hdrop : (cStr str).drop s.i = [] := by rw [hend, List.drop_length]
  have hsplit := hinv.split
  rw [hdrop, isspaceSplitLoop] at hsplit
  refine ⟨closeRun s.j s.i runs, fun fuel hfuel => ?_, ?_, hinv.scanned.sorted_closeRun,
    fun b e => hinv.scanned.mem_closeRun_of_end fun k hk => not_letterAt (hend ▸ hk)⟩
  · rw [isspaceSplit, hloop fuel hfuel, Except.ok_bind, closeRun]
    by_cases heq : s.j = s.i
    · rw [if_neg (not_not.mpr heq.symm), if_pos heq, hinv.tokens]
      rfl
    · rw [if_pos (Ne.symm heq), if_neg heq, pushToken_ok hle hinv.le_length, hinv.tokens,
        List.map_append, List.map_singleton]
  · rw [hsplit, closeRun, hinv.tokens]
    by_cases heq : s.j = s.i
    · rw [if_pos heq, heq, slice_self, if_pos rfl, List.append_nil]
    · have hnil : slice (cStr str) (s.j, s.i) ≠ [] := slice_ne_nil (by omega) hinv.le_length
      rw [if_neg heq, if_neg hnil, List.map_append, List.map_singleton]

/-- The loop with its indices returns what the loop over the characters returns. -/
theorem isspaceSplit_eq {str : Str} {fuel : Nat} (hfuel : (cStr str).length < fuel) :
    isspaceSplit fuel str = .ok (ConfigParser.isspaceSplit str) := by
  obtain ⟨runs, hrun, hsplit, -⟩ := exists_runs str
  rw [hrun fuel hfuel, hsplit]

/-! ## Strings without NUL -/

/-- The tokens are the maximal runs without white space, in order. -/
structure SplitAtSpace (str : Str) (tokens : List Str) : Prop where
  words : ∀ token ∈ tokens, token ≠ [] ∧ ∀ c ∈ token, isspace c = false
  flatten : tokens.flatten = str.filter fun c => !isspace c
  runs : ∃ runs : List (Nat × Nat), tokens = runs.map (slice str) ∧
    (runs.Pairwise fun r r' => r.2 < r'.1) ∧
    (∀ b e, (b, e) ∈ runs ↔ IsRun (LetterAt str) b e) ∧
    ∀ i k, i < k → LetterAt str i → LetterAt str k →
      ((∃ run ∈ runs, run.1 ≤ i ∧ k < run.2) ↔
        ∀ m c, i < m → m < k → str[m]? = some c → isspace c = false)

/-- No white space lies between two letters exactly when all between them are letters. -/
theorem letters_between_iff {str : Str} {i k : Nat} (hi : LetterAt str i) (hk : LetterAt str k) :
    (∀ m, i ≤ m → m ≤ k → LetterAt str m) ↔
      ∀ m c, i < m → m < k → str[m]? = some c → isspace c = false := by
  constructor
  · intro h m c hm hmk hc
    exact (letterAt_iff hc).mp (h m (by omega) (by omega))
  · intro h m hm hmk
    rcases Nat.eq_or_lt_of_le hm with rfl | hlt
    · exact hi
    rcases Nat.eq_or_lt_of_le hmk with rfl | hltk
    · exact hk
    obtain ⟨c, hc, -⟩ := hk
    have hlength : k < str.length := (List.getElem?_eq_some_iff.mp hc).1
    have hget : str[m]? = some str[m] := List.getElem?_eq_getElem (by omega)
    exact (letterAt_iff hget).mpr (h m _ hlt hltk hget)

theorem splitAtSpace (str : Str) (h : 0 ∉ str) :
    SplitAtSpace str (ConfigParser.isspaceSplit str) where
  words := fun token htoken => by
    have hword := isToken_of_mem htoken
    exact ⟨hword.1, fun c hc => (hword.2 c hc).1⟩
  flatten := by
    rw [ConfigParser.isspaceSplit, isspaceSplitLoop_flatten, cStr_eq_self h, List.nil_append]
  runs := by
    obtain ⟨runs, -, hsplit, hsorted, hruns⟩ := exists_runs str
    rw [cStr_eq_self h] at hsplit hruns
    refine ⟨runs, hsplit, hsorted, hruns, fun i k hik hi hk => ?_⟩
    rw [← letters_between_iff hi hk,
      ← exists_isRun_iff (fun m hm => not_letterAt hm) (Nat.le_of_lt hik)]
    constructor
    · rintro ⟨⟨b, e⟩, hrun, hb, he⟩
      exact ⟨b, e, (hruns b e).mp hrun, hb, he⟩
    · rintro ⟨b, e, hrun, hb, he⟩
      exact ⟨(b, e), (hruns b e).mpr hrun, hb, he⟩

/-- The loop ends within one round more than there are characters, reads nothing outside the
string, and returns the maximal runs without white space.  Joined with single spaces they are
split again. -/
theorem isspaceSplit_runs (str : Str) (h : 0 ∉ str) :
    ∃ tokens, (∀ fuel, str.length < fuel → isspaceSplit fuel str = .ok tokens) ∧
      SplitAtSpace str tokens ∧
      ∀ fuel, ((lit " ").intercalate tokens).length < fuel →
        isspaceSplit fuel ((lit " ").intercalate tokens) = .ok tokens := by
  refine ⟨_, fun fuel hfuel => ?_, splitAtSpace str h, fun fuel hfuel => ?_⟩
  · have hle := length_cStr_le str
    exact isspaceSplit_eq (by omega)
  · have hle := length_cStr_le ((lit " ").intercalate (ConfigParser.isspaceSplit str))
    rw [isspaceSplit_eq (show _ < fuel by omega), isspaceSplit_joined fun _ => isToken_of_mem]

theorem isspaceSplit_runs_server :
    ∃ tokens,
      (∀ fuel, (lit " server  \x7b\n").length < fuel →
        isspaceSplit fuel (lit " server  \x7b\n") = .ok tokens) ∧
      SplitAtSpace (lit " server  \x7b\n") tokens ∧
      ∀ fuel, ((lit " ").intercalate tokens).length < fuel →
        isspaceSplit fuel ((lit " ").intercalate tokens) = .ok tokens :=
  isspaceSplit_runs (lit " server  \x7b\n") (by decide)

example : isspaceSplit 12 (lit " server  \x7b\n") = .ok [lit "server", lit "\x7b"] := rfl

end Indexed

end ConfigParser

end Webserv
