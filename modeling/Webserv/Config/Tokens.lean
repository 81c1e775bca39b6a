import Webserv.Config.ConfigParser

/-!
# Tokens

`isspaceSplit` cuts a text at its white space and ends at the first NUL.  A token of the text is a
word between what gives the tokens in front of it and what gives the tokens behind it, and white
space that is put into it makes two tokens of it.
-/

namespace Webserv

open Text

namespace ConfigParser

/-- A word without white space and NUL. -/
def IsToken (token : Str) : Prop := token ≠ [] ∧ ∀ c ∈ token, isspace c = false ∧ c ≠ 0

instance (token : Str) : Decidable (IsToken token) :=
  have := List.decidableBAll (fun c => isspace c = false ∧ c ≠ 0) token
  inferInstanceAs (Decidable (token ≠ [] ∧ ∀ c ∈ token, isspace c = false ∧ c ≠ 0))

/-- The loop collects the letters of a token. -/
theorem isspaceSplitLoop_token {token : Str} (h : ∀ c ∈ token, isspace c = false) (begun : Str)
    (rest : Str) :
    isspaceSplitLoop begun (token ++ rest) = isspaceSplitLoop (begun ++ token) rest := by
  induction token generalizing begun with
  | nil => rw [List.nil_append, List.append_nil]
  | cons c token ih =>
    rw [List.forall_mem_cons] at h
    rw [List.cons_append, isspaceSplitLoop, h.1, if_neg (by decide), ih h.2, List.append_assoc]
    rfl

theorem isspaceSplitLoop_blanks {blanks : Str} (h : ∀ c ∈ blanks, isspace c = true)
    (rest : Str) : isspaceSplitLoop [] (blanks ++ rest) = isspaceSplitLoop [] rest := by
  induction blanks with
  | nil => rfl
  | cons c blanks ih =>
    rw [List.forall_mem_cons] at h
    rw [List.cons_append, isspaceSplitLoop, h.1, if_pos rfl, if_pos rfl, ih h.2]

/-- A token that ends is stored. -/
theorem isspaceSplitLoop_stored {token blanks : Str} (hne : token ≠ [])
    (h : ∀ c ∈ blanks, isspace c = true) {rest : Str} (hend : rest ≠ [] → blanks ≠ []) :
    isspaceSplitLoop token (blanks ++ rest) = token :: isspaceSplitLoop [] rest := by
  cases blanks with
  | nil =>
    obtain rfl : rest = [] := by
      by_contra hrest
      exact hend hrest rfl
    simp [isspaceSplitLoop, hne]
  | cons c blanks =>
    rw [List.forall_mem_cons] at h
    rw [List.cons_append, isspaceSplitLoop, h.1, if_pos rfl, if_neg hne,
      isspaceSplitLoop_blanks h.2]

theorem isspaceSplitLoop_nulFree {token str : Str} (htoken : 0 ∉ token) (hstr : 0 ∉ str) :
    ∀ t ∈ isspaceSplitLoop token str, 0 ∉ t := by
  induction str generalizing token with
  | nil =>
    rw [isspaceSplitLoop]
    split
    · exact List.forall_mem_nil _
    · simpa using htoken
  | cons c rest ih =>
    rw [List.mem_cons, not_or] at hstr
    have hrest := ih List.not_mem_nil hstr.2
    rw [isspaceSplitLoop]
    split
    · split
      · exact hrest
      · exact List.forall_mem_cons.mpr ⟨htoken, hrest⟩
    · refine ih ?_ hstr.2
      rw [List.mem_append, List.mem_singleton, not_or]
      exact ⟨htoken, hstr.1⟩

theorem isspaceSplit_nulFree (str : Str) : ∀ t ∈ isspaceSplit str, 0 ∉ t :=
  isspaceSplitLoop_nulFree List.not_mem_nil (zero_notMem_cStr str)

/-- Only the white space is left out. -/
theorem isspaceSplitLoop_flatten (token str : Str) :
    (isspaceSplitLoop token str).flatten = token ++ str.filter fun c => !isspace c := by
  induction str generalizing token with
  | nil =>
    rw [isspaceSplitLoop, List.filter_nil, List.append_nil]
    split
    · next hnil => rw [hnil, List.flatten_nil]
    · exact List.flatten_singleton
  | cons c rest ih =>
    rw [isspaceSplitLoop]
    cases hc : isspace c with
    | true =>
      rw [if_pos rfl, List.filter_cons_of_neg (by simp [hc])]
      split
      · next hnil => rw [ih, hnil]
      · rw [List.flatten_cons, ih, List.nil_append]
    | false =>
      rw [if_neg Bool.false_ne_true, ih, List.filter_cons_of_pos (by simp [hc]),
        List.append_assoc]
      rfl

/-! ## Places of tokens -/

/-- The loop begins anew behind white space. -/
theorem isspaceSplitLoop_append {before : Str} (hend : ∀ c ∈ before.getLast?, isspace c = true)
    {token : Str} (htoken : before = [] → token = []) (rest : Str) :
    isspaceSplitLoop token (before ++ rest) =
      isspaceSplitLoop token before ++ isspaceSplitLoop [] rest := by
  induction before generalizing token with
  | nil =>
    rw [htoken rfl]
    rfl
  | cons c before ih =>
    have htail : ∀ d ∈ before.getLast?, isspace d = true := by
      intro d hd
      cases before with
      | nil => cases hd
      | cons e before => exact hend d (by rwa [List.getLast?_cons_cons])
    rw [List.cons_append, isspaceSplitLoop, isspaceSplitLoop]
    split
    · split
      · exact ih htail fun _ => rfl
      · rw [ih htail fun _ => rfl, List.cons_append]
    · next hspace =>
      refine ih htail fun hnil => absurd ?_ hspace
      rw [hnil] at hend
      exact hend c rfl

theorem isspaceSplitLoop_word {w : Str} (hw : IsToken w) {rest : Str}
    (hrest : ∀ c ∈ rest.head?, isspace c = true) :
    isspaceSplitLoop [] (w ++ rest) = w :: isspaceSplitLoop [] rest := by
  rw [isspaceSplitLoop_token fun c hc => (hw.2 c hc).1, List.nil_append]
  cases rest with
  | nil => exact isspaceSplitLoop_stored hw.1 (List.forall_mem_nil _) fun h => absurd rfl h
  | cons c rest =>
    have hblank : ∀ d ∈ [c], isspace d = true := List.forall_mem_singleton.mpr (hrest c rfl)
    have hstored : isspaceSplitLoop w ([c] ++ rest) = w :: isspaceSplitLoop [] rest :=
      isspaceSplitLoop_stored hw.1 hblank fun _ => List.cons_ne_nil _ _
    rw [← isspaceSplitLoop_blanks hblank rest] at hstored
    exact hstored

theorem IsToken.nulFree {w : Str} (h : IsToken w) : 0 ∉ w := fun hmem => (h.2 0 hmem).2 rfl

/-- A token ends here: at white space, at the NUL or at the end. -/
def EndsToken (after : Str) : Prop := ∀ c ∈ after.head?, isspace c = true ∨ c = 0

theorem EndsToken.head?_cStr {after : Str} (h : EndsToken after) :
    ∀ c ∈ (cStr after).head?, isspace c = true := by
  intro c hc
  cases after with
  | nil => cases hc
  | cons d after =>
    rw [cStr, List.takeWhile_cons] at hc
    split at hc
    · next hne =>
      obtain rfl : d = c := Option.some.inj hc
      exact (h d rfl).resolve_right (by simpa using hne)
    · cases hc

theorem isspaceSplit_between {before w after : Str} (hnul : 0 ∉ before)
    (hend : ∀ c ∈ before.getLast?, isspace c = true) (hw : IsToken w) (hafter : EndsToken after) :
    isspaceSplit (before ++ w ++ after) = isspaceSplit before ++ w :: isspaceSplit after := by
  rw [isspaceSplit, isspaceSplit, isspaceSplit, List.append_assoc, cStr_append hnul,
    cStr_append hw.nulFree, cStr_eq_self hnul, isspaceSplitLoop_append hend fun _ => rfl,
    isspaceSplitLoop_word hw hafter.head?_cStr]

theorem isspace_ne_zero {blanks : Str} (h : ∀ c ∈ blanks, isspace c = true) : 0 ∉ blanks :=
  fun hmem => absurd (h 0 hmem) (by decide)

theorem isspaceSplit_blanks {blanks : Str} (h : ∀ c ∈ blanks, isspace c = true) :
    isspaceSplit blanks = [] := by
  have hloop := isspaceSplitLoop_blanks h []
  rw [List.append_nil] at hloop
  rw [isspaceSplit, cStr_eq_self (isspace_ne_zero h), hloop]
  rfl

/-- The text has this token, with these in front of it and behind it. -/
structure TokenAt (text : Str) (front : List Str) (before token after : Str) (back : List Str) :
    Prop where
  text_eq : text = before ++ token ++ after
  isToken : IsToken token
  nulFree : 0 ∉ before
  before_end : ∀ c ∈ before.getLast?, isspace c = true
  after_start : EndsToken after
  front_eq : isspaceSplit before = front
  back_eq : isspaceSplit after = back

theorem TokenAt.isspaceSplit_eq {text before token after : Str} {front back : List Str}
    (h : TokenAt text front before token after back) :
    isspaceSplit text = front ++ token :: back := by
  rw [h.text_eq, isspaceSplit_between h.nulFree h.before_end h.isToken h.after_start, h.front_eq,
    h.back_eq]

/-- The first word of a text. -/
theorem exists_word (s : Str) : ∃ blanks w rest, s = blanks ++ (w ++ rest) ∧
    (∀ c ∈ blanks, isspace c = true) ∧ (∀ c ∈ w, isspace c = false) ∧
      (∀ c ∈ rest.head?, isspace c = true) ∧ (w = [] → rest = []) := by
  induction s with
  | nil => exact ⟨[], [], [], rfl, by simp, by simp, by simp, fun _ => rfl⟩
  | cons c s ih =>
    obtain ⟨blanks, w, rest, rfl, hblanks, hw, hrest, hempty⟩ := ih
    cases hc : isspace c with
    | true =>
      exact ⟨c :: blanks, w, rest, rfl, List.forall_mem_cons.mpr ⟨hc, hblanks⟩, hw, hrest, hempty⟩
    | false =>
      cases blanks with
      | nil =>
        refine ⟨[], c :: w, rest, rfl, List.forall_mem_nil _, ?_, hrest, by simp⟩
        exact List.forall_mem_cons.mpr ⟨hc, hw⟩
      | cons d blanks =>
        refine ⟨[], [c], d :: blanks ++ (w ++ rest), rfl, List.forall_mem_nil _,
          List.forall_mem_singleton.mpr hc, fun e he => ?_, by simp⟩
        obtain rfl : d = e := Option.some.inj he
        exact hblanks d (List.mem_cons_self ..)

theorem cStr_of_head? {s : Str} (h : ∀ c ∈ s.head?, c = 0) : cStr s = [] := by
  cases s with
  | nil => rfl
  | cons c s =>
    rw [h c rfl]
    rfl

theorem exists_behind_cStr (s : Str) :
    ∃ tail : Str, (∀ c ∈ tail.head?, c = 0) ∧ s = cStr s ++ tail := by
  refine ⟨s.dropWhile (· ≠ 0), fun c hc => ?_, List.takeWhile_append_dropWhile.symm⟩
  have hhead := List.head?_dropWhile_not (fun c : Byte => decide (c ≠ 0)) s
  rw [hc] at hhead
  simpa using hhead

/-- What is behind the first token of a text. -/
theorem exists_first_token {text token : Str} {back : List Str}
    (h : isspaceSplit text = token :: back) :
    ∃ blanks after, (∀ c ∈ blanks, isspace c = true) ∧ text = blanks ++ token ++ after ∧
      IsToken token ∧ EndsToken after ∧ isspaceSplit after = back := by
  obtain ⟨blanks, w, rest, hsplit, hblanks, hw, hrest, hempty⟩ := exists_word (cStr text)
  have hnul : 0 ∉ blanks ++ (w ++ rest) := by
    rw [← hsplit]
    exact zero_notMem_cStr text
  rw [List.mem_append, List.mem_append, not_or, not_or] at hnul
  have hne : w ≠ [] := by
    intro hnil
    rw [isspaceSplit, hsplit, hnil, hempty hnil, List.nil_append, isspaceSplitLoop_blanks hblanks]
      at h
    cases h
  have htoken : IsToken w := ⟨hne, fun c hc => ⟨hw c hc, fun h0 => hnul.2.1 (h0 ▸ hc)⟩⟩
  rw [isspaceSplit, hsplit, isspaceSplitLoop_blanks hblanks, isspaceSplitLoop_word htoken hrest]
    at h
  obtain ⟨rfl, hback⟩ := List.cons.inj h
  obtain ⟨tail, htail, htext⟩ := exists_behind_cStr text
  refine ⟨blanks, rest ++ tail, hblanks, ?_, htoken, ?_, ?_⟩
  · rw [htext, hsplit]
    simp only [List.append_assoc]
  · intro c hc
    cases rest with
    | nil => exact Or.inr (htail c hc)
    | cons d rest => exact Or.inl (hrest c hc)
  · rw [isspaceSplit, cStr_append hnul.2.2, cStr_of_head? htail, List.append_nil, hback]

/-- Every token has its place. -/
theorem exists_tokenAt {text token : Str} {front back : List Str}
    (h : isspaceSplit text = front ++ token :: back) :
    ∃ before after, TokenAt text front before token after back := by
  induction front generalizing text with
  | nil =>
    obtain ⟨blanks, after, hblanks, rfl, htoken, hafter, hback⟩ := exists_first_token h
    exact ⟨blanks, after, rfl, htoken, isspace_ne_zero hblanks,
      fun c hc => hblanks c (List.mem_of_getLast? hc), hafter, isspaceSplit_blanks hblanks, hback⟩
  | cons first front ih =>
    obtain ⟨blanks, after₁, hblanks, rfl, hfirst, hafter₁, hrest⟩ := exists_first_token h
    obtain ⟨before, after, hat⟩ := ih hrest
    have hne : before ≠ [] := by
      rintro rfl
      obtain ⟨c, token', rfl⟩ := List.exists_cons_of_ne_nil hat.isToken.1
      have hc := hat.isToken.2 c (List.mem_cons_self ..)
      rcases hafter₁ c (by rw [hat.text_eq]; rfl) with hspace | hzero
      · rw [hc.1] at hspace
        cases hspace
      · exact hc.2 hzero
    have hbefore : EndsToken before := by
      intro c hc
      refine hafter₁ c ?_
      rw [hat.text_eq, List.append_assoc, List.head?_append, hc]
      rfl
    refine ⟨blanks ++ first ++ before, after, ?_, hat.isToken, ?_, ?_, hat.after_start, ?_,
      hat.back_eq⟩
    · rw [hat.text_eq]
      simp only [List.append_assoc]
    · rw [List.mem_append, List.mem_append, not_or, not_or]
      exact ⟨⟨isspace_ne_zero hblanks, hfirst.nulFree⟩, hat.nulFree⟩
    · intro c hc
      refine hat.before_end c ?_
      rwa [List.getLast?_append_of_ne_nil _ hne] at hc
    · rw [isspaceSplit_between (isspace_ne_zero hblanks)
        (fun c hc => hblanks c (List.mem_of_getLast? hc)) hfirst hbefore,
        isspaceSplit_blanks hblanks, hat.front_eq]
      rfl

/-- White space inside a token makes two tokens of it. -/
theorem TokenAt.cut {text before u v after blanks : Str} {front back : List Str}
    (h : TokenAt text front before (u ++ v) after back) (hu : u ≠ []) (hv : v ≠ [])
    (hblanks : ∀ c ∈ blanks, isspace c = true) (hne : blanks ≠ []) :
    isspaceSplit (before ++ u ++ blanks ++ v ++ after) = front ++ u :: v :: back := by
  have hu' : IsToken u := ⟨hu, fun c hc => h.isToken.2 c (List.mem_append_left _ hc)⟩
  have hv' : IsToken v := ⟨hv, fun c hc => h.isToken.2 c (List.mem_append_right _ hc)⟩
  have hnul : 0 ∉ before ++ u ++ blanks := by
    rw [List.mem_append, List.mem_append, not_or, not_or]
    exact ⟨⟨h.nulFree, hu'.nulFree⟩, isspace_ne_zero hblanks⟩
  have hend : ∀ c ∈ (before ++ u ++ blanks).getLast?, isspace c = true := by
    intro c hc
    rw [List.getLast?_append_of_ne_nil _ hne] at hc
    exact hblanks c (List.mem_of_getLast? hc)
  have hstart : EndsToken blanks := fun c hc => Or.inl (hblanks c (List.mem_of_head? hc))
  rw [isspaceSplit_between hnul hend hv' h.after_start,
    isspaceSplit_between h.nulFree h.before_end hu' hstart, isspaceSplit_blanks hblanks,
    h.front_eq, h.back_eq, List.append_assoc]
  rfl

/-- White space in front of a token changes nothing. -/
theorem TokenAt.padded {text before token after blanks : Str} {front back : List Str}
    (h : TokenAt text front before token after back)
    (hblanks : ∀ c ∈ blanks, isspace c = true) :
    isspaceSplit (before ++ blanks ++ token ++ after) = isspaceSplit text := by
  have hnul : 0 ∉ before ++ blanks := by
    rw [List.mem_append, not_or]
    exact ⟨h.nulFree, isspace_ne_zero hblanks⟩
  have hend : ∀ c ∈ (before ++ blanks).getLast?, isspace c = true := by
    intro c hc
    rw [List.getLast?_append, Option.mem_def, Option.or_eq_some_iff] at hc
    rcases hc with hc | ⟨-, hc⟩
    · exact hblanks c (List.mem_of_getLast? hc)
    · exact h.before_end c hc
  have hfront : isspaceSplit (before ++ blanks) = front := by
    have hblank := isspaceSplit_blanks hblanks
    rw [isspaceSplit, cStr_eq_self (isspace_ne_zero hblanks)] at hblank
    rw [isspaceSplit, cStr_eq_self hnul, isspaceSplitLoop_append h.before_end fun _ => rfl, hblank,
      List.append_nil, ← h.front_eq, isspaceSplit, cStr_eq_self h.nulFree]
  rw [isspaceSplit_between hnul hend h.isToken h.after_start, hfront, h.back_eq,
    h.isspaceSplit_eq]

theorem isToken_of_mem {text token : Str} (h : token ∈ isspaceSplit text) : IsToken token := by
  obtain ⟨front, back, hsplit⟩ := List.append_of_mem h
  obtain ⟨before, after, hat⟩ := exists_tokenAt hsplit
  exact hat.isToken

theorem isspaceSplit_blank (rest : Str) : isspaceSplit (32 :: rest) = isspaceSplit rest := by
  have hblank : ∀ c ∈ ([32] : Str), isspace c = true := List.forall_mem_singleton.mpr rfl
  exact isspaceSplitLoop_blanks hblank (cStr rest)

/-- Tokens behind one another with single spaces are read as these tokens. -/
theorem isspaceSplit_joined {tokens : List Str} (h : ∀ token ∈ tokens, IsToken token) :
    isspaceSplit ((lit " ").intercalate tokens) = tokens := by
  induction tokens with
  | nil => rfl
  | cons token tokens ih =>
    rw [List.forall_mem_cons] at h
    cases tokens with
    | nil =>
      have hsplit := isspaceSplit_between List.not_mem_nil (by simp) h.1
        (show EndsToken [] by simp [EndsToken])
      rw [List.nil_append, List.append_nil] at hsplit
      rw [List.intercalate_singleton, hsplit]
      rfl
    | cons token' tokens =>
      have hspace : EndsToken (lit " " ++ (lit " ").intercalate (token' :: tokens)) :=
        fun c hc => Or.inl (by obtain rfl : 32 = c := Option.some.inj hc; rfl)
      have hsplit := isspaceSplit_between List.not_mem_nil (by simp) h.1 hspace
      rw [List.nil_append] at hsplit
      rw [List.intercalate_cons_of_ne_nil (List.cons_ne_nil _ _), List.append_assoc, hsplit]
      exact congrArg (token :: ·) ((isspaceSplit_blank _).trans (ih h.2))

end ConfigParser

end Webserv
