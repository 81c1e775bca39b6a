import Webserv.Request.HeaderLines

/-!
# The grammar of header fields

A header line is a name of token characters, a colon, and a value between blanks.  Lines with one
name are merged into one field, whatever stands between them, and `Host` is the only name that
must occur, and must not occur twice.
-/

namespace Webserv

open Text HttpParser

/-! ## Names -/

/-- Lower case keeps the token characters, and no token character is a blank, a colon or the start
of a line terminator. -/
theorem tokenChar : ∀ c : Byte,
    isHeaderTokenChar (tolower c) = isHeaderTokenChar c ∧
      (isHeaderTokenChar c = true → isOWS c = false ∧ c ≠ 58 ∧ c ≠ CR) := by
  decide +kernel

theorem isHeaderToken_toLower (name : Str) :
    isHeaderToken (utility.toLower name) = isHeaderToken name := by
  rw [isHeaderToken, isHeaderToken, utility.toLower, List.all_map]
  exact List.all_congr rfl fun c => (tokenChar c).1

theorem validateOneHeaderField_iff {name : Str} :
    HeaderFieldParser.validateOneHeaderField (utility.toLower name) = .ok () ↔
      name ≠ [] ∧ isHeaderToken name = true := by
  have hnil : utility.toLower name = [] ↔ name = [] := by rw [utility.toLower, List.map_eq_nil_iff]
  rw [← isHeaderToken_toLower name, Ne, ← hnil]
  generalize utility.toLower name = lower
  rw [HeaderFieldParser.validateOneHeaderField]
  by_cases hne : lower = []
  · simp [hne]
  · by_cases htoken : isHeaderToken lower = true
    · have hlast : isOWS (lower.getLastD 0) = false := by
        rw [List.getLastD_eq_getLast?, List.getLast?_eq_some_getLast hne, Option.getD_some]
        exact ((tokenChar _).2 (List.all_eq_true.mp htoken _ (List.getLast_mem hne))).1
      rw [if_neg hne, hlast, htoken]
      exact iff_of_true rfl ⟨hne, rfl⟩
    · rw [if_neg hne]
      cases hlast : isOWS (lower.getLastD 0) with
      | true => exact iff_of_false (fun h => by cases h) fun h => htoken h.2
      | false =>
        rw [Bool.not_eq_true] at htoken
        rw [htoken]
        exact iff_of_false (fun h => by cases h) fun h => by cases h.2

/-! ## Values -/

/-- A value that neither starts nor ends with a blank. -/
def Trimmed (value : Str) : Prop :=
  (∀ c ∈ value.head?, isOWS c = false) ∧ ∀ c ∈ value.getLast?, isOWS c = false

instance (value : Str) : Decidable (Trimmed value) := inferInstanceAs (Decidable (_ ∧ _))

/-- The value without the blanks around it. -/
def TrimmedOf (raw value : Str) : Prop :=
  Trimmed value ∧ ∃ before after, raw = before ++ (value ++ after) ∧
    (∀ c ∈ before, isOWS c = true) ∧ ∀ c ∈ after, isOWS c = true

theorem exists_trimmedOf (raw : Str) : ∃ value, TrimmedOf raw value := by
  induction raw with
  | nil => exact ⟨[], ⟨by simp, by simp⟩, [], [], rfl, by simp, by simp⟩
  | cons c raw ih =>
    obtain ⟨value, ⟨hhead, hlast⟩, before, after, rfl, hbefore, hafter⟩ := ih
    cases hc : isOWS c with
    | true =>
      exact ⟨value, ⟨hhead, hlast⟩, c :: before, after, rfl,
        List.forall_mem_cons.mpr ⟨hc, hbefore⟩, hafter⟩
    | false =>
      have hhead' : ∀ d ∈ some c, isOWS d = false := fun d hd => by rwa [← Option.some.inj hd]
      cases value with
      | nil =>
        refine ⟨[c], ⟨hhead', hhead'⟩, [], before ++ after, rfl, by simp, ?_⟩
        rw [List.forall_mem_append]
        exact ⟨hbefore, hafter⟩
      | cons d value =>
        refine ⟨c :: (before ++ d :: value), ⟨hhead', ?_⟩, [], after, by simp, by simp, hafter⟩
        rw [← List.cons_append, List.getLast?_append_cons]
        exact hlast

theorem TrimmedOf.trimCopyIf_ok {raw value : Str} (h : TrimmedOf raw value) :
    utility.trimCopyIf raw OWS = .ok value := by
  obtain ⟨⟨hhead, hlast⟩, before, after, hraw, hbefore, hafter⟩ := h
  have hblank {s : Str} (hs : ∀ c ∈ s, isOWS c = true) :
      ∀ c ∈ s, (!OWS.contains c) = false := fun c hc => by
    rw [show OWS.contains c = true from hs c hc]
    rfl
  by_cases hnil : raw = []
  · obtain ⟨-, hvalue⟩ := List.append_eq_nil_iff.mp (hraw.symm.trans hnil)
    rw [hnil, (List.append_eq_nil_iff.mp hvalue).1]
    rfl
  · have hows : OWS ≠ [] := by decide
    rw [utility.trimCopyIf, if_neg (by simp [hnil, hows])]
    dsimp only
    rcases List.eq_nil_or_concat value with rfl | ⟨init, last, rfl⟩
    · have hnone : findFirst (fun c => !OWS.contains c) raw (some 0) = npos := by
        refine findFirst_of_none fun c hc => ?_
        rw [List.drop_zero, hraw, List.nil_append, List.mem_append] at hc
        exact hc.elim (hblank hbefore c) (hblank hafter c)
      rw [hnone]
    · rw [List.concat_eq_append] at hraw hhead hlast ⊢
      have hlastOws : isOWS last = false := hlast last (by simp)
      have hend : findLast (fun c => !OWS.contains c) raw = some (before ++ init).length := by
        have hsplit : raw = (before ++ init) ++ last :: after := by rw [hraw]; simp
        rw [hsplit]
        exact findLast_append (by rw [show OWS.contains last = false from hlastOws]; rfl)
          (hblank hafter)
      obtain ⟨first, tail, hcons⟩ := List.exists_cons_of_ne_nil
        (List.append_ne_nil_of_right_ne_nil init (List.cons_ne_nil last []))
      have hfirstOws : isOWS first = false := hhead first (by rw [hcons]; rfl)
      have hdrop : raw.drop 0 = before ++ first :: (tail ++ after) := by
        rw [List.drop_zero, hraw, hcons]
        rfl
      have hbegin := findFirst_of_drop hdrop (hblank hbefore)
        (by rw [show OWS.contains first = false from hfirstOws]; rfl)
      have hlen : (before ++ init).length + 1 - (0 + before.length) = (init ++ [last]).length := by
        simp only [List.length_append, List.length_singleton]
        omega
      have hword : raw.drop (0 + before.length) = (init ++ [last]) ++ after := by
        rw [Nat.zero_add, hraw, List.drop_left' rfl]
      have hle : 0 + before.length ≤ raw.length := by
        rw [hraw, List.length_append]
        omega
      rw [hbegin, hend]
      dsimp only
      rw [hlen]
      exact substr_of_drop hle hword

theorem trimCopyIf_iff {raw value : Str} :
    utility.trimCopyIf raw OWS = .ok value ↔ TrimmedOf raw value := by
  constructor
  · intro h
    obtain ⟨value', hvalue'⟩ := exists_trimmedOf raw
    obtain rfl := Except.ok.inj (hvalue'.trimCopyIf_ok.symm.trans h)
    exact hvalue'
  · exact TrimmedOf.trimCopyIf_ok

/-! ## Lines -/

/-- A printable character other than a blank and a delimiter. -/
def NameChar (c : Byte) : Prop := isprint c = true ∧ c ≠ 32 ∧ c ∉ Delimiters

/-- The line is a header field of this name, in lower case, and this value. -/
structure IsField (line : Str) (field : HeaderFieldPair) : Prop where
  split : ∃ name raw, line = name ++ 58 :: raw ∧ 58 ∉ name ∧ name ≠ [] ∧
    (∀ c ∈ name, NameChar c) ∧ field.1 = utility.toLower name ∧ TrimmedOf raw field.2

theorem nameChar_iff {c : Byte} : NameChar c ↔ isHeaderTokenChar c = true := by
  unfold NameChar isHeaderTokenChar isHeaderDelimiter
  by_cases hdelimiter : c ∈ Delimiters
  · simp [hdelimiter]
  · by_cases hblank : c = 32 <;> simp [hdelimiter, hblank]

theorem isHeaderToken_iff {name : Str} : isHeaderToken name = true ↔ ∀ c ∈ name, NameChar c := by
  rw [isHeaderToken, List.all_eq_true]
  exact forall₂_congr fun _ _ => nameChar_iff.symm

theorem parseHeaderField_iff {line : Str} {field : HeaderFieldPair} :
    HeaderFieldParser.parseHeaderField line = .ok field ↔ IsField line field := by
  by_cases hcolon : 58 ∈ line
  · obtain ⟨name, raw, hline, hfree⟩ := List.eq_append_cons_of_mem hcolon
    have hdrop : line.drop 0 = name ++ 58 :: raw := hline
    have hpos : findFirst (· = 58) line (some 0) = some (0 + name.length) :=
      findFirst_of_drop hdrop (fun c hc => decide_eq_false fun heq => hfree (heq ▸ hc)) rfl
    have hname : HeaderFieldParser.parseFieldName line name.length =
        .ok (utility.toLower name) := by
      rw [HeaderFieldParser.parseFieldName, substr_of_drop (Nat.zero_le _) hdrop]
      rfl
    have hvalue : HeaderFieldParser.parseFieldValue line name.length =
        utility.trimCopyIf raw OWS := by
      have hraw : line.drop (name.length + 1) = raw := by
        rw [← List.drop_drop, hline, List.drop_left' rfl]
        rfl
      have hle : name.length + 1 ≤ line.length := by
        rw [hline, List.length_append, List.length_cons]
        omega
      rw [HeaderFieldParser.parseFieldValue, substr_drop hle, hraw, Except.ok_bind]
    rw [HeaderFieldParser.parseHeaderField, hpos, Nat.zero_add]
    dsimp only
    rw [hname, Except.ok_bind, hvalue]
    constructor
    · intro h
      obtain ⟨value, htrim, h⟩ := Except.bind_eq_ok_iff.mp h
      obtain ⟨_, hvalid, h⟩ := Except.bind_eq_ok_iff.mp h
      obtain rfl := Except.ok.inj h
      obtain ⟨hne, htoken⟩ := validateOneHeaderField_iff.mp hvalid
      exact ⟨name, raw, hline, hfree, hne, isHeaderToken_iff.mp htoken, rfl,
        trimCopyIf_iff.mp htrim⟩
    · rintro ⟨name', raw', hline', hfree', hne, htoken, hlower, htrim⟩
      obtain ⟨rfl, rfl⟩ := append_cons_unique hfree hfree' (hline.symm.trans hline')
      rw [trimCopyIf_iff.mpr htrim, Except.ok_bind,
        validateOneHeaderField_iff.mpr ⟨hne, isHeaderToken_iff.mpr htoken⟩, ← hlower]
      rfl
  · have hnone : findFirst (· = 58) line (some 0) = npos :=
      findFirst_of_none fun c hc => decide_eq_false fun heq => hcolon (heq ▸ hc)
    rw [HeaderFieldParser.parseHeaderField, hnone]
    refine iff_of_false (fun h => by cases h) ?_
    rintro ⟨name, raw, rfl, -⟩
    exact hcolon (by simp)

/-! ## Merging -/

/-- The values of one name, in order of appearance. -/
def valuesOf (fields : List HeaderFieldPair) (n : Str) : List Str :=
  (fields.filter fun field => field.1 = n).map (·.2)

/-- The values with commas between them, unless there is none. -/
def joined (values : List Str) : Option Str :=
  if values = [] then none else some ((lit ",").intercalate values)

theorem valuesOf_cons (field : HeaderFieldPair) (fields : List HeaderFieldPair) (n : Str) :
    valuesOf (field :: fields) n =
      if field.1 = n then field.2 :: valuesOf fields n else valuesOf fields n := by
  by_cases hn : field.1 = n <;> simp [valuesOf, hn]

theorem joined_cons (value : Str) (values : List Str) :
    joined (value :: values) = joinValues (some value) (joined values) := by
  by_cases hnil : values = []
  · simp [joined, hnil]
  · rw [joined, joined, if_neg (List.cons_ne_nil _ _), if_neg hnil,
      List.intercalate_cons_of_ne_nil hnil]
    rfl

theorem getElem?_foldl_mergeField (fields : List HeaderFieldPair) (map : HeaderFieldMap)
    (n : Str) :
    (fields.foldl mergeField map)[n]? = joinValues map[n]? (joined (valuesOf fields n)) := by
  induction fields generalizing map with
  | nil => simp [valuesOf, joined]
  | cons field fields ih =>
    rw [List.foldl_cons, ih, getElem?_mergeField, joinValues_assoc, valuesOf_cons]
    by_cases hn : field.1 = n
    · rw [if_pos hn, if_pos hn, joined_cons]
    · rw [if_neg hn, if_neg hn]
      cases joined (valuesOf fields n) <;> rfl

theorem getElem?_merged (fields : List HeaderFieldPair) (n : Str) :
    (fields.foldl mergeField ∅)[n]? = joined (valuesOf fields n) := by
  rw [getElem?_foldl_mergeField, Std.ExtTreeMap.getElem?_empty]
  cases joined (valuesOf fields n) <;> rfl

theorem mem_mergeField {map : HeaderFieldMap} {field : HeaderFieldPair} {n : Str} :
    n ∈ mergeField map field ↔ field.1 = n ∨ n ∈ map := by
  rw [mergeField, Std.ExtTreeMap.mem_insert, Std.LawfulEqCmp.compare_eq_iff_eq]

theorem addLine_of_isField {line : Str} {field : HeaderFieldPair} (h : IsField line field)
    (map : HeaderFieldMap) :
    HeaderFieldParser.addLine map line =
      if field.1 = lit "host" ∧ lit "host" ∈ map then
        .error (.parseError HttpStatus.badRequest "header has two Host")
      else .ok (mergeField map field) :=
  addLine_eq (parseHeaderField_iff.mpr h) map

/-- How often `host` would be there. -/
def hostCount (map : HeaderFieldMap) (fields : List HeaderFieldPair) : Nat :=
  (valuesOf fields (lit "host")).length + if lit "host" ∈ map then 1 else 0

theorem hostCount_cons (map : HeaderFieldMap) (field : HeaderFieldPair)
    (fields : List HeaderFieldPair) (h : ¬ (field.1 = lit "host" ∧ lit "host" ∈ map)) :
    hostCount map (field :: fields) = hostCount (mergeField map field) fields := by
  rw [hostCount, hostCount, valuesOf_cons]
  by_cases hhost : field.1 = lit "host"
  · rw [if_pos hhost, if_neg fun hmem => h ⟨hhost, hmem⟩,
      if_pos (mem_mergeField.mpr (Or.inl hhost)), List.length_cons]
  · have hmem : lit "host" ∈ mergeField map field ↔ lit "host" ∈ map :=
      mem_mergeField.trans (or_iff_right hhost)
    rw [if_neg hhost]
    simp only [hmem]

theorem isField_unique {line : Str} {field field' : HeaderFieldPair} (h : IsField line field)
    (h' : IsField line field') : field = field' :=
  Except.ok.inj ((parseHeaderField_iff.mpr h).symm.trans (parseHeaderField_iff.mpr h'))

theorem fields_unique {lines : List Str} {fields fields' : List HeaderFieldPair}
    (h : List.Forall₂ IsField lines fields) (h' : List.Forall₂ IsField lines fields') :
    fields = fields' := by
  induction h generalizing fields' with
  | nil => exact (List.forall₂_nil_left_iff.mp h').symm
  | cons hfield _ ih =>
    cases h' with
    | cons hfield' htail => rw [isField_unique hfield hfield', ih htail]

/-- The loop succeeds on header fields that do not have two hosts, and merges them. -/
theorem foldlM_addLine_iff {lines : List Str} {map map' : HeaderFieldMap} :
    lines.foldlM HeaderFieldParser.addLine map = .ok map' ↔
      ∃ fields, List.Forall₂ IsField lines fields ∧ hostCount map fields ≤ 1 ∧
        map' = fields.foldl mergeField map := by
  induction lines generalizing map with
  | nil =>
    constructor
    · intro h
      have hcount : hostCount map [] ≤ 1 := by
        show 0 + (if lit "host" ∈ map then 1 else 0) ≤ 1
        split <;> omega
      exact ⟨[], .nil, hcount, (Except.ok.inj h).symm⟩
    · rintro ⟨fields, hfields, _, rfl⟩
      rw [List.forall₂_nil_left_iff.mp hfields]
      rfl
  | cons line lines ih =>
    rw [List.foldlM_cons]
    constructor
    · intro h
      obtain ⟨next, hline, hlines⟩ := Except.bind_eq_ok_iff.mp h
      obtain ⟨field, hfield, _⟩ := Except.bind_eq_ok_iff.mp hline
      have hfield := parseHeaderField_iff.mp hfield
      rw [addLine_of_isField hfield] at hline
      split at hline
      · cases hline
      · next hhost =>
        obtain rfl := Except.ok.inj hline
        obtain ⟨fields, hfields, hcount, hmap⟩ := ih.mp hlines
        exact ⟨field :: fields, .cons hfield hfields, (hostCount_cons _ _ _ hhost).le.trans hcount,
          hmap⟩
    · rintro ⟨fields, hfields, hcount, rfl⟩
      obtain ⟨field, rest, hfield, hrest, rfl⟩ := List.forall₂_cons_left_iff.mp hfields
      have hhost : ¬ (field.1 = lit "host" ∧ lit "host" ∈ map) := by
        rintro ⟨hname, hmem⟩
        rw [hostCount, valuesOf_cons, if_pos hname, if_pos hmem, List.length_cons] at hcount
        omega
      rw [addLine_of_isField hfield, if_neg hhost, Except.ok_bind]
      rw [hostCount_cons _ _ _ hhost] at hcount
      exact ih.mpr ⟨rest, hrest, hcount, rfl⟩

/-! ## The whole block -/

theorem validateAllHeaderFields_ok {map : HeaderFieldMap} {host : Str}
    (h : map[lit "host"]? = some host) (hne : host ≠ []) :
    HeaderFieldParser.validateAllHeaderFields map = .ok ⟨map, host, h, hne⟩ := by
  unfold HeaderFieldParser.validateAllHeaderFields
  split
  · next hnone =>
    rw [h] at hnone
    cases hnone
  · next host' hsome =>
    obtain rfl : host = host' := Option.some.inj (h.symm.trans hsome)
    rw [dif_neg hne]

theorem validateAllHeaderFields_iff {map : HeaderFieldMap} {headers : HostHeaders} :
    HeaderFieldParser.validateAllHeaderFields map = .ok headers ↔ headers.map = map := by
  constructor
  · intro h
    unfold HeaderFieldParser.validateAllHeaderFields at h
    split at h
    · cases h
    · split at h
      · cases h
      · rw [← Except.ok.inj h]
  · rintro rfl
    exact validateAllHeaderFields_ok headers.map_host headers.host_ne_nil

namespace HeaderFieldParser

theorem parse_ok_iff {lines : List Str} {headers : HostHeaders} :
    parse lines = .ok headers ↔ ∃ fields, List.Forall₂ IsField lines fields ∧
      (valuesOf fields (lit "host")).length ≤ 1 ∧
        ∀ n, headers.map[n]? = joined (valuesOf fields n) := by
  have hmerge (fields : List HeaderFieldPair) : headers.map = fields.foldl mergeField ∅ ↔
      ∀ n, headers.map[n]? = joined (valuesOf fields n) := by
    constructor
    · intro h n
      rw [h, getElem?_merged]
    · intro h
      refine Std.ExtTreeMap.ext_getElem? fun n => ?_
      rw [h, getElem?_merged]
  have hcount (fields : List HeaderFieldPair) :
      hostCount ∅ fields = (valuesOf fields (lit "host")).length := by
    rw [hostCount, if_neg Std.ExtTreeMap.not_mem_empty, Nat.add_zero]
  rw [parse]
  constructor
  · intro h
    obtain ⟨map, hlines, hvalid⟩ := Except.bind_eq_ok_iff.mp h
    obtain ⟨fields, hfields, hhost, rfl⟩ := foldlM_addLine_iff.mp hlines
    rw [hcount] at hhost
    exact ⟨fields, hfields, hhost, (hmerge fields).mp (validateAllHeaderFields_iff.mp hvalid)⟩
  · rintro ⟨fields, hfields, hhost, hget⟩
    rw [← hcount] at hhost
    rw [foldlM_addLine_iff.mpr ⟨fields, hfields, hhost, rfl⟩, Except.ok_bind]
    exact validateAllHeaderFields_iff.mpr ((hmerge fields).mpr hget)

/-- A block of header fields is accepted when `Host` occurs once in it and is not empty, and each
name then has the values of all its lines.  Only the values of each name matter, in their order. -/
theorem parse_fields_iff (lines : List Str) :
    ((∃ headers, parse lines = .ok headers) ↔
      ∃ fields host, List.Forall₂ IsField lines fields ∧
        valuesOf fields (lit "host") = [host] ∧ host ≠ []) ∧
      (∀ headers fields, parse lines = .ok headers → List.Forall₂ IsField lines fields →
        ∀ n, headers.map[n]? = joined (valuesOf fields n)) ∧
      ∀ lines' fields fields', List.Forall₂ IsField lines fields →
        List.Forall₂ IsField lines' fields' → (∀ n, valuesOf fields n = valuesOf fields' n) →
          ∀ headers, parse lines = .ok headers ↔ parse lines' = .ok headers := by
  refine ⟨⟨?_, ?_⟩, ?_, ?_⟩
  · rintro ⟨headers, h⟩
    obtain ⟨fields, hfields, hlen, hget⟩ := parse_ok_iff.mp h
    have hhost := (hget (lit "host")).symm.trans headers.map_host
    match hvalues : valuesOf fields (lit "host") with
    | [] =>
      rw [hvalues] at hhost
      cases hhost
    | [host] =>
      rw [hvalues] at hhost
      have hvalue : host = headers.hostValue := Option.some.inj (by simpa [joined] using hhost)
      exact ⟨fields, host, hfields, hvalues, hvalue ▸ headers.host_ne_nil⟩
    | _ :: _ :: _ =>
      rw [hvalues, List.length_cons, List.length_cons] at hlen
      omega
  · rintro ⟨fields, host, hfields, hvalues, hne⟩
    have hhost : (fields.foldl mergeField ∅)[lit "host"]? = some host := by
      rw [getElem?_merged, hvalues]
      simp [joined]
    have hlen : (valuesOf fields (lit "host")).length ≤ 1 := by
      rw [hvalues]
      rfl
    exact ⟨⟨_, host, hhost, hne⟩,
      parse_ok_iff.mpr ⟨fields, hfields, hlen, getElem?_merged fields⟩⟩
  · intro headers fields h hfields
    obtain ⟨fields', hfields', _, hget⟩ := parse_ok_iff.mp h
    rwa [fields_unique hfields hfields']
  · intro lines' fields fields' hfields hfields' hvalues headers
    rw [parse_ok_iff, parse_ok_iff]
    constructor
    · rintro ⟨found, hfound, hlen, hget⟩
      obtain rfl := fields_unique hfields hfound
      exact ⟨fields', hfields', (hvalues _) ▸ hlen, fun n => (hvalues n) ▸ hget n⟩
    · rintro ⟨found, hfound, hlen, hget⟩
      obtain rfl := fields_unique hfields' hfound
      exact ⟨fields, hfields, (hvalues _).symm ▸ hlen, fun n => (hvalues n).symm ▸ hget n⟩

end HeaderFieldParser

end Webserv
