import Webserv.Text.Lines
import Webserv.Request.RequestLineGrammar
import Webserv.Request.Verdict

/-!
# The lines of an accepted header block

An accepted header block is a list of lines, and a proper suffix of it never is an accepted
header block with the same header: a cut inside the request line loses letters of the request
line, and a cut behind it loses a header field.
-/

namespace Webserv

open Text HttpParser

/-! ## Lines -/

theorem headerBlock_unlines {lines : List Str} (hne : lines ≠ [])
    (hlines : ∀ l ∈ lines, IsLine CR LF l) : HeaderBlock (unlines CRLF lines ++ CRLF) := by
  obtain ⟨init, last, rfl⟩ : ∃ init last, lines = init ++ [last] := by
    rcases List.eq_nil_or_concat lines with h | ⟨init, last, h⟩
    · exact absurd h hne
    · exact ⟨init, last, by rw [h, List.concat_eq_append]⟩
  have hfree := not_double_infix_unlines CR_ne_LF hlines
  have hunlines : unlines CRLF (init ++ [last]) = (unlines CRLF init ++ last) ++ CRLF := by
    rw [unlines_append, unlines_cons, unlines_nil, List.append_nil, List.append_assoc]
  refine headerBlock_iff.mpr ⟨unlines CRLF init ++ last, ?_, ?_⟩
  · rw [hunlines, List.append_assoc]
  · have htail : (unlines CRLF init ++ last) ++ [CR, LF, CR] =
        unlines [CR, LF] (init ++ [last]) ++ [CR] := by
      rw [show unlines [CR, LF] (init ++ [last]) = _ from hunlines, List.append_assoc _ CRLF]
      rfl
    rw [htail]
    exact hfree

theorem not_CRLF_append {a b : Str} (ha : CR ∉ a) (hb : ¬ CRLF <:+: b) : ¬ CRLF <:+: a ++ b := by
  induction a with
  | nil => exact hb
  | cons c a ih =>
    rw [List.mem_cons, not_or] at ha
    rw [List.cons_append, List.infix_cons_iff, not_or]
    refine ⟨fun hpre => ha.1 ?_, ih ha.2⟩
    exact (List.cons_prefix_cons.mp hpre).1

theorem not_CRLF_append_of_notMem {a b : Str} (ha : ¬ CRLF <:+: a) (hb : LF ∉ b) :
    ¬ CRLF <:+: a ++ b := by
  rw [List.infix_append_iff]
  rintro (h | h | ⟨l, m, hsplit, hsuffix, hpre⟩)
  · exact ha h
  · exact hb (h.subset (by decide))
  · cases m with
    | nil =>
      rw [List.append_nil] at hsplit
      exact ha (hsplit ▸ hsuffix.isInfix)
    | cons d m =>
      have hlast : LF ∈ d :: m := by
        have hget : (d :: m).getLast? = some LF := by
          rw [← List.getLast?_append_cons l d m, ← hsplit]
          rfl
        exact List.mem_of_getLast? hget
      exact hb (hpre.subset hlast)

theorem readLines_ok {text : Str} {fuel offset last : Nat} {lines : List Str}
    (h : RequestHeaderParser.readLines text fuel offset = .ok (lines, last)) :
    (∀ l ∈ lines, IsLine CR LF l) ∧
      ∃ rest, text.drop offset = unlines CRLF lines ++ (CRLF ++ rest) := by
  induction fuel generalizing offset lines last with
  | zero => cases h
  | succ fuel ih =>
    obtain ⟨⟨line, next⟩, hline, h⟩ := Except.bind_eq_ok_iff.mp h
    obtain ⟨hle, hnext, hfree, rest, hrest⟩ := getLine_ok_iff.mp hline
    dsimp only at h
    split at h
    · next hnil =>
      injection h with h
      injection h with hlines _
      rw [← hlines]
      refine ⟨by simp, rest, ?_⟩
      rw [hrest, hnil]
      simp
    · next hnil =>
      obtain ⟨⟨more, end_⟩, hmore, h⟩ := Except.bind_eq_ok_iff.mp h
      injection h with h
      injection h with hlines _
      rw [← hlines]
      obtain ⟨hall, rest', hrest'⟩ := ih hmore
      have hdrop : text.drop next = rest := by
        rw [hnext, Nat.add_assoc, ← List.drop_drop, hrest, List.drop_left']
        rw [List.length_append]
        rfl
      rw [hdrop] at hrest'
      refine ⟨List.forall_mem_cons.mpr ⟨⟨hnil, hfree⟩, hall⟩, rest', ?_⟩
      rw [hrest, hrest', unlines_cons_append, List.append_assoc]

theorem readLines_unlines {text rest : Str} {lines : List Str} {fuel offset : Nat}
    (hlines : ∀ l ∈ lines, IsLine CR LF l) (hle : offset ≤ text.length)
    (h : text.drop offset = unlines CRLF lines ++ (CRLF ++ rest)) (hfuel : lines.length < fuel) :
    RequestHeaderParser.readLines text fuel offset =
      .ok (lines, offset + (unlines CRLF lines ++ CRLF).length) := by
  induction lines generalizing fuel offset with
  | nil =>
    obtain ⟨fuel, rfl⟩ := Nat.exists_eq_add_one.mpr (Nat.lt_of_le_of_lt (Nat.zero_le _) hfuel)
    have hget : getLine text offset = .ok ([], offset + 0 + 2) :=
      getLine_ok_iff.mpr ⟨hle, rfl, by decide, rest, h⟩
    rw [RequestHeaderParser.readLines, hget]
    rfl
  | cons line lines ih =>
    obtain ⟨fuel, rfl⟩ := Nat.exists_eq_add_one.mpr (Nat.lt_of_le_of_lt (Nat.zero_le _) hfuel)
    rw [List.forall_mem_cons] at hlines
    rw [unlines_cons_append, ← List.append_assoc line] at h
    obtain ⟨hget, hdrop, hle'⟩ := getLine_of_drop hle hlines.1.2 h
    have hfuel' : lines.length < fuel := by
      rw [List.length_cons] at hfuel
      omega
    have hend : offset + line.length + 2 + (unlines CRLF lines ++ CRLF).length =
        offset + (unlines CRLF (line :: lines) ++ CRLF).length := by
      have hCRLF : CRLF.length = 2 := rfl
      rw [unlines_cons_append]
      simp only [List.length_append]
      omega
    rw [RequestHeaderParser.readLines, hget, Except.ok_bind]
    dsimp only
    rw [if_neg hlines.1.1, ih hlines.2 hle' hdrop hfuel', hend]
    rfl

/-- A block is read line by line to its end. -/
theorem readLines_block {block line : Str} {lines : List Str} (hline : ¬ CRLF <:+: line)
    (hlines : ∀ l ∈ lines, IsLine CR LF l) (hblock : block = unlines CRLF (line :: lines) ++ CRLF) :
    ∃ offset, getLine block 0 = .ok (line, offset) ∧
      RequestHeaderParser.readLines block (block.length + 1) offset =
        .ok (lines, block.length) := by
  have hcons : block.drop 0 = line ++ CRLF ++ (unlines CRLF lines ++ (CRLF ++ [])) := by
    rw [List.drop_zero, hblock, unlines_cons_append, List.append_nil, List.append_assoc]
  obtain ⟨hget, hdrop, hle⟩ := getLine_of_drop (Nat.zero_le _) hline hcons
  have hlen : block.length = 0 + line.length + 2 + (unlines CRLF lines ++ CRLF).length := by
    have hCRLF : CRLF.length = 2 := rfl
    rw [hblock, unlines_cons_append]
    simp only [List.length_append]
    omega
  have hfuel : lines.length < block.length + 1 := by
    have hcount := length_le_unlines CRLF (by decide) lines
    rw [hlen, List.length_append]
    omega
  have hread := readLines_unlines hlines hle hdrop hfuel
  rw [← hlen] at hread
  exact ⟨_, hget, hread⟩

/-! ## The request line -/

/-- An accepted request line: method, blanks, URI, one blank, version. -/
theorem requestLine_ok {line : Str} {r : RequestLine} (h : RequestLineParser.parse line = .ok r) :
    ∃ blanks, (∀ c ∈ blanks, RequestLineParser.isSpace c = true) ∧
      line = r.method ++ (blanks ++ (r.uri ++ 32 :: r.version)) ∧
      RequestLineParser.IsMethod r.method := by
  obtain ⟨hmethod, -, hwords⟩ := RequestLineParser.words_of_parse_ok h
  obtain ⟨n, hline⟩ := hwords.split
  exact ⟨_, RequestLineParser.isSpace_replicate (n + 1), hline, hmethod⟩

/-- The letters of a request line other than blanks. -/
theorem filter_requestLine {line : Str} {r : RequestLine}
    (h : RequestLineParser.parse line = .ok r) :
    line.filter (fun c => !RequestLineParser.isSpace c) =
      (r.method ++ (r.uri ++ r.version)).filter (fun c => !RequestLineParser.isSpace c) := by
  obtain ⟨blanks, hblanks, hline, -⟩ := requestLine_ok h
  have hnone : blanks.filter (fun c => !RequestLineParser.isSpace c) = [] :=
    List.filter_eq_nil_iff.mpr fun c hc => by simp [hblanks c hc]
  rw [hline]
  simp only [List.filter_append, hnone, List.filter_cons, List.nil_append]
  rfl

theorem head?_requestLine {line : Str} {r : RequestLine}
    (h : RequestLineParser.parse line = .ok r) :
    ∃ c, line.head? = some c ∧ RequestLineParser.isSpace c = false ∧ c ≠ LF := by
  obtain ⟨blanks, -, hline, hmethod⟩ := requestLine_ok h
  rw [hline]
  rcases hmethod with h | h | h <;> rw [h] <;> exact ⟨_, rfl, by decide, by decide⟩

/-- A request line is no proper suffix of a request line with the same parts. -/
theorem requestLine_suffix {cut line : Str} {r : RequestLine}
    (h : RequestLineParser.parse (cut ++ line) = .ok r)
    (hline : RequestLineParser.parse line = .ok r) : cut = [] := by
  have hfilter := (filter_requestLine h).trans (filter_requestLine hline).symm
  rw [List.filter_append, List.append_left_eq_self, List.filter_eq_nil_iff] at hfilter
  cases cut with
  | nil => rfl
  | cons d cut =>
    obtain ⟨c, hc, hspace, -⟩ := head?_requestLine h
    obtain rfl : d = c := Option.some.inj hc
    exact absurd (hfilter d (List.mem_cons_self ..)) (by simp [hspace])
/-! ## The header fields -/

/-- Two values of one field, the earlier one first. -/
def joinValues : Option Str → Option Str → Option Str
  | none, w => w
  | v, none => v
  | some v, some w => some (v ++ lit "," ++ w)

theorem joinValues_assoc (u v w : Option Str) :
    joinValues (joinValues u v) w = joinValues u (joinValues v w) := by
  cases u <;> cases v <;> cases w <;> simp [joinValues]

@[simp] theorem joinValues_none (v : Option Str) : joinValues v none = v := by
  cases v <;> rfl

/-- Nothing joined behind a value leaves the joined part alone. -/
theorem joinValues_ne {v w : Option Str} (hv : v ≠ none) : joinValues v w ≠ w := by
  cases v with
  | none => exact absurd rfl hv
  | some v =>
    cases w with
    | none => simp
    | some w =>
      intro h
      have hlen := congrArg List.length (Option.some.inj h)
      simp only [List.length_append] at hlen
      have hcomma : (lit ",").length = 1 := rfl
      omega

/-- A field joins the one of its name. -/
def mergeField (map : HeaderFieldMap) (field : HeaderFieldPair) : HeaderFieldMap :=
  map.insert field.1
    (match map[field.1]? with
      | none => field.2
      | some old => old ++ lit "," ++ field.2)

theorem getElem?_mergeField (map : HeaderFieldMap) (field : HeaderFieldPair) (n : Str) :
    (mergeField map field)[n]? =
      joinValues map[n]? (if field.1 = n then some field.2 else none) := by
  rw [mergeField, Std.ExtTreeMap.getElem?_insert]
  by_cases hn : field.1 = n
  · subst hn
    cases hold : map[field.1]? <;> simp [joinValues]
  · simp [hn]

/-- A line is merged into the map, unless it is a second host. -/
theorem addLine_eq {line : Str} {field : HeaderFieldPair}
    (h : HeaderFieldParser.parseHeaderField line = .ok field) (map : HeaderFieldMap) :
    HeaderFieldParser.addLine map line =
      if field.1 = lit "host" ∧ lit "host" ∈ map then
        .error (.parseError HttpStatus.badRequest "header has two Host")
      else .ok (mergeField map field) := by
  rw [HeaderFieldParser.addLine, h, Except.ok_bind, HeaderFieldParser.handleSameFiledName,
    mergeField]
  cases hold : map[field.1]? with
  | none =>
    have hnot : ¬ (field.1 = lit "host" ∧ lit "host" ∈ map) := by
      rintro ⟨hhost, hmem⟩
      rw [← hhost, Std.ExtTreeMap.mem_iff_isSome_getElem?, hold] at hmem
      cases hmem
    rw [if_neg hnot]
    rfl
  | some old =>
    have hmem : field.1 ∈ map := by
      rw [Std.ExtTreeMap.mem_iff_isSome_getElem?, hold]
      rfl
    by_cases hhost : field.1 = lit "host"
    · rw [if_pos ⟨hhost, hhost ▸ hmem⟩]
      simp [hhost]
    · rw [if_neg fun h => hhost h.1]
      simp [hhost]

/-- One line adds its value to the field of its name. -/
theorem addLine_ok {map map' : HeaderFieldMap} {line : Str}
    (h : HeaderFieldParser.addLine map line = .ok map') :
    ∃ name value, HeaderFieldParser.parseHeaderField line = .ok (name, value) ∧
      ∀ n, map'[n]? = joinValues map[n]? (if name = n then some value else none) := by
  obtain ⟨⟨name, value⟩, hfield, -⟩ := Except.bind_eq_ok_iff.mp h
  refine ⟨name, value, hfield, fun n => ?_⟩
  rw [addLine_eq hfield] at h
  split at h
  · cases h
  · rw [← Except.ok.inj h]
    exact getElem?_mergeField map (name, value) n

/-- The fields of two groups of lines, one read behind the other. -/
theorem foldlM_addLine_join {map map₁ map₂ : HeaderFieldMap} {lines : List Str}
    (h : lines.foldlM HeaderFieldParser.addLine map = .ok map₁)
    (h0 : lines.foldlM HeaderFieldParser.addLine ∅ = .ok map₂) (n : Str) :
    map₁[n]? = joinValues map[n]? map₂[n]? := by
  induction lines using List.reverseRecOn generalizing map₁ map₂ with
  | nil =>
    rw [← Except.ok.inj h, ← Except.ok.inj h0]
    simp
  | append_singleton lines line ih =>
    rw [List.foldlM_append] at h h0
    obtain ⟨m, hm, h⟩ := Except.bind_eq_ok_iff.mp h
    obtain ⟨m0, hm0, h0⟩ := Except.bind_eq_ok_iff.mp h0
    rw [List.foldlM_cons] at h h0
    obtain ⟨m', hm', h⟩ := Except.bind_eq_ok_iff.mp h
    obtain ⟨m0', hm0', h0⟩ := Except.bind_eq_ok_iff.mp h0
    obtain rfl := Except.ok.inj h
    obtain rfl := Except.ok.inj h0
    obtain ⟨name, value, hfield, hget⟩ := addLine_ok hm'
    obtain ⟨name0, value0, hfield0, hget0⟩ := addLine_ok hm0'
    obtain ⟨rfl, rfl⟩ := Prod.mk.inj (Except.ok.inj (hfield.symm.trans hfield0))
    rw [hget, hget0, ih hm hm0, joinValues_assoc]

/-- Header lines behind a first one never make the same map as all of them. -/
theorem foldlM_addLine_ne {lines last : List Str} {line : Str} {map : HeaderFieldMap}
    (h : (lines ++ line :: last).foldlM HeaderFieldParser.addLine ∅ = .ok map) :
    last.foldlM HeaderFieldParser.addLine ∅ ≠ .ok map := by
  intro hlast
  rw [List.foldlM_append] at h
  obtain ⟨m, -, h⟩ := Except.bind_eq_ok_iff.mp h
  rw [List.foldlM_cons] at h
  obtain ⟨m', hm', h⟩ := Except.bind_eq_ok_iff.mp h
  obtain ⟨name, value, -, hget⟩ := addLine_ok hm'
  have hsome : m'[name]? ≠ none := by
    rw [hget, if_pos rfl]
    cases m[name]? <;> simp [joinValues]
  exact joinValues_ne hsome (foldlM_addLine_join h hlast name).symm

/-! ## Accepted header blocks -/

theorem validateHeaderLength_ok {block : Str}
    (h : RequestHeaderParser.validateHeaderLength block = .ok ()) :
    block.length ≤ kMaxHeaderLength := by
  unfold RequestHeaderParser.validateHeaderLength at h
  split at h
  · cases h
  · split at h
    · cases h
    · omega

theorem validateHeaderLength_of_le {block : Str} (h : block.length ≤ kMaxHeaderLength) :
    RequestHeaderParser.validateHeaderLength block = .ok () := by
  have hlt : kMaxHeaderLength < RequestHeaderParser.nposValue := by decide
  rw [RequestHeaderParser.validateHeaderLength, if_neg (by omega), if_neg (by omega)]

theorem parse_header_ok {block : Str} {header : RequestHeader}
    (h : RequestHeaderParser.parse block = .ok header) :
    block.length ≤ kMaxHeaderLength ∧
      ∃ line lines rest, (∀ l ∈ line :: lines, IsLine CR LF l) ∧
        block = unlines CRLF (line :: lines) ++ (CRLF ++ rest) ∧
        RequestLineParser.parse line = .ok header.requestLine ∧
        lines.foldlM HeaderFieldParser.addLine ∅ = .ok header.headerMap := by
  obtain ⟨_, hvalid, h⟩ := Except.bind_eq_ok_iff.mp h
  obtain ⟨⟨requestLine, offset⟩, hline, h⟩ := Except.bind_eq_ok_iff.mp h
  obtain ⟨⟨headers, _⟩, hfields, h⟩ := Except.bind_eq_ok_iff.mp h
  rw [← Except.ok.inj h]
  obtain ⟨⟨line, next⟩, hget, hline⟩ := Except.bind_eq_ok_iff.mp hline
  obtain ⟨r, hr, hline⟩ := Except.bind_eq_ok_iff.mp hline
  obtain ⟨rfl, rfl⟩ := Prod.mk.inj (Except.ok.inj hline)
  obtain ⟨⟨lines, last⟩, hlines, hfields⟩ := Except.bind_eq_ok_iff.mp hfields
  obtain ⟨hostHeaders, hparse, hfields⟩ := Except.bind_eq_ok_iff.mp hfields
  obtain ⟨rfl, -⟩ := Prod.mk.inj (Except.ok.inj hfields)
  obtain ⟨map, hmap, hhost⟩ := Except.bind_eq_ok_iff.mp hparse
  obtain ⟨-, rfl, hfree, rest, hrest⟩ := getLine_ok_iff.mp hget
  obtain ⟨hall, rest', hrest'⟩ := readLines_ok hlines
  refine ⟨validateHeaderLength_ok hvalid, line, lines, rest', ?_, ?_, hr, ?_⟩
  · refine List.forall_mem_cons.mpr ⟨⟨?_, hfree⟩, hall⟩
    intro hnil
    obtain ⟨c, hc, -⟩ := head?_requestLine hr
    rw [hnil] at hc
    cases hc
  · have hblock : block = line ++ (CRLF ++ rest) := by rw [← List.append_assoc]; exact hrest
    have hdrop : block.drop (0 + line.length + 2) = rest := by
      rw [Nat.zero_add, ← List.drop_drop, hblock, List.drop_left' rfl]
      rfl
    rw [hblock, ← hdrop, hrest', unlines_cons_append]
  · unfold HeaderFieldParser.validateAllHeaderFields at hhost
    dsimp only at hhost ⊢
    split at hhost
    · cases hhost
    · split at hhost
      · cases hhost
      · rw [← Except.ok.inj hhost]
        exact hmap

/-- The lines of an accepted header block. -/
theorem headerBlock_lines {block : Str} {header : RequestHeader} (hblock : HeaderBlock block)
    (h : RequestHeaderParser.parse block = .ok header) :
    ∃ line lines, (∀ l ∈ line :: lines, IsLine CR LF l) ∧
      block = unlines CRLF (line :: lines) ++ CRLF ∧
      RequestLineParser.parse line = .ok header.requestLine ∧
      lines.foldlM HeaderFieldParser.addLine ∅ = .ok header.headerMap := by
  obtain ⟨-, line, lines, rest, hall, htext, hline, hmap⟩ := parse_header_ok h
  have hinit := headerBlock_unlines (List.cons_ne_nil line lines) hall
  have hsplit : splitHeader block = some (unlines CRLF (line :: lines) ++ CRLF, rest) :=
    splitHeader_eq_some_iff.mpr ⟨hinit, by rw [htext, List.append_assoc]⟩
  obtain ⟨heq, -⟩ := Prod.mk.inj (Option.some.inj (hblock.symm.trans hsplit))
  exact ⟨line, lines, hall, heq, hline, hmap⟩

/-- No proper suffix of an accepted header block is an accepted header block with the same
header. -/
theorem headerBlock_suffix {block suffix : Str} {header : RequestHeader}
    (hblock : HeaderBlock block) (hsuffix : HeaderBlock suffix) (hle : suffix <:+ block)
    (h : RequestHeaderParser.parse block = .ok header)
    (hs : RequestHeaderParser.parse suffix = .ok header) : suffix = block := by
  obtain ⟨line, lines, hall, rfl, hline, hmap⟩ := headerBlock_lines hblock h
  obtain ⟨line', lines', hall', rfl, hline', hmap'⟩ := headerBlock_lines hsuffix hs
  obtain ⟨c, hhead, -, hLF⟩ := head?_requestLine hline'
  obtain ⟨before, cut, hcut⟩ := suffix_unlines CR_ne_LF hall hall'
    (by rw [hhead]; exact fun heq => hLF (Option.some.inj heq)) hle
  cases before with
  | nil =>
    obtain ⟨rfl, rfl⟩ := List.cons.inj hcut
    rw [requestLine_suffix hline hline', List.nil_append]
  | cons first before =>
    obtain ⟨rfl, rfl⟩ := List.cons.inj hcut
    exact absurd hmap' (foldlM_addLine_ne hmap)

/-! ## Field values

The bytes of a value stand side by side in one line, and the comma between two values of one
field keeps a CR of the first one away from an LF of the second one. -/

theorem substr?_isInfix {s t : Str} {pos n : StringPos} (h : substr? s pos n = some t) :
    t <:+: s := by
  unfold substr? at h
  split at h
  · cases h
  · next p =>
    split at h
    · rw [← Option.some.inj h]
      cases n with
      | none => exact (List.drop_suffix p s).isInfix
      | some k => exact (List.take_prefix k _).isInfix.trans (List.drop_suffix p s).isInfix
    · cases h

theorem substr_isInfix {s t : Str} {pos n : StringPos} (h : substr s pos n = .ok t) :
    t <:+: s := by
  unfold substr at h
  split at h
  · next hsome =>
    obtain rfl := Except.ok.inj h
    exact substr?_isInfix hsome
  · cases h

theorem trimCopyIf_isInfix {s set t : Str} (h : utility.trimCopyIf s set = .ok t) : t <:+: s := by
  unfold utility.trimCopyIf at h
  split at h
  · rw [← Except.ok.inj h]
  · dsimp only at h
    split at h
    · exact substr_isInfix h
    · rw [← Except.ok.inj h]
      exact List.nil_infix

theorem parseHeaderField_isInfix {line name value : Str}
    (h : HeaderFieldParser.parseHeaderField line = .ok (name, value)) : value <:+: line := by
  unfold HeaderFieldParser.parseHeaderField at h
  split at h
  · cases h
  · obtain ⟨name', -, h⟩ := Except.bind_eq_ok_iff.mp h
    obtain ⟨value', hvalue, h⟩ := Except.bind_eq_ok_iff.mp h
    obtain ⟨_, -, h⟩ := Except.bind_eq_ok_iff.mp h
    obtain ⟨-, rfl⟩ := Prod.mk.inj (Except.ok.inj h)
    obtain ⟨raw, hraw, htrim⟩ := Except.bind_eq_ok_iff.mp hvalue
    exact (trimCopyIf_isInfix htrim).trans (substr_isInfix hraw)

/-- No value of the map contains a line terminator. -/
def ValuesInLine (map : HeaderFieldMap) : Prop :=
  ∀ (n v : Str), map[n]? = some v → ¬ CRLF <:+: v

theorem not_CRLF_joinValues {v w : Str} (hv : ¬ CRLF <:+: v) (hw : ¬ CRLF <:+: w) :
    ¬ CRLF <:+: v ++ lit "," ++ w := by
  have hcomma : LF ∉ lit "," := by decide
  rw [List.append_assoc]
  intro h
  rw [List.infix_append_iff] at h
  rcases h with h | h | ⟨l, m, hsplit, hsuffix, hpre⟩
  · exact hv h
  · exact not_CRLF_append (by decide) hw h
  · cases m with
    | nil =>
      rw [List.append_nil] at hsplit
      exact hv (hsplit ▸ hsuffix.isInfix)
    | cons d m =>
      have hhead : d = 44 := (List.cons_prefix_cons.mp hpre).1
      have hmem : d ∈ CRLF := hsplit ▸ List.mem_append_right l (List.mem_cons_self ..)
      rw [hhead] at hmem
      exact absurd hmem (by decide)

theorem addLine_valuesInLine {map map' : HeaderFieldMap} {line : Str} (hmap : ValuesInLine map)
    (hline : ¬ CRLF <:+: line) (h : HeaderFieldParser.addLine map line = .ok map') :
    ValuesInLine map' := by
  obtain ⟨name, value, hfield, hget⟩ := addLine_ok h
  have hvalue : ¬ CRLF <:+: value := fun hin => hline (hin.trans (parseHeaderField_isInfix hfield))
  intro n v hv
  rw [hget] at hv
  by_cases hn : name = n
  · rw [if_pos hn] at hv
    cases hold : map[n]? with
    | none =>
      rw [hold] at hv
      obtain rfl := Option.some.inj hv
      exact hvalue
    | some old =>
      rw [hold] at hv
      obtain rfl := Option.some.inj hv
      exact not_CRLF_joinValues (hmap n old hold) hvalue
  · rw [if_neg hn, joinValues_none] at hv
    exact hmap n v hv

theorem foldlM_addLine_valuesInLine {map map' : HeaderFieldMap} {lines : List Str}
    (hmap : ValuesInLine map) (hlines : ∀ l ∈ lines, IsLine CR LF l)
    (h : lines.foldlM HeaderFieldParser.addLine map = .ok map') : ValuesInLine map' := by
  induction lines generalizing map with
  | nil =>
    obtain rfl := Except.ok.inj h
    exact hmap
  | cons line lines ih =>
    rw [List.forall_mem_cons] at hlines
    rw [List.foldlM_cons] at h
    obtain ⟨next, hnext, h⟩ := Except.bind_eq_ok_iff.mp h
    exact ih (addLine_valuesInLine hmap hlines.1.2 hnext) hlines.2 h

/-- What an accepted header shows of the request. -/
theorem parse_header_valuesInLine {block : Str} {header : RequestHeader}
    (h : RequestHeaderParser.parse block = .ok header) : ValuesInLine header.headerMap := by
  obtain ⟨-, line, lines, rest, hall, -, -, hmap⟩ := parse_header_ok h
  rw [List.forall_mem_cons] at hall
  exact foldlM_addLine_valuesInLine (fun n v hv => by simp at hv) hall.2 hmap

end Webserv
