import Webserv.Request.Verdict

/-!
# The status codes of rejected requests

Every failure of the request parsers is answered with one of five codes.  Four of them blame the
request; the fifth is left for the exceptions of the standard library, which only the request
line, the number in `Content-Length` and the chunk sizes can raise.  The lemmas follow the
parsers' own structure, one for each of their functions.
-/

namespace Webserv

open Text HttpParser

def errorCodes : List Str :=
  [HttpStatus.badRequest, HttpStatus.payloadTooLarge, HttpStatus.requestHeaderFieldTooLarge,
    HttpStatus.internalServerError, HttpStatus.httpVersionNotSupported]

/-- The codes for a faulty request. -/
def faultCodes : List Str :=
  [HttpStatus.badRequest, HttpStatus.payloadTooLarge, HttpStatus.requestHeaderFieldTooLarge,
    HttpStatus.httpVersionNotSupported]

theorem mem_errorCodes_iff {code : Str} :
    code ∈ errorCodes ↔ code ∈ faultCodes ∨ code = HttpStatus.internalServerError := by
  simp only [errorCodes, faultCodes, List.mem_cons, List.not_mem_nil, or_false]
  tauto

theorem internalServerError_notMem_faultCodes : HttpStatus.internalServerError ∉ faultCodes := by
  decide

/-- Every failure of `x` has one of these codes. -/
def FailsWithin {α : Type} (codes : List Str) (x : Except Exn α) : Prop :=
  ∀ e, x = .error e → HttpRequestParser.errorStatus e ∈ codes

namespace FailsWithin

variable {α β : Type} {codes : List Str}

theorem ok (a : α) : FailsWithin codes (.ok a) := fun _ h => nomatch h

theorem error {e : Exn} (h : HttpRequestParser.errorStatus e ∈ codes) :
    FailsWithin codes (.error e : Except Exn α) := by
  intro e' he
  rw [← Except.error.inj he]
  exact h

theorem bind {x : Except Exn α} {f : α → Except Exn β} (hx : FailsWithin codes x)
    (hf : ∀ a, FailsWithin codes (f a)) : FailsWithin codes (x >>= f) := by
  intro e he
  rcases Except.bind_eq_error_iff.mp he with h | ⟨a, -, h⟩
  · exact hx e h
  · exact hf a e h

theorem ite {c : Prop} [Decidable c] {x y : Except Exn α} (hx : FailsWithin codes x)
    (hy : FailsWithin codes y) : FailsWithin codes (if c then x else y) := by
  split
  · exact hx
  · exact hy

theorem foldlM {f : β → α → Except Exn β} (hf : ∀ b a, FailsWithin codes (f b a)) (l : List α)
    (b : β) : FailsWithin codes (l.foldlM f b) := by
  induction l generalizing b with
  | nil => exact ok b
  | cons a l ih =>
    rw [List.foldlM_cons]
    exact bind (hf b a) ih

theorem mono {codes' : List Str} {x : Except Exn α} (hx : FailsWithin codes x)
    (h : codes ⊆ codes') : FailsWithin codes' x := fun e he => h (hx e he)

theorem of_isOk {x : Except Exn α} (h : ∃ a, x = .ok a) : FailsWithin codes x := by
  obtain ⟨a, rfl⟩ := h
  exact ok a

end FailsWithin

open FailsWithin

theorem faultCodes_subset : faultCodes ⊆ errorCodes := fun _ h => mem_errorCodes_iff.mpr (Or.inl h)

theorem failsWithin_getLine (s : Str) (offset : Nat) :
    FailsWithin faultCodes (getLine s offset) := by
  unfold getLine
  split
  · exact error (by decide)
  · exact ok _

theorem substr_isOk {s : Str} {pos : Nat} (h : pos ≤ s.length) (n : StringPos) :
    ∃ t, substr s (some pos) n = .ok t := by
  rw [substr]
  simp only [substr?, if_pos h]
  exact ⟨_, rfl⟩

theorem findFirst_lt_length {p : Byte → Bool} {s : Str} {pos i : Nat}
    (h : findFirst p s (some pos) = some i) : i < s.length := by
  obtain ⟨a, c, b, hdrop, -, -, hi⟩ := findFirst_eq_some h
  have hlen := congrArg List.length hdrop
  rw [List.length_drop, List.length_append, List.length_cons] at hlen
  omega

/-! ## The request line -/

/-- A line with no word behind its first one. -/
def OneWord (line : Str) : Prop := ∃ word n, line = word ++ List.replicate n 32 ∧ 32 ∉ word

theorem oneWord_iff {line : Str} :
    OneWord line ↔ findFirst (fun c => !RequestLineParser.isSpace c) line
      (findFirst RequestLineParser.isSpace line (some 0)) = none := by
  constructor
  · intro h
    obtain ⟨word, n, rfl, hword⟩ := h
    cases hfirst : findFirst RequestLineParser.isSpace (word ++ List.replicate n 32) (some 0) with
    | none => rfl
    | some i =>
      obtain ⟨a, c, b, hdrop, ha, hc, rfl⟩ := findFirst_eq_some hfirst
      rw [List.drop_zero] at hdrop
      -- the first blank is not in the word, so only blanks are behind it
      have hle : word.length ≤ a.length := by
        by_contra hlt
        have hmem : c ∈ word := by
          have hget := congrArg (·[a.length]?) hdrop
          simp only [List.getElem?_append_left (Nat.lt_of_not_le hlt), List.getElem?_append_right,
            Nat.le_refl, Nat.sub_self, List.getElem?_cons_zero] at hget
          exact List.mem_of_getElem? hget
        have hspace : c = 32 := of_decide_eq_true hc
        exact hword (hspace ▸ hmem)
      rw [findFirst, Option.map_eq_none_iff, List.findIdx?_eq_none_iff, Nat.zero_add]
      intro d hd
      rw [List.drop_append, List.drop_of_length_le hle, List.nil_append] at hd
      rw [List.eq_of_mem_replicate (List.mem_of_mem_drop hd)]
      rfl
  · intro h
    cases hfirst : findFirst RequestLineParser.isSpace line (some 0) with
    | none =>
      refine ⟨line, 0, by simp, fun h32 => ?_⟩
      have hspace := findFirst_eq_none hfirst 32 (by simpa using h32)
      cases hspace
    | some i =>
      rw [hfirst] at h
      obtain ⟨a, c, b, hdrop, ha, hc, rfl⟩ := findFirst_eq_some hfirst
      rw [List.drop_zero] at hdrop
      have hrest := findFirst_eq_none h
      rw [Nat.zero_add, hdrop, List.drop_left' rfl] at hrest
      refine ⟨a, (c :: b).length, ?_, fun h32 => ?_⟩
      · rw [hdrop, ← List.eq_replicate_of_mem (a := 32) (l := c :: b)]
        intro d hd
        simpa [RequestLineParser.isSpace] using hrest d hd
      · cases ha 32 h32

theorem requestLine_of_oneWord {line : Str} (h : OneWord line) :
    RequestLineParser.parse line = .error (.outOfRange "basic_string::substr") := by
  obtain ⟨method, hmethod⟩ := substr_isOk (Nat.zero_le line.length)
    (findFirst RequestLineParser.isSpace line (some 0))
  rw [RequestLineParser.parse, RequestLineParser.parseMethod, hmethod, Except.ok_bind]
  dsimp only [Except.ok_bind, Pure.pure, Except.pure]
  rw [RequestLineParser.parseUri, oneWord_iff.mp h]
  rfl

theorem failsWithin_validateRequestLine (r : RequestLine) :
    FailsWithin faultCodes (RequestLineParser.validateRequestLine r) := by
  refine bind ?_ fun _ => bind ?_ fun _ => ?_
  · exact ite (error (by decide)) (ite (error (by decide)) (ok _))
  · exact ite (error (by decide)) (ok _)
  · unfold RequestLineParser.validateHttpVersion
    by_cases hlen : r.version.length = 8
    · refine ite (error (by decide)) (ite (error (by decide)) ?_)
      refine bind (of_isOk (substr_isOk (by omega) npos)) fun _ => ?_
      exact ite (error (by decide)) (ite (error (by decide)) (ite (error (by decide)) (ok _)))
    · rw [if_pos hlen]
      exact error (by decide)

theorem failsWithin_requestLine {line : Str} (h : ¬ OneWord line) :
    FailsWithin faultCodes (RequestLineParser.parse line) := by
  rw [oneWord_iff, ← ne_eq, Option.ne_none_iff_exists'] at h
  obtain ⟨b, hb⟩ := h
  have hbegin : b ≤ line.length := by
    cases hfirst : findFirst RequestLineParser.isSpace line (some 0) with
    | none => rw [hfirst] at hb; cases hb
    | some i =>
      rw [hfirst] at hb
      exact Nat.le_of_lt (findFirst_lt_length hb)
  have hend : StringPos.succ (findFirst RequestLineParser.isSpace line (some b)) ≤ line.length := by
    cases hlast : findFirst RequestLineParser.isSpace line (some b) with
    | none => exact Nat.zero_le _
    | some k => exact findFirst_lt_length hlast
  obtain ⟨method, hmethod⟩ := substr_isOk (Nat.zero_le line.length)
    (findFirst RequestLineParser.isSpace line (some 0))
  obtain ⟨uri, huri⟩ := substr_isOk hbegin
    (StringPos.sub (findFirst RequestLineParser.isSpace line (some b)) (some b))
  obtain ⟨version, hversion⟩ := substr_isOk hend npos
  rw [RequestLineParser.parse, RequestLineParser.parseMethod, hmethod, Except.ok_bind]
  dsimp only [Except.ok_bind, Pure.pure, Except.pure]
  rw [RequestLineParser.parseUri, hb, huri]
  dsimp only [Except.ok_bind, Pure.pure, Except.pure]
  rw [RequestLineParser.parseHttpVersion, hversion, Except.ok_bind]
  exact bind (failsWithin_validateRequestLine _) fun _ => ok _

/-! ## The header fields -/

theorem trimCopyIf_isOk (str set : Str) : ∃ t, utility.trimCopyIf str set = .ok t := by
  unfold utility.trimCopyIf
  split
  · exact ⟨_, rfl⟩
  · dsimp only
    split
    · next hbegin _ => exact substr_isOk (Nat.le_of_lt (findFirst_lt_length hbegin)) _
    · exact ⟨_, rfl⟩

theorem failsWithin_parseHeaderField (line : Str) :
    FailsWithin faultCodes (HeaderFieldParser.parseHeaderField line) := by
  unfold HeaderFieldParser.parseHeaderField
  split
  · exact error (by decide)
  · next colonPos hcolon =>
    have hlt := findFirst_lt_length hcolon
    refine bind (bind (of_isOk (substr_isOk (Nat.zero_le _) _)) fun _ => ok _) fun _ => ?_
    refine bind (bind (of_isOk (substr_isOk hlt _)) fun _ =>
      of_isOk (trimCopyIf_isOk _ _)) fun _ => ?_
    refine bind ?_ fun _ => ok _
    exact ite (error (by decide)) (ite (error (by decide)) (ite (error (by decide)) (ok _)))

theorem failsWithin_addLine (map : HeaderFieldMap) (line : Str) :
    FailsWithin faultCodes (HeaderFieldParser.addLine map line) := by
  refine bind (failsWithin_parseHeaderField line) fun _ => bind ?_ fun _ => ok _
  unfold HeaderFieldParser.handleSameFiledName
  split
  · exact ok _
  · exact ite (error (by decide)) (ok _)

theorem failsWithin_headerFields (lines : List Str) :
    FailsWithin faultCodes (HeaderFieldParser.parse lines) := by
  refine bind (foldlM failsWithin_addLine lines ∅) fun map => ?_
  unfold HeaderFieldParser.validateAllHeaderFields
  split
  · exact error (by decide)
  · split
    · exact error (by decide)
    · exact ok _

theorem failsWithin_readLines (text : Str) (fuel offset : Nat) :
    FailsWithin faultCodes (RequestHeaderParser.readLines text fuel offset) := by
  induction fuel generalizing offset with
  | zero => exact error (by decide)
  | succ fuel ih =>
    refine bind (failsWithin_getLine text offset) fun p => ?_
    exact ite (ok _) (bind (ih p.2) fun _ => ok _)

theorem failsWithin_parseHeaderFields (block : Str) (offset : Nat) :
    FailsWithin faultCodes (RequestHeaderParser.parseHeaderField block offset) := by
  refine bind (failsWithin_readLines block _ offset) fun p => ?_
  exact bind (failsWithin_headerFields p.1) fun _ => ok _

theorem failsWithin_validateHeaderLength (block : Str) :
    FailsWithin faultCodes (RequestHeaderParser.validateHeaderLength block) :=
  ite (error (by decide)) (ite (error (by decide)) (ok _))

theorem failsWithin_requestHeader (block : Str) :
    FailsWithin errorCodes (RequestHeaderParser.parse block) := by
  refine bind ((failsWithin_validateHeaderLength block).mono faultCodes_subset) fun _ => ?_
  refine bind ?_ fun p => ?_
  · refine bind ((failsWithin_getLine block 0).mono faultCodes_subset) fun p => ?_
    refine bind ?_ fun _ => ok _
    by_cases hword : OneWord p.1
    · rw [requestLine_of_oneWord hword]
      exact error (by decide)
    · exact (failsWithin_requestLine hword).mono faultCodes_subset
  · exact bind ((failsWithin_parseHeaderFields block p.2).mono faultCodes_subset) fun _ => ok _

/-! ## The body -/

theorem failsWithin_stoi (str : Str) (base : Nat) :
    FailsWithin errorCodes (utility.stoi str base) :=
  ite (error (by decide)) (ite (error (by decide)) (ok _))

theorem failsWithin_contentLength (header : RequestHeader) :
    FailsWithin errorCodes header.contentLength := by
  unfold RequestHeader.contentLength
  split
  · exact bind (failsWithin_stoi _ _) fun _ => ok _
  · exact ok _

theorem failsWithin_body (buffer : Str) (n : Nat) :
    FailsWithin faultCodes (MessageBodyParser.parseBody buffer n) :=
  ite (error (by decide)) (ite (error (by decide)) (ok _))

theorem failsWithin_readChunks (buffer : Str) (fuel offset : Nat) (body : Str) :
    FailsWithin errorCodes (MessageBodyParser.readChunks buffer fuel offset body) := by
  induction fuel generalizing offset body with
  | zero => exact error (by decide)
  | succ fuel ih =>
    refine bind ((failsWithin_getLine buffer offset).mono faultCodes_subset) fun p => ?_
    refine bind (ite (error (by decide)) (failsWithin_stoi _ _)) fun n => ?_
    refine ite (ok _)
      (bind ((failsWithin_getLine buffer p.2).mono faultCodes_subset) fun q => ?_)
    exact ite (error (by decide)) (ih _ _)

theorem failsWithin_chunkedBody (buffer : Str) :
    FailsWithin errorCodes (MessageBodyParser.parseChunkedBody buffer) :=
  ite (error (by decide)) (failsWithin_readChunks _ _ _ _)

/-- The code of a rejected text is one of `errorCodes`. -/
theorem code_mem_errorCodes {text : Str} {header : Option RequestHeader} {code : Str}
    (h : Verdict.ofText text = .rejected header code) : code ∈ errorCodes := by
  have hbody : ∀ {x : Except Exn Str} {head : RequestHeader}, FailsWithin errorCodes x →
      Verdict.ofBody head x = .rejected header code → code ∈ errorCodes := by
    intro x head hx hr
    cases x with
    | ok body => cases hr
    | error e =>
      injection hr with _ hcode
      exact hcode ▸ hx e rfl
  unfold Verdict.ofText at h
  split at h
  · injection h with _ hcode
    exact hcode ▸ (by decide : HttpStatus.badRequest ∈ errorCodes)
  · split at h
    · next hparse =>
      injection h with _ hcode
      exact hcode ▸ failsWithin_requestHeader _ _ hparse
    · next head _ =>
      unfold Verdict.ofRest at h
      split at h
      · split at h
        · injection h with _ hcode
          exact hcode ▸ (by decide : HttpStatus.payloadTooLarge ∈ errorCodes)
        · split at h
          · exact hbody (failsWithin_chunkedBody _) h
          · cases h
      · refine hbody (FailsWithin.bind (failsWithin_contentLength head) fun n => ?_) h
        exact (failsWithin_body _ n).mono faultCodes_subset

end Webserv
