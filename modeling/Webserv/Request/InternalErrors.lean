import Webserv.Request.ChunkReading
import Webserv.Request.Session

/-!
# Requests that are called internal errors

Only the exceptions of the standard library become a 500.  They come from a request line
without a second word, from a `Content-Length` that does not start with a number an `int` can
hold, and from a chunk size that is no such number.  Every other fault of a request is answered
as one.
-/

namespace Webserv

open Text HttpParser
open HttpRequestParser (errorStatus)

theorem FailsWithin.ne_internal {α : Type} {x : Except Exn α} {e : Exn}
    (h : FailsWithin faultCodes x) (he : x = .error e) :
    errorStatus e ≠ HttpStatus.internalServerError := by
  intro hcode
  exact internalServerError_notMem_faultCodes (hcode ▸ h e he)

theorem stoi_error {s : Str} {base : Nat} {e : Exn} (h : utility.stoi s base = .error e) :
    errorStatus e = HttpStatus.internalServerError := by
  unfold utility.stoi at h
  dsimp only at h
  split at h
  · rw [← Except.error.inj h]
    rfl
  · split at h
    · rw [← Except.error.inj h]
      rfl
    · cases h

/-- A header block is an internal error if and only if it is short enough to be read and its
first line has no second word. -/
theorem requestHeader_internal_iff {block : Str} :
    (∃ e, RequestHeaderParser.parse block = .error e ∧
        errorStatus e = HttpStatus.internalServerError) ↔
      block.length ≤ kMaxHeaderLength ∧
        ∃ line more, block = line ++ CRLF ++ more ∧ ¬ CRLF <:+: line ∧ OneWord line := by
  constructor
  · rintro ⟨e, he, hcode⟩
    rcases Except.bind_eq_error_iff.mp he with h | ⟨_, hvalid, he⟩
    · exact absurd hcode ((failsWithin_validateHeaderLength block).ne_internal h)
    · rcases Except.bind_eq_error_iff.mp he with h | ⟨p, -, he⟩
      · refine ⟨validateHeaderLength_ok hvalid, ?_⟩
        rcases Except.bind_eq_error_iff.mp h with h | ⟨⟨line, next⟩, hline, h⟩
        · exact absurd hcode ((failsWithin_getLine block 0).ne_internal h)
        · obtain ⟨-, -, hfree, more, hmore⟩ := getLine_ok_iff.mp hline
          refine ⟨line, more, hmore, hfree, ?_⟩
          rcases Except.bind_eq_error_iff.mp h with h | ⟨_, _, h⟩
          · by_contra hword
            exact (failsWithin_requestLine hword).ne_internal h hcode
          · cases h
      · rcases Except.bind_eq_error_iff.mp he with h | ⟨_, _, h⟩
        · exact absurd hcode ((failsWithin_parseHeaderFields block p.2).ne_internal h)
        · cases h
  · rintro ⟨hmax, line, more, rfl, hfree, hword⟩
    refine ⟨.outOfRange "basic_string::substr", ?_, rfl⟩
    have hget : getLine (line ++ CRLF ++ more) 0 = .ok (line, 0 + line.length + 2) :=
      getLine_ok_iff.mpr ⟨Nat.zero_le _, rfl, hfree, more, rfl⟩
    rw [RequestHeaderParser.parse, validateHeaderLength_of_le hmax, Except.ok_bind,
      RequestHeaderParser.parseRequestLine, hget, Except.ok_bind]
    dsimp only
    rw [requestLine_of_oneWord hword]
    rfl

/-! ## The texts -/

/-- The texts of the requests that are answered with an internal error. -/
inductive Misjudged (text : Str) : Prop
  | requestLine {line more rest : Str}
      (split : splitHeader text = some (line ++ CRLF ++ more, rest))
      (short : (line ++ CRLF ++ more).length ≤ kMaxHeaderLength) (free : ¬ CRLF <:+: line)
      (oneWord : OneWord line)
  | contentLength {block rest value : Str} {header : RequestHeader}
      (split : splitHeader text = some (block, rest))
      (accepted : RequestHeaderParser.parse block = .ok header)
      (plain : header.headerMap[lit "transfer-encoding"]? ≠ some (lit "chunked"))
      (field : header.headerMap[lit "content-length"]? = some value)
      (noInt : ¬ StartsWithInt value)
  | chunkSize {block rest : Str} {header : RequestHeader}
      (split : splitHeader text = some (block, rest))
      (accepted : RequestHeaderParser.parse block = .ok header)
      (chunked : header.headerMap[lit "transfer-encoding"]? = some (lit "chunked"))
      (short : rest.length ≤ kMaxBodyLength) (complete : HttpRequestParser.chunkedEnd <:+: rest)
      (noSize : NoSizeBehindChunks rest)

theorem contentLength_internal_iff {header : RequestHeader} (rest : Str) :
    (∃ e, (header.contentLength >>= MessageBodyParser.parseBody rest) = .error e ∧
        errorStatus e = HttpStatus.internalServerError) ↔
      ∃ value, header.headerMap[lit "content-length"]? = some value ∧ ¬ StartsWithInt value := by
  constructor
  · rintro ⟨e, he, hcode⟩
    rcases Except.bind_eq_error_iff.mp he with h | ⟨n, -, h⟩
    · unfold RequestHeader.contentLength at h
      split at h
      · next value hvalue =>
        refine ⟨value, hvalue, fun hint => ?_⟩
        obtain ⟨n, hn⟩ := utility.stoi_isOk_iff.mpr hint
        rw [hn] at h
        cases h
      · cases h
    · exact absurd hcode ((failsWithin_body rest n).ne_internal h)
  · rintro ⟨value, hvalue, hint⟩
    rcases Except.ok_or_error (utility.stoi value 10) with ⟨n, hn⟩ | ⟨e, he⟩
    · exact absurd (utility.stoi_isOk_iff.mp ⟨n, hn⟩) hint
    · refine ⟨e, ?_, stoi_error he⟩
      rw [RequestHeader.contentLength, hvalue]
      dsimp only
      rw [he]
      rfl

theorem codeOf_ofBody (header : RequestHeader) (r : Except Exn Str) :
    HttpRequestParser.codeOf (.ofBody header r) = HttpStatus.internalServerError ↔
      ∃ e, r = .error e ∧ errorStatus e = HttpStatus.internalServerError := by
  cases r with
  | ok body =>
    exact iff_of_false (by decide : ([] : Str) ≠ HttpStatus.internalServerError)
      (by rintro ⟨_, ⟨⟩, -⟩)
  | error e =>
    constructor
    · intro h
      exact ⟨e, rfl, h⟩
    · rintro ⟨e', he, hcode⟩
      rw [Except.error.inj he]
      exact hcode

theorem codeOf_ofRest {header : RequestHeader} {block rest : Str}
    (hblock : block.length ≤ kMaxHeaderLength) :
    HttpRequestParser.codeOf (.ofRest header block rest) = HttpStatus.internalServerError ↔
      (header.headerMap[lit "transfer-encoding"]? ≠ some (lit "chunked") ∧
          ∃ value, header.headerMap[lit "content-length"]? = some value ∧
            ¬ StartsWithInt value) ∨
        (header.headerMap[lit "transfer-encoding"]? = some (lit "chunked") ∧
          rest.length ≤ kMaxBodyLength ∧ HttpRequestParser.chunkedEnd <:+: rest ∧
          NoSizeBehindChunks rest) := by
  unfold Verdict.ofRest
  by_cases hchunked : header.headerMap[lit "transfer-encoding"]? = some (lit "chunked")
  · have hte : header.transferEncodingIsChunked = true := decide_eq_true hchunked
    rw [if_pos hte]
    simp only [hchunked, ne_eq, not_true_eq_false, false_and, true_and, false_or]
    by_cases hlong : block.length + rest.length > kMaxHeaderLength + kMaxBodyLength
    · rw [if_pos hlong]
      exact iff_of_false (by decide : HttpStatus.payloadTooLarge ≠ HttpStatus.internalServerError)
        (fun h => by omega)
    · rw [if_neg hlong]
      by_cases hend : HttpRequestParser.chunkedEnd <:+: rest
      · rw [if_pos hend, codeOf_ofBody]
        by_cases hmax : rest.length ≤ kMaxBodyLength
        · rw [parseChunkedBody_internal_iff hmax]
          exact ⟨fun h => ⟨hmax, hend, h⟩, fun h => h.2.2⟩
        · rw [MessageBodyParser.parseChunkedBody, if_pos (Nat.lt_of_not_le hmax)]
          refine iff_of_false ?_ (fun h => hmax h.1)
          rintro ⟨e, he, hcode⟩
          rw [← Except.error.inj he] at hcode
          exact absurd hcode (by decide)
      · rw [if_neg hend]
        exact iff_of_false (by decide : ([] : Str) ≠ HttpStatus.internalServerError)
          (fun h => hend h.2.1)
  · have hte : header.transferEncodingIsChunked = false := decide_eq_false hchunked
    rw [if_neg (by simp [hte]), codeOf_ofBody, contentLength_internal_iff]
    simp only [hchunked, ne_eq, not_false_eq_true, true_and, false_and, or_false]

theorem codeOf_ofText_iff {text : Str} :
    HttpRequestParser.codeOf (.ofText text) = HttpStatus.internalServerError ↔
      Misjudged text := by
  unfold Verdict.ofText
  cases hsplit : splitHeader text with
  | none =>
    refine iff_of_false (by decide) ?_
    rintro (⟨h, -, -, -⟩ | ⟨h, -, -, -, -⟩ | ⟨h, -, -, -, -, -⟩) <;> rw [hsplit] at h <;> cases h
  | some p =>
    obtain ⟨block, rest⟩ := p
    dsimp only
    have hsame : ∀ {b r : Str}, splitHeader text = some (b, r) → b = block ∧ r = rest :=
      fun h => Prod.mk.inj (Option.some.inj (h.symm.trans hsplit))
    cases hparse : RequestHeaderParser.parse block with
    | error e =>
      constructor
      · intro hcode
        obtain ⟨hshort, line, more, rfl, hfree, hword⟩ :=
          requestHeader_internal_iff.mp ⟨e, hparse, hcode⟩
        exact .requestLine hsplit hshort hfree hword
      · rintro (⟨h, hshort, hfree, hword⟩ | ⟨h, hok, -, -, -⟩ | ⟨h, hok, -, -, -, -⟩)
        · obtain ⟨e', he', hcode⟩ :=
            requestHeader_internal_iff.mpr ⟨hshort, _, _, rfl, hfree, hword⟩
          rw [(hsame h).1, hparse] at he'
          rw [Except.error.inj he']
          exact hcode
        · rw [(hsame h).1, hparse] at hok
          cases hok
        · rw [(hsame h).1, hparse] at hok
          cases hok
    | ok header =>
      dsimp only
      rw [codeOf_ofRest (parse_header_ok hparse).1]
      constructor
      · rintro (⟨hplain, value, hvalue, hint⟩ | ⟨hchunked, hshort, hend, hsize⟩)
        · exact .contentLength hsplit hparse hplain hvalue hint
        · exact .chunkSize hsplit hparse hchunked hshort hend hsize
      · rintro (⟨h, hshort, hfree, hword⟩ | ⟨h, hok, hplain, hvalue, hint⟩ |
          ⟨h, hok, hchunked, hshort, hend, hsize⟩)
        · obtain ⟨e', he', -⟩ := requestHeader_internal_iff.mpr ⟨hshort, _, _, rfl, hfree, hword⟩
          rw [(hsame h).1, hparse] at he'
          cases he'
        · rw [(hsame h).1, hparse] at hok
          rw [Except.ok.inj hok]
          exact Or.inl ⟨hplain, _, hvalue, hint⟩
        · rw [(hsame h).1, hparse] at hok
          rw [Except.ok.inj hok, ← (hsame h).2]
          exact Or.inr ⟨hchunked, hshort, hend, hsize⟩

/-! ## Runs -/

namespace HttpRequestParser

theorem errorCode_concat_iff (conf : ServerConfig) {history : List ParseCall} {c : ParseCall}
    (hcalls : ∀ d ∈ history ++ [c], d.Configured) :
    ((parseAll (fresh conf) (history ++ [c])).errorOccured = true →
        (parseAll (fresh conf) (history ++ [c])).errorCode ∈ faultCodes) ↔
      ¬ Misjudged (currentText (parseAll (fresh conf) history) c) := by
  obtain ⟨servConfig, hreport⟩ :=
    Session.parseAll_concat_eq_report conf history (hcalls c (by simp))
  rw [hreport, ← codeOf_ofText_iff]
  generalize currentText (parseAll (fresh conf) history) c = text
  have hnil : ([] : Str) ≠ HttpStatus.internalServerError := by decide
  cases hverdict : Verdict.ofText text with
  | waiting header => exact iff_of_true (by rintro ⟨⟩) hnil
  | accepted header body => exact iff_of_true (by rintro ⟨⟩) hnil
  | rejected header code =>
    have hmem := mem_errorCodes_iff.mp (code_mem_errorCodes hverdict)
    have hnot := internalServerError_notMem_faultCodes
    constructor
    · intro h hcode
      exact hnot (hcode ▸ h rfl)
    · intro hcode _
      exact hmem.resolve_right hcode

/-- In every run, the errors are blamed on the requests if and only if no text of the run is
misjudged. -/
theorem errorCode_mem_faultCodes_iff (conf : ServerConfig) (calls : List ParseCall)
    (hcalls : ∀ c ∈ calls, c.Configured) :
    (∀ done, done <+: calls → (parseAll (fresh conf) done).errorOccured = true →
        (parseAll (fresh conf) done).errorCode ∈ faultCodes) ↔
      ∀ done c, done ++ [c] <+: calls →
        ¬ Misjudged (currentText (parseAll (fresh conf) done) c) := by
  have hstep : ∀ done c, done ++ [c] <+: calls → ∀ d ∈ done ++ [c], d.Configured :=
    fun done c hinit d hd => hcalls d (hinit.subset hd)
  constructor
  · intro h done c hinit
    exact (errorCode_concat_iff conf (hstep done c hinit)).mp (h _ hinit)
  · intro h done hinit
    cases done using List.reverseRecOn with
    | nil => rintro ⟨⟩
    | append_singleton done c =>
      exact (errorCode_concat_iff conf (hstep done c hinit)).mpr (h done c hinit)

/-- A request line of one word. -/
theorem errorCode_mem_faultCodes_iff_one_word :
    let calls : List ParseCall := [⟨lit "GET\r\nHost: a\r\n\r\n", 80, oneServer 80⟩]
    (∀ done, done <+: calls → (parseAll (fresh default) done).errorOccured = true →
        (parseAll (fresh default) done).errorCode ∈ faultCodes) ↔
      ∀ done c, done ++ [c] <+: calls →
        ¬ Misjudged (currentText (parseAll (fresh default) done) c) :=
  errorCode_mem_faultCodes_iff default _ (by decide)

/-- A request line of one word, a length that is no number, and a chunk size that is none. -/
theorem errorCode_internal :
    ([lit "GET\r\nHost: a\r\n\r\n",
        lit "POST / HTTP/1.1\r\nHost: a\r\nContent-Length: x\r\n\r\n",
        lit "POST / HTTP/1.1\r\nHost: a\r\nTransfer-Encoding: chunked\r\n\r\n-1\r\n0\r\n\r\n"].map
      fun text =>
        let q := parseAll (fresh default) [⟨text, 80, oneServer 80⟩]
        (q.errorOccured, q.errorCode)) =
      List.replicate 3 (true, HttpStatus.internalServerError) ∧
    HttpStatus.internalServerError ∉ faultCodes := by
  decide

end HttpRequestParser

end Webserv
