import Webserv.Request.InternalErrors

/-!
# The body of an accepted request

The header of a request says where its body ends: by the chunks, when a `Transfer-Encoding` is
there, and by the number in `Content-Length` otherwise.  The parser knows one spelling of one
coding and reads the number at the head of the length, so it takes the body the header means if
and only if the coding is that one and the length is a number throughout.
-/

namespace Webserv

open Text HttpParser HttpRequestParser

/-- The bytes start with chunks that make this body. -/
def ChunkedDecoding (bytes body : Str) : Prop :=
  ∃ (chunks : List DataChunk) (line rest : Str),
    bytes = chunks.flatMap DataChunk.text ++ (line ++ CRLF ++ rest) ∧
      SizeLine line ∧ ofDigits 16 line = 0 ∧ body = joinChunks chunks

/-- The body is the one that the header means. -/
structure Framed (header : RequestHeader) (bytes body : Str) : Prop where
  coding : header.headerMap[lit "transfer-encoding"]? ≠ none → ChunkedDecoding bytes body
  length : header.headerMap[lit "transfer-encoding"]? = none →
    ∀ value, header.headerMap[lit "content-length"]? = some value →
      readDecimal value = some body.length

/-- The coding is `chunked`, or the bytes happen to decode to as many of them as the length
says; and the length has no other letters than digits. -/
structure PlainlyFramed (header : RequestHeader) (bytes : Str) : Prop where
  coding : ∀ value, header.headerMap[lit "transfer-encoding"]? = some value →
    value = lit "chunked" ∨
      ∃ n, header.contentLength = .ok n ∧ ChunkedDecoding bytes (bytes.take n)
  length : header.headerMap[lit "transfer-encoding"]? = none →
    ∀ value, header.headerMap[lit "content-length"]? = some value → ∀ c ∈ value, isdigit c = true

/-! ## Chunked requests -/

def Chunk.toDataChunk (c : Chunk) : DataChunk where
  sizeLine := c.sizeLine
  data := c.data
  sizeLine_ne_nil := c.sizeLine_ne_nil
  sizeLine_hex := c.sizeLine_hex
  size_eq := c.size_eq
  data_ne_nil := c.data_ne_nil

theorem chunkedDecoding_of_parse {bytes body : Str}
    (h : MessageBodyParser.parseChunkedBody bytes = .ok body) : ChunkedDecoding bytes body := by
  unfold MessageBodyParser.parseChunkedBody at h
  split at h
  · cases h
  · obtain ⟨chunks, line, rest, hsplit, hsize, hzero, hbody⟩ := readChunks_ok (Nat.zero_le _) h
    refine ⟨chunks.map Chunk.toDataChunk, line, rest, ?_, hsize, hzero, ?_⟩
    · rw [List.flatMap_map]
      exact hsplit
    · rw [hbody, joinChunks, List.flatMap_map]
      rfl

/-! ## Requests with a length -/

theorem contentLength_of_field {header : RequestHeader} {value : Str} {n : Nat}
    (hvalue : header.headerMap[lit "content-length"]? = some value)
    (h : header.contentLength = .ok n) : ∃ m, utility.stoi value 10 = .ok m ∧ n = sizeOfInt m := by
  rw [RequestHeader.contentLength, hvalue] at h
  obtain ⟨m, hm, h⟩ := Except.bind_eq_ok_iff.mp h
  exact ⟨m, hm, (Except.ok.inj h).symm⟩

/-- The length that is read is the number the field denotes, if it denotes one. -/
theorem readDecimal_eq_iff {header : RequestHeader} {value : Str} {n : Nat}
    (hvalue : header.headerMap[lit "content-length"]? = some value)
    (h : header.contentLength = .ok n) :
    readDecimal value = some n ↔ ∀ c ∈ value, isdigit c = true := by
  obtain ⟨m, hm, rfl⟩ := contentLength_of_field hvalue h
  constructor
  · intro hread
    unfold readDecimal at hread
    split at hread
    · next hdigits => exact hdigits.2
    · cases hread
  · intro hdigits
    obtain ⟨sign, digits, hpre, -, -, hmax⟩ := utility.stoi_ok hm
    have hne : value ≠ [] := by
      rw [← (hpre.eq_of_digits hdigits).2]
      exact hpre.ne_nil
    have hnum := utility.stoi_digits_ok hdigits hm
    rw [hnum] at hmax ⊢
    rw [readDecimal, if_pos ⟨hne, hdigits⟩, sizeOfInt_natCast hmax]

theorem parseBody_ok {bytes body : Str} {n : Nat}
    (h : MessageBodyParser.parseBody bytes n = .ok body) :
    body = bytes.take n ∧ body.length = n := by
  unfold MessageBodyParser.parseBody at h
  split at h
  · cases h
  · split at h
    · cases h
    · rw [← Except.ok.inj h]
      exact ⟨rfl, List.length_take_of_le (by omega)⟩

/-! ## Accepted requests -/

theorem framed_iff_of_accepted {text body : Str} {header : RequestHeader}
    (h : Verdict.ofText text = .accepted header body) :
    ∃ block bytes, splitHeader text = some (block, bytes) ∧
      RequestHeaderParser.parse block = .ok header ∧
      (Framed header bytes body ↔ PlainlyFramed header bytes) := by
  obtain ⟨block, bytes, hsplit, hparse, hbody⟩ := Verdict.ofText_eq_accepted_iff.mp h
  refine ⟨block, bytes, hsplit, hparse, ?_⟩
  rcases hbody with ⟨hchunked, -, -, hbody⟩ | ⟨hplain, hbody⟩
  · have hte : header.headerMap[lit "transfer-encoding"]? = some (lit "chunked") :=
      of_decide_eq_true hchunked
    have hne : header.headerMap[lit "transfer-encoding"]? ≠ none := by simp [hte]
    constructor
    · intro _
      refine ⟨fun value hvalue => Or.inl ?_, fun hnone => absurd hnone hne⟩
      exact Option.some.inj (hvalue.symm.trans hte)
    · intro _
      exact ⟨fun _ => chunkedDecoding_of_parse hbody, fun hnone => absurd hnone hne⟩
  · have hte : header.headerMap[lit "transfer-encoding"]? ≠ some (lit "chunked") :=
      of_decide_eq_false hplain
    obtain ⟨n, hn, hbody⟩ := Except.bind_eq_ok_iff.mp hbody
    obtain ⟨rfl, hlen⟩ := parseBody_ok hbody
    constructor
    · intro hframed
      refine ⟨fun value hvalue => Or.inr ⟨n, hn, hframed.coding (by simp [hvalue])⟩, ?_⟩
      intro hnone value hvalue
      rw [← readDecimal_eq_iff hvalue hn, ← hlen]
      exact hframed.length hnone value hvalue
    · intro hplainly
      refine ⟨fun hsome => ?_, fun hnone value hvalue => ?_⟩
      · obtain ⟨value, hvalue⟩ := Option.ne_none_iff_exists'.mp hsome
        rcases hplainly.coding value hvalue with rfl | ⟨m, hm, hdecodes⟩
        · exact absurd hvalue hte
        · rw [Except.ok.inj (hm.symm.trans hn)] at hdecodes
          exact hdecodes
      · rw [hlen, readDecimal_eq_iff hvalue hn]
        exact hplainly.length hnone value hvalue

/-- The body of an accepted request is the one its header means if and only if the header is
plain. -/
theorem HttpRequestParser.framed_iff (conf : ServerConfig) (history : List ParseCall)
    (c : ParseCall) (hfinished : (parseAll (fresh conf) (history ++ [c])).finished = true) :
    let request := (parseAll (fresh conf) (history ++ [c])).buildRequest
    ∃ block bytes header,
      splitHeader (currentText (parseAll (fresh conf) history) c) = some (block, bytes) ∧
        RequestHeaderParser.parse block = .ok header ∧ request.header = header ∧
        (Framed header bytes request.body ↔ PlainlyFramed header bytes) := by
  intro request
  obtain ⟨servConfig, header, body, hverdict, hreport⟩ := Session.accepted_of_finished hfinished
  obtain ⟨block, bytes, hsplit, hparse, hiff⟩ := framed_iff_of_accepted hverdict
  have hrequest : request = HttpRequestParser.buildRequest _ :=
    congrArg HttpRequestParser.buildRequest hreport
  refine ⟨block, bytes, header, hsplit, hparse, by rw [hrequest]; rfl, ?_⟩
  rw [show request.body = body by rw [hrequest]; rfl]
  exact hiff

/-- A request with two lengths. -/
def twoLengths : Str :=
  lit "POST / HTTP/1.1\r\nHost: a\r\nContent-Length: 5\r\nContent-Length: 7\r\n\r\nhello"

/-- A request with a coding that is not implemented. -/
def gzipCoding : Str :=
  lit "POST / HTTP/1.1\r\nHost: a\r\nTransfer-Encoding: gzip\r\n\r\nhello"

theorem HttpRequestParser.framed_iff_two_lengths :
    let call : ParseCall := ⟨twoLengths, 80, oneServer 80⟩
    let request := (parseAll (fresh default) ([] ++ [call])).buildRequest
    ∃ block bytes header,
      splitHeader (currentText (parseAll (fresh default) []) call) = some (block, bytes) ∧
        RequestHeaderParser.parse block = .ok header ∧ request.header = header ∧
        (Framed header bytes request.body ↔ PlainlyFramed header bytes) :=
  HttpRequestParser.framed_iff default [] ⟨twoLengths, 80, oneServer 80⟩ (by decide)

/-- Both requests are accepted, the one with the length `5,7` and the other one without a body. -/
theorem HttpRequestParser.not_framed :
    let lengths := parseAll (fresh default) [⟨twoLengths, 80, oneServer 80⟩]
    let coding := parseAll (fresh default) [⟨gzipCoding, 80, oneServer 80⟩]
    (lengths.finished = true ∧
        ¬ Framed lengths.buildRequest.header (lit "hello") lengths.buildRequest.body) ∧
      coding.finished = true ∧
        ¬ Framed coding.buildRequest.header (lit "hello") coding.buildRequest.body := by
  intro lengths coding
  refine ⟨⟨by decide, fun h => ?_⟩, by decide, fun h => ?_⟩
  · have hread := h.length (by decide) (lit "5,7") (by decide)
    exact absurd hread (by decide)
  · obtain ⟨chunks, line, rest, hsplit, -⟩ := h.coding (by decide)
    have hCRLF : CRLF <:+: lit "hello" := by
      rw [hsplit]
      exact ⟨chunks.flatMap DataChunk.text ++ line, rest, by simp only [List.append_assoc]⟩
    exact absurd hCRLF (by decide)

end Webserv
