import Webserv.Request.HeaderLines
import Webserv.Response.HttpResponse

/-!
# Responses on one connection

A client reads a header block up to its first empty line, then as many bytes as `Content-Length`
says, then the next response.  `serialize` writes an empty line behind the body, which such a
client takes for the next header block.
-/

namespace Webserv

open Text HttpParser

/-! ## The client -/

structure Received where
  statusLine : Str
  body : Str
  deriving DecidableEq

/-- The value of the first field with this name. -/
def fieldValue (name : Str) (fields : List Str) : Option Str :=
  (fields.find? name.isPrefixOf).map fun field => field.drop name.length

/-- One response, and the bytes behind its body. -/
def readResponse (text : Str) : Option (Received × Str) :=
  match splitHeader text with
  | none => none
  | some (block, rest) =>
    match linesOf CRLF block.length block with
    | [] => none
    | statusLine :: fields =>
      match (fieldValue (lit "Content-Length: ") fields).bind readDecimal with
      | none => none
      | some length =>
        if length ≤ rest.length then some (⟨statusLine, rest.take length⟩, rest.drop length)
        else none

/-- This many responses, and what is left.  The client skips `trailer` behind each body. -/
def readResponses (trailer : Str) : Nat → Str → Option (List Received × Str)
  | 0, text => some ([], text)
  | count + 1, text =>
    match readResponse text with
    | none => none
    | some (received, rest) =>
      if trailer.isPrefixOf rest then
        (readResponses trailer count (rest.drop trailer.length)).map fun r =>
          (received :: r.1, r.2)
      else none

/-! ## The lines of a response -/

namespace HttpResponse

def statusLine (res : HttpResponse) : Str :=
  lit "HTTP/" ++ res.version ++ lit " " ++ res.statusCode ++ lit " " ++ res.reasonPhrase

def fieldLines (res : HttpResponse) : List Str :=
  [lit "Server: " ++ res.server,
    lit "Date: " ++ res.date,
    lit "Content-Type: " ++ res.contentType,
    lit "Content-Length: " ++ res.contentLength,
    lit "Last-Modified: " ++ res.lastModified,
    lit "Connection: " ++ res.connection,
    lit "ETag: " ++ res.etag,
    lit "Accept-Ranges: " ++ res.acceptRanges]

/-- What a client should get. -/
def received (res : HttpResponse) : Received := ⟨res.statusLine, res.body⟩

/-- No field breaks its line, and the length in the header is that of the body. -/
structure WellFormed (res : HttpResponse) : Prop where
  fields : ∀ field ∈ [res.version, res.statusCode, res.reasonPhrase, res.server, res.date,
    res.contentType, res.contentLength, res.lastModified, res.connection, res.etag,
    res.acceptRanges], CR ∉ field ∧ LF ∉ field
  contentLength : res.contentLength = decimal res.body.length

theorem serializer_CRLF : HttpResponseSerializer.CRLF = CRLF := by decide

theorem serialize_text (res : HttpResponse) :
    (HttpResponseSerializer.serialize res).text =
      unlines CRLF (res.statusLine :: res.fieldLines) ++ CRLF ++ (res.body ++ (CRLF ++ CRLF)) := by
  unfold HttpResponseSerializer.serialize statusLine fieldLines unlines
  dsimp only
  rw [serializer_CRLF, HttpResponseSerializer.SP]
  simp only [List.flatMap_cons, List.flatMap_nil, List.append_assoc, List.append_nil]

/-- A line that starts with a text without a CR and goes on with another one. -/
theorem isLine_append {name value : Str} (hname : name ≠ [] ∧ CR ∉ name) (hvalue : CR ∉ value) :
    IsLine CR LF (name ++ value) := by
  refine ⟨List.append_ne_nil_of_left_ne_nil hname.1 _, fun hinside => ?_⟩
  rcases List.mem_append.mp (hinside.mem (List.mem_cons_self ..)) with hcr | hcr
  · exact hname.2 hcr
  · exact hvalue hcr

theorem WellFormed.isLine {res : HttpResponse} (h : res.WellFormed) :
    ∀ line ∈ res.statusLine :: res.fieldLines, IsLine CR LF line := by
  have hfields := h.fields
  simp only [List.forall_mem_cons] at hfields
  obtain ⟨hversion, hstatus, hreason, hserver, hdate, htype, hlength, hmodified, hconnection,
    hetag, hranges, -⟩ := hfields
  have hline : CR ∉ res.version ++ lit " " ++ res.statusCode ++ lit " " ++ res.reasonPhrase := by
    simp only [List.mem_append, not_or]
    exact ⟨⟨⟨⟨hversion.1, by decide⟩, hstatus.1⟩, by decide⟩, hreason.1⟩
  have hstatusLine : IsLine CR LF res.statusLine := by
    simp only [List.append_assoc] at hline
    simp only [statusLine, List.append_assoc]
    exact isLine_append (by decide) hline
  simp only [fieldLines, List.forall_mem_cons]
  exact ⟨hstatusLine, isLine_append (by decide) hserver.1, isLine_append (by decide) hdate.1,
    isLine_append (by decide) htype.1, isLine_append (by decide) hlength.1,
    isLine_append (by decide) hmodified.1, isLine_append (by decide) hconnection.1,
    isLine_append (by decide) hetag.1, isLine_append (by decide) hranges.1,
    fun _ hnil => nomatch hnil⟩

/-- The header of a response. -/
def headerText (res : HttpResponse) : Str :=
  unlines CRLF (res.statusLine :: res.fieldLines) ++ CRLF

theorem linesOf_headerText {res : HttpResponse}
    (h : ∀ line ∈ res.statusLine :: res.fieldLines, IsLine CR LF line) :
    linesOf CRLF res.headerText.length res.headerText =
      res.statusLine :: res.fieldLines ++ [[]] := by
  obtain ⟨fuel, hfuel⟩ : ∃ fuel, res.headerText.length =
      (res.statusLine :: res.fieldLines).length + (fuel + 1) := by
    refine ⟨res.headerText.length - (res.statusLine :: res.fieldLines).length - 1, ?_⟩
    have hlen : res.headerText.length =
        (unlines CRLF (res.statusLine :: res.fieldLines)).length + 2 := by
      rw [headerText, List.length_append]
      rfl
    have hle := length_le_unlines CRLF (by decide) (res.statusLine :: res.fieldLines)
    omega
  have hnil : ¬ [CR, LF] <:+: ([] : Str) := by simp
  have hempty : linesOf CRLF (fuel + 1) CRLF = [[]] := by
    have h := linesOf_append CR_ne_LF hnil fuel []
    rw [List.nil_append] at h
    rw [show CRLF = [CR, LF] from rfl, h]
    cases fuel <;> rfl
  rw [hfuel, headerText, show CRLF = [CR, LF] from rfl,
    linesOf_unlines CR_ne_LF (fun l hl => (h l hl).2)]
  exact congrArg _ hempty

theorem fieldValue_contentLength (res : HttpResponse) :
    fieldValue (lit "Content-Length: ") (res.fieldLines ++ [[]]) = some res.contentLength := rfl

/-- The client reads a response whose fields keep to their lines, whatever follows it. -/
theorem readResponse_lines {res : HttpResponse}
    (h : ∀ line ∈ res.statusLine :: res.fieldLines, IsLine CR LF line)
    (hlength : res.contentLength = decimal res.body.length) (rest : Str) :
    readResponse ((HttpResponseSerializer.serialize res).text ++ rest) =
      some (res.received, CRLF ++ CRLF ++ rest) := by
  have hblock : HeaderBlock res.headerText := headerBlock_unlines (by simp) h
  have hsplit : splitHeader ((HttpResponseSerializer.serialize res).text ++ rest) =
      some (res.headerText, res.body ++ (CRLF ++ CRLF ++ rest)) := by
    refine splitHeader_eq_some_iff.mpr ⟨hblock, ?_⟩
    rw [serialize_text, ← headerText]
    simp only [List.append_assoc]
  rw [readResponse, hsplit]
  dsimp only
  rw [linesOf_headerText h]
  dsimp only [List.cons_append]
  rw [fieldValue_contentLength, hlength, Option.bind_some, readDecimal_decimal]
  dsimp only
  rw [if_pos (by simp), List.take_left' rfl, List.drop_left' rfl]
  rfl

theorem readResponse_serialize {res : HttpResponse} (h : res.WellFormed) (rest : Str) :
    readResponse ((HttpResponseSerializer.serialize res).text ++ rest) =
      some (res.received, CRLF ++ CRLF ++ rest) :=
  readResponse_lines h.isLine h.contentLength rest

/-- What `serialize` writes behind a body is no response. -/
theorem readResponse_trailer (rest : Str) : readResponse (CRLF ++ CRLF ++ rest) = none := by
  have hsplit : splitHeader (CRLF ++ CRLF ++ rest) = some (CRLF ++ CRLF, rest) :=
    splitHeader_eq_some_iff.mpr ⟨by decide, rfl⟩
  rw [readResponse, hsplit]
  rfl

end HttpResponse

/-! ## The connection -/

/-- What the client receives. -/
def responseStream (responses : List HttpResponse) : Str :=
  (responses.map fun res => (HttpResponseSerializer.serialize res).text).flatten

/-- A client that expects an empty line behind each body recovers every response. -/
theorem readResponses_lines {responses : List HttpResponse}
    (h : ∀ res ∈ responses, (∀ line ∈ res.statusLine :: res.fieldLines, IsLine CR LF line) ∧
      res.contentLength = decimal res.body.length) :
    readResponses (CRLF ++ CRLF) responses.length (responseStream responses) =
      some (responses.map HttpResponse.received, []) := by
  induction responses with
  | nil => rfl
  | cons res rest ih =>
    rw [List.forall_mem_cons] at h
    have hstream : responseStream (res :: rest) =
        (HttpResponseSerializer.serialize res).text ++ responseStream rest := rfl
    rw [List.length_cons, readResponses, hstream,
      HttpResponse.readResponse_lines h.1.1 h.1.2]
    dsimp only
    rw [if_pos (List.isPrefixOf_iff_prefix.mpr (List.prefix_append _ _)), List.drop_left' rfl,
      ih h.2]
    rfl

/-- A client that relies on `Content-Length` never gets past the first response. -/
theorem readResponses_eq_iff (responses : List HttpResponse)
    (h : ∀ res ∈ responses, res.WellFormed) :
    readResponses [] responses.length (responseStream responses) =
        some (responses.map HttpResponse.received, []) ↔
      responses = [] := by
  cases responses with
  | nil => exact iff_of_true rfl rfl
  | cons res rest =>
    refine iff_of_false ?_ (by simp)
    have hstream : responseStream (res :: rest) =
        (HttpResponseSerializer.serialize res).text ++ responseStream rest := rfl
    rw [List.length_cons, readResponses, hstream,
      HttpResponse.readResponse_serialize (h res (List.mem_cons_self ..))]
    dsimp only
    rw [if_pos (by rfl), List.length_nil, List.drop_zero]
    cases rest with
    | nil =>
      intro heq
      exact absurd (congrArg Prod.snd (Option.some.inj heq)) (List.cons_ne_nil _ _)
    | cons next rest =>
      rw [List.length_cons, readResponses, HttpResponse.readResponse_trailer]
      exact fun heq => nomatch heq

/-- A response with the body `hi`. -/
def helloResponse : HttpResponse where
  version := lit "1.1"
  statusCode := HttpStatus.ok
  reasonPhrase := lit "OK"
  server := lit "a"
  date := []
  contentType := lit "text/html"
  contentLength := lit "2"
  lastModified := []
  connection := lit "keep-alive"
  etag := []
  acceptRanges := lit "none"
  body := lit "hi"

theorem readResponses_eq_iff_two_responses :
    readResponses [] 2 (responseStream [helloResponse, helloResponse]) =
        some ([helloResponse, helloResponse].map HttpResponse.received, []) ↔
      [helloResponse, helloResponse] = [] :=
  readResponses_eq_iff [helloResponse, helloResponse] (by
    intro res hres
    have heq : res = helloResponse := by simpa using hres
    rw [heq]
    exact ⟨by decide, by decide⟩)

set_option maxRecDepth 2000 in
/-- One response leaves four bytes unread. -/
theorem readResponses_one_response :
    helloResponse.WellFormed ∧
      readResponses [] 1 (responseStream [helloResponse]) =
        some ([helloResponse.received], lit "\r\n\r\n") ∧
      readResponses [] 1 (responseStream [helloResponse]) ≠
        some ([helloResponse.received], []) :=
  ⟨⟨by decide, by decide⟩, by decide, by decide⟩

end Webserv
