import Webserv.Control.Entries
import Webserv.Request.Framing
import Webserv.Request.HeaderFieldGrammar

/-!
# Requests as a client writes them

A request line, header lines, an empty line and a body.  Each parser finds the parts of what it
reads by a search of its own, and these searches agree on the boundaries the client has put
there, whatever bytes the body has: one call reads back the request that was written.
-/

namespace Webserv

open Text HttpParser HttpRequestParser

/-! ## The request line -/

theorem requestLine_render {method uri : Str} (hmethod : RequestLineParser.IsMethod method)
    (hne : uri ≠ []) (huri : 32 ∉ uri) :
    RequestLineParser.parse (method ++ 32 :: (uri ++ 32 :: lit "HTTP/1.1")) =
      .ok ⟨method, uri, lit "HTTP/1.1"⟩ := by
  have hfree : 32 ∉ method := by rcases hmethod with rfl | rfl | rfl <;> decide
  have hwords : RequestLineParser.Words (method ++ 32 :: (uri ++ 32 :: lit "HTTP/1.1")) method uri
      (lit "HTTP/1.1") := ⟨⟨0, rfl⟩, hfree, hne, huri⟩
  exact hwords.parse_ok_iff.mpr ⟨hmethod, rfl, rfl⟩

/-! ## Header fields -/

/-- One field as a header line. -/
def fieldLine (field : Str × Str) : Str := field.1 ++ 58 :: 32 :: field.2

theorem isField_fieldLine {field : Str × Str} (hne : field.1 ≠ [])
    (hname : isHeaderToken field.1 = true) (hvalue : Trimmed field.2) :
    IsField (fieldLine field) (utility.toLower field.1, field.2) := by
  have htoken := isHeaderToken_iff.mp hname
  have hfree : 58 ∉ field.1 := fun h => ((tokenChar 58).2 (nameChar_iff.mp (htoken 58 h))).2.1 rfl
  have htrim : TrimmedOf (32 :: field.2) field.2 :=
    ⟨hvalue, [32], [], by simp, List.forall_mem_singleton.mpr (by decide), by simp⟩
  exact ⟨field.1, 32 :: field.2, rfl, hfree, hne, htoken, rfl, htrim⟩

/-- The values under their names in lower case. -/
def fieldMap (fields : List (Str × Str)) : HeaderFieldMap :=
  fields.foldl (fun map field => map.insert (utility.toLower field.1) field.2) ∅

theorem foldlM_addLine_fieldLine {fields : List (Str × Str)} {map : HeaderFieldMap}
    (hnames : ∀ f ∈ fields, f.1 ≠ [] ∧ isHeaderToken f.1 = true)
    (hvalues : ∀ f ∈ fields, Trimmed f.2)
    (hdistinct : (fields.map fun f => utility.toLower f.1).Nodup)
    (hnew : ∀ f ∈ fields, map[utility.toLower f.1]? = none) :
    (fields.map fieldLine).foldlM HeaderFieldParser.addLine map =
      .ok (fields.foldl (fun map f => map.insert (utility.toLower f.1) f.2) map) := by
  induction fields generalizing map with
  | nil => rfl
  | cons field fields ih =>
    rw [List.forall_mem_cons] at hnames hvalues hnew
    rw [List.map_cons, List.nodup_cons] at hdistinct
    have hadd : HeaderFieldParser.addLine map (fieldLine field) =
        .ok (map.insert (utility.toLower field.1) field.2) := by
      rw [HeaderFieldParser.addLine,
        parseHeaderField_iff.mpr (isField_fieldLine hnames.1.1 hnames.1.2 hvalues.1),
        Except.ok_bind, HeaderFieldParser.handleSameFiledName]
      dsimp only
      rw [hnew.1]
      rfl
    rw [List.map_cons, List.foldlM_cons, hadd, Except.ok_bind, List.foldl_cons]
    refine ih hnames.2 hvalues.2 hdistinct.2 fun f hf => ?_
    have hne : utility.toLower field.1 ≠ utility.toLower f.1 := by
      intro heq
      exact hdistinct.1 (heq ▸ List.mem_map_of_mem hf)
    rw [Std.ExtTreeMap.getElem?_insert, if_neg (by simpa using hne), hnew.2 f hf]

theorem getElem?_fieldMap {fields : List (Str × Str)}
    (hdistinct : (fields.map fun f => utility.toLower f.1).Nodup) (n : Str) :
    (fieldMap fields)[n]? = (fields.find? fun f => utility.toLower f.1 = n).map (·.2) := by
  have hlookup := Entries.getElem?_foldl_insert (fun f : Str × Str => utility.toLower f.1) (·.2)
    hdistinct (∅ : HeaderFieldMap) n
  rw [Std.ExtTreeMap.getElem?_empty, Option.or_none] at hlookup
  exact hlookup

/-! ## Header blocks -/

/-- A block of lines whose parts are accepted is accepted. -/
theorem parse_headerBlock {line : Str} {lines : List Str} {r : RequestLine} {headers : HostHeaders}
    (hlines : ∀ l ∈ line :: lines, IsLine CR LF l)
    (hmax : (unlines CRLF (line :: lines) ++ CRLF).length ≤ kMaxHeaderLength)
    (hline : RequestLineParser.parse line = .ok r)
    (hfields : HeaderFieldParser.parse lines = .ok headers) :
    RequestHeaderParser.parse (unlines CRLF (line :: lines) ++ CRLF) =
      .ok ⟨r, headers.map, RequestHeaderParser.parseHost headers⟩ := by
  rw [RequestHeaderParser.parse, validateHeaderLength_of_le hmax, Except.ok_bind]
  rw [List.forall_mem_cons] at hlines
  obtain ⟨offset, hget, hread⟩ := readLines_block hlines.1.2 hlines.2 rfl
  rw [RequestHeaderParser.parseRequestLine, hget, Except.ok_bind]
  dsimp only
  rw [hline, Except.ok_bind]
  dsimp only [Except.ok_bind, Pure.pure, Except.pure]
  rw [RequestHeaderParser.parseHeaderField, hread, Except.ok_bind]
  dsimp only
  rw [hfields]
  rfl

theorem parseHost_eq (headers : HostHeaders) :
    RequestHeaderParser.parseHost headers = headers.hostValue.takeWhile (· ≠ 58) := by
  unfold RequestHeaderParser.parseHost
  cases hcolon : findFirst (· = 58) headers.hostValue (some 0) with
  | none =>
    refine (List.takeWhile_eq_self_iff.mpr fun c hc => ?_).symm
    have hne := findFirst_eq_none hcolon c (by simpa using hc)
    simpa using hne
  | some colonPos =>
    obtain ⟨a, c, b, hdrop, ha, hc, rfl⟩ := findFirst_eq_some hcolon
    rw [List.drop_zero] at hdrop
    dsimp only
    rw [hdrop, Nat.zero_add, List.take_left' rfl]
    have hstop : ∀ d ∈ (c :: b).head?, (decide (d ≠ 58)) = false := by
      intro d hd
      obtain rfl : c = d := Option.some.inj hd
      simpa using hc
    exact (takeWhile_append_head (fun d hd => by simpa using ha d hd) hstop).symm

/-! ## The request -/

/-- The parts of a request, its fields in the order in which they are sent. -/
structure RequestParts where
  method : Str
  uri : Str
  fields : List (Str × Str)
  body : Str

namespace RequestParts

def requestLine (r : RequestParts) : Str := r.method ++ 32 :: (r.uri ++ 32 :: lit "HTTP/1.1")

def lines (r : RequestParts) : List Str := r.requestLine :: r.fields.map fieldLine

def headerText (r : RequestParts) : Str := unlines CRLF r.lines ++ CRLF

def text (r : RequestParts) : Str := r.headerText ++ r.body

/-- The value of the `Host` field. -/
def hostValue (r : RequestParts) : Str :=
  ((r.fields.find? fun f => utility.toLower f.1 = lit "host").map (·.2)).getD []

def header (r : RequestParts) : RequestHeader where
  requestLine := ⟨r.method, r.uri, lit "HTTP/1.1"⟩
  headerMap := fieldMap r.fields
  host := r.hostValue.takeWhile (· ≠ 58)

structure WellFormed (r : RequestParts) : Prop where
  method : r.method = lit "GET" ∨ r.method = lit "POST" ∨ r.method = lit "DELETE"
  uri_ne_nil : r.uri ≠ []
  uri_blank : 32 ∉ r.uri
  uri_line : ¬ CRLF <:+: r.uri
  names : ∀ f ∈ r.fields, f.1 ≠ [] ∧ isHeaderToken f.1 = true
  distinct : (r.fields.map fun f => utility.toLower f.1).Nodup
  host : ∃ f ∈ r.fields, utility.toLower f.1 = lit "host" ∧ f.2 ≠ []
  values : ∀ f ∈ r.fields, Trimmed f.2
  values_line : ∀ f ∈ r.fields, ¬ CRLF <:+: f.2
  coding : ∀ f ∈ r.fields, utility.toLower f.1 ≠ lit "transfer-encoding"
  length : (∃ f ∈ r.fields, utility.toLower f.1 = lit "content-length" ∧
      f.2 = decimal r.body.length) ∨
    (∀ f ∈ r.fields, utility.toLower f.1 ≠ lit "content-length") ∧ r.body = []
  header_le : r.headerText.length ≤ kMaxHeaderLength
  body_le : r.body.length ≤ kMaxBodyLength

variable {r : RequestParts}

theorem WellFormed.find?_eq (h : r.WellFormed) {f : Str × Str} (hf : f ∈ r.fields) :
    r.fields.find? (fun g => utility.toLower g.1 = utility.toLower f.1) = some f := by
  cases hfind : r.fields.find? fun g => utility.toLower g.1 = utility.toLower f.1 with
  | none => exact absurd (decide_eq_true rfl) (List.find?_eq_none.mp hfind f hf)
  | some g =>
    have hg : utility.toLower g.1 = utility.toLower f.1 := by
      simpa using List.find?_some hfind
    rw [List.inj_on_of_nodup_map h.distinct (List.mem_of_find?_eq_some hfind) hf hg]

theorem WellFormed.getElem?_field (h : r.WellFormed) {f : Str × Str} (hf : f ∈ r.fields) :
    r.header.headerMap[utility.toLower f.1]? = some f.2 := by
  rw [header, getElem?_fieldMap h.distinct, h.find?_eq hf]
  rfl

theorem WellFormed.getElem?_none (h : r.WellFormed) {n : Str}
    (hn : ∀ f ∈ r.fields, utility.toLower f.1 ≠ n) : r.header.headerMap[n]? = none := by
  rw [header, getElem?_fieldMap h.distinct, Option.map_eq_none_iff, List.find?_eq_none]
  intro f hf
  simpa using hn f hf

theorem WellFormed.hostValue_eq (h : r.WellFormed) :
    r.header.headerMap[lit "host"]? = some r.hostValue ∧ r.hostValue ≠ [] := by
  obtain ⟨f, hf, hname, hne⟩ := h.host
  have hvalue : r.hostValue = f.2 := by
    rw [hostValue, ← hname, h.find?_eq hf]
    rfl
  exact ⟨by rw [hvalue, ← hname, h.getElem?_field hf], hvalue ▸ hne⟩

theorem WellFormed.isLine (h : r.WellFormed) : ∀ l ∈ r.lines, IsLine CR LF l := by
  refine List.forall_mem_cons.mpr ⟨⟨by simp [requestLine], ?_⟩, fun l hl => ?_⟩
  · have hmethod : CR ∉ r.method ++ [32] := by
      rcases h.method with hm | hm | hm <;> rw [hm] <;> decide
    have hrest : ¬ CRLF <:+: r.uri ++ 32 :: lit "HTTP/1.1" :=
      not_CRLF_append_of_notMem h.uri_line (by decide)
    rw [requestLine, List.append_cons]
    exact not_CRLF_append hmethod hrest
  · obtain ⟨f, hf, rfl⟩ := List.mem_map.mp hl
    refine ⟨by simp [fieldLine], ?_⟩
    have hname : CR ∉ f.1 ++ [58, 32] := by
      rw [List.mem_append, not_or]
      refine ⟨fun hCR => ?_, by decide⟩
      exact ((tokenChar CR).2 (List.all_eq_true.mp (h.names f hf).2 CR hCR)).2.2 rfl
    have hline := not_CRLF_append hname (h.values_line f hf)
    rwa [List.append_assoc] at hline

theorem WellFormed.parse_headerText (h : r.WellFormed) :
    RequestHeaderParser.parse r.headerText = .ok r.header := by
  have hfields : HeaderFieldParser.parse (r.fields.map fieldLine) =
      .ok ⟨fieldMap r.fields, r.hostValue, h.hostValue_eq.1, h.hostValue_eq.2⟩ := by
    rw [HeaderFieldParser.parse,
      foldlM_addLine_fieldLine h.names h.values h.distinct (fun _ _ => by simp), Except.ok_bind]
    exact validateAllHeaderFields_ok h.hostValue_eq.1 h.hostValue_eq.2
  have hline := requestLine_render h.method h.uri_ne_nil h.uri_blank
  have hblock := parse_headerBlock h.isLine h.header_le hline hfields
  rw [parseHost_eq] at hblock
  exact hblock

theorem WellFormed.contentLength (h : r.WellFormed) :
    r.header.contentLength = .ok r.body.length := by
  rw [RequestHeader.contentLength]
  rcases h.length with ⟨f, hf, hname, hvalue⟩ | ⟨hnone, hbody⟩
  · have hmax : (r.body.length : Int) ≤ intMax := le_intMax h.body_le
    have hget := h.getElem?_field hf
    rw [hname, hvalue] at hget
    rw [hget]
    dsimp only
    rw [utility.stoi_decimal hmax, Except.ok_bind, sizeOfInt_natCast hmax]
    rfl
  · rw [h.getElem?_none hnone, hbody]
    rfl

/-- A request that is written well is one that is read back. -/
def plainRequest (r : RequestParts) (h : r.WellFormed) : PlainRequest where
  headerText := r.headerText
  header := r.header
  body := r.body
  block := headerBlock_unlines (by simp [lines]) h.isLine
  accepted := h.parse_headerText
  notChunked := by
    rw [RequestHeader.transferEncodingIsChunked, h.getElem?_none h.coding]
    exact decide_eq_false (by simp)
  length := h.contentLength
  body_le := h.body_le

end RequestParts

/-- One call reads back a request that was written well. -/
theorem HttpRequestParser.parse_rendered (conf : ServerConfig) (history : List ParseCall)
    (hidle : (parseAll (fresh conf) history).parseStatus ≠ .chunkedBody) (port : Nat)
    (config : WebservConfig) (hport : port ∈ config.ports) (r : RequestParts) (h : r.WellFormed) :
    let p := parse (parseAll (fresh conf) history) r.text port config
    p.finished = true ∧
      ∃ serverConfig,
        config.findServerConfig port (r.hostValue.takeWhile (· ≠ 58)) = .ok serverConfig ∧
          p.buildRequest =
            { header :=
                { requestLine := ⟨r.method, r.uri, lit "HTTP/1.1"⟩
                  headerMap := fieldMap r.fields
                  host := r.hostValue.takeWhile (· ≠ 58) }
              body := r.body
              serverConfig := serverConfig
              responseStatusCode := HttpStatus.ok } := by
  intro p
  obtain ⟨conf', hfeed⟩ := Session.parseAll_idle hidle
  have hverdict : Verdict.ofText r.text = .accepted r.header r.body :=
    (r.plainRequest h).verdict_text
  obtain ⟨serverConfig, hserver⟩ :=
    WebservConfig.findServerConfig_isOk hport (r.hostValue.takeWhile (· ≠ 58))
  have hp : p = report serverConfig r.text (.accepted r.header r.body) := by
    have hcall := hfeed [⟨r.text, port, config⟩] (by simp) (by simpa [ParseCall.Configured])
    rw [show p = _ from hcall, Session.receiveAll_cons, Session.receiveAll_nil,
      Session.receive_of_not_waiting (Session.start_not_isWaiting conf'), hverdict]
    have hchosen : chosenServer config port conf' (some r.header) = serverConfig := by
      simp only [chosenServer, RequestParts.header, hserver]
    dsimp only [Verdict.header, Session.start]
    rw [hchosen, Session.shown, Session.verdict, hverdict]
  refine ⟨by rw [hp]; rfl, serverConfig, hserver, ?_⟩
  rw [hp]
  rfl

/-- A request whose body starts as the end of a header does. -/
def postParts : RequestParts where
  method := lit "POST"
  uri := lit "/a"
  fields := [(lit "hOst", lit "a:b"), (lit "X-Odd", lit "\n:\r"), (lit "Content-Length", lit "6")]
  body := lit "\r\n\r\nhi"

set_option maxRecDepth 4000 in
theorem postParts_wellFormed : postParts.WellFormed where
  method := by decide
  uri_ne_nil := by decide
  uri_blank := by decide
  uri_line := by decide
  names := by decide
  distinct := by decide
  host := by decide
  values := by decide
  values_line := by decide
  coding := by decide
  length := by decide
  header_le := by decide
  body_le := by decide

theorem HttpRequestParser.parse_rendered_post :
    let p := parse (parseAll (fresh default) []) postParts.text 80 (oneServer 80)
    p.finished = true ∧
      ∃ serverConfig,
        (oneServer 80).findServerConfig 80 (postParts.hostValue.takeWhile (· ≠ 58)) =
            .ok serverConfig ∧
          p.buildRequest =
            { header :=
                { requestLine := ⟨postParts.method, postParts.uri, lit "HTTP/1.1"⟩
                  headerMap := fieldMap postParts.fields
                  host := postParts.hostValue.takeWhile (· ≠ 58) }
              body := postParts.body
              serverConfig := serverConfig
              responseStatusCode := HttpStatus.ok } :=
  HttpRequestParser.parse_rendered default [] (by decide) 80 (oneServer 80) (by decide) postParts
    postParts_wellFormed

end Webserv
