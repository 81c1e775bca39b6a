import Webserv.Request.ShownHeader
import Webserv.Response.Access
import Webserv.Response.ResponseStream
import Webserv.Server.ClientSocket

/-!
# The lines of a response header

`serialize` writes the fields of a response as they are.  One of them, the connection, comes from
the request.  No field contains a line terminator, so the header of every response has the nine
lines that `serialize` writes.
-/

namespace Webserv

open Text HttpParser

/-! ## Fields without a line terminator -/

theorem not_CRLF_of_notMem {s : Str} (h : LF ∉ s) : ¬ CRLF <:+: s :=
  fun hin => h (hin.subset (by decide))

theorem not_CRLF_nil : ¬ CRLF <:+: ([] : Str) := not_CRLF_of_notMem List.not_mem_nil

theorem LF_notMem_decimal (n : Nat) : LF ∉ decimal n := by
  intro h
  have hdigit : isdigit LF = true := isdigit_of_mem_decimal h
  exact absurd hdigit (by decide)

theorem LF_notMem_decimalInt (n : Int) : LF ∉ decimalInt n := by
  unfold decimalInt
  split
  · rw [List.mem_cons, not_or]
    exact ⟨by decide, LF_notMem_decimal _⟩
  · exact LF_notMem_decimal _

theorem mem_of_getElem?_ofList {entries : List (Str × Str)} {k v : Str}
    (h : (Std.ExtTreeMap.ofList entries)[k]? = some v) : ∃ entry ∈ entries, entry.2 = v := by
  rw [Std.ExtTreeMap.ofList_eq_insertMany_empty, Std.ExtTreeMap.getElem?_insertMany_list,
    Std.ExtTreeMap.getElem?_empty, Option.or_none,
    List.findSomeRev?_eq_findSome?_reverse] at h
  obtain ⟨entry, hmem, hentry⟩ := List.exists_of_findSome?_eq_some h
  refine ⟨entry, List.mem_reverse.mp hmem, ?_⟩
  dsimp only at hentry
  split at hentry
  · exact Option.some.inj hentry
  · cases hentry

theorem MIMEType.LF_notMem {extension type : Str} (h : mimeTypeMap[extension]? = some type) :
    LF ∉ type := by
  obtain ⟨entry, hmem, heq⟩ := mem_of_getElem?_ofList h
  rw [← heq]
  clear heq h
  revert entry
  decide

/-- No field of the header contains a line terminator. -/
structure HttpResponseHeaderDTO.InLines (header : HttpResponseHeaderDTO) : Prop where
  version : ¬ CRLF <:+: header.version
  statusCode : LF ∉ header.statusCode
  reasonPhrase : LF ∉ header.reasonPhrase
  server : ¬ CRLF <:+: header.server
  date : ¬ CRLF <:+: header.date
  contentType : ¬ CRLF <:+: header.contentType
  contentLength : ¬ CRLF <:+: header.contentLength
  lastModified : ¬ CRLF <:+: header.lastModified
  connection : ¬ CRLF <:+: header.connection
  etag : ¬ CRLF <:+: header.etag
  acceptRanges : ¬ CRLF <:+: header.acceptRanges

/-- The texts of `asctime` are one line, the newline at the end apart. -/
structure Os.DatesInLine (os : Os) : Prop where
  now : CR ∉ os.now.dropLast ∧ LF ∉ os.now.dropLast
  stat : ∀ path modTime, os.stat path = some modTime →
    CR ∉ modTime.dropLast ∧ LF ∉ modTime.dropLast

/-- What the builder copies from the request. -/
structure HttpRequestDTO.InLines (req : HttpRequestDTO) : Prop where
  version : ¬ CRLF <:+: req.version
  connection : ¬ CRLF <:+: req.connection

/-! ## The lines that are serialized -/

namespace HttpResponse

theorem isLine_field {name value : Str} (hname : name ≠ [] ∧ CR ∉ name)
    (hvalue : ¬ CRLF <:+: value) : IsLine CR LF (name ++ value) :=
  ⟨List.append_ne_nil_of_left_ne_nil hname.1 _, not_CRLF_append hname.2 hvalue⟩

theorem isLine_of_inLines {res : HttpResponse} (h : res.toHttpResponseHeaderDTO.InLines) :
    ∀ line ∈ res.statusLine :: res.fieldLines, IsLine CR LF line := by
  have hcodes : LF ∉ lit " " ++ res.statusCode ++ lit " " ++ res.reasonPhrase := by
    simp only [List.mem_append, not_or]
    exact ⟨⟨⟨by decide, h.statusCode⟩, by decide⟩, h.reasonPhrase⟩
  have hstatus : IsLine CR LF res.statusLine := by
    have hline := not_CRLF_append_of_notMem h.version hcodes
    simp only [List.append_assoc] at hline
    simp only [statusLine, List.append_assoc]
    exact isLine_field (by decide) hline
  simp only [fieldLines, List.forall_mem_cons]
  exact ⟨hstatus, isLine_field (by decide) h.server, isLine_field (by decide) h.date,
    isLine_field (by decide) h.contentType, isLine_field (by decide) h.contentLength,
    isLine_field (by decide) h.lastModified, isLine_field (by decide) h.connection,
    isLine_field (by decide) h.etag, isLine_field (by decide) h.acceptRanges, by simp⟩

end HttpResponse

theorem Path.splitLoop_unlines {lines : List Str} {last : Str} {fuel : Nat}
    (hlines : ∀ l ∈ lines, ¬ CRLF <:+: l) (hlast : ¬ CRLF <:+: last)
    (hfuel : lines.length ≤ fuel) :
    splitLoop CRLF fuel (unlines CRLF lines ++ last) = lines ++ [last] := by
  induction lines generalizing fuel with
  | nil =>
    rw [unlines_nil, List.nil_append, List.nil_append]
    cases fuel with
    | zero => rfl
    | succ fuel => rw [splitLoop, find_eq_none_iff.mpr hlast]
  | cons line lines ih =>
    rw [List.forall_mem_cons] at hlines
    rw [List.length_cons] at hfuel
    obtain ⟨fuel, rfl⟩ : ∃ n, fuel = n + 1 := ⟨fuel - 1, by omega⟩
    have hfind : find CRLF (unlines CRLF (line :: lines) ++ last) = some line.length := by
      rw [unlines_cons_append]
      exact find_pair_append CR_ne_LF hlines.1 _
    rw [splitLoop, hfind]
    dsimp only
    rw [unlines_cons_append, List.take_left' rfl, ← List.drop_drop, List.drop_left' rfl,
      List.drop_left' rfl, ih hlines.2 (by omega), List.cons_append]

/-- The text in front of the first empty line is the nine lines, and the body follows. -/
theorem HttpResponse.splitStr_serialize {res : HttpResponse}
    (h : res.toHttpResponseHeaderDTO.InLines) :
    ∃ i, find (CRLF ++ CRLF) (HttpResponseSerializer.serialize res).text = some i ∧
      Path.splitStr ((HttpResponseSerializer.serialize res).text.take i) CRLF =
        res.statusLine :: res.fieldLines ∧
      res.body <+: (HttpResponseSerializer.serialize res).text.drop (i + 4) := by
  have hlines := isLine_of_inLines h
  obtain ⟨init, last, hinit⟩ : ∃ init last, res.statusLine :: res.fieldLines = init ++ [last] :=
    ⟨(res.statusLine :: res.fieldLines).dropLast, _,
      (List.dropLast_append_getLast (List.cons_ne_nil _ _)).symm⟩
  have hunlines : unlines CRLF (res.statusLine :: res.fieldLines) =
      (unlines CRLF init ++ last) ++ CRLF := by
    rw [hinit, unlines_append, unlines_cons, unlines_nil, List.append_nil, List.append_assoc]
  have htext : (HttpResponseSerializer.serialize res).text =
      (unlines CRLF init ++ last) ++ ((CRLF ++ CRLF) ++ (res.body ++ (CRLF ++ CRLF))) := by
    rw [serialize_text, hunlines]
    simp only [List.append_assoc]
  have hfirst : ¬ (CRLF ++ CRLF) <:+: (unlines CRLF init ++ last) ++ (CRLF ++ CRLF).dropLast := by
    have hfree := not_double_infix_unlines CR_ne_LF hlines
    rw [show unlines [CR, LF] (res.statusLine :: res.fieldLines) = _ from hunlines,
      List.append_assoc _ CRLF] at hfree
    exact hfree
  rw [hinit, List.forall_mem_append] at hlines
  refine ⟨(unlines CRLF init ++ last).length, ?_, ?_, ?_⟩
  · exact (find_eq_some_iff (by decide)).mpr ⟨_, _, htext, rfl, hfirst⟩
  · rw [htext, List.take_left' rfl, hinit]
    refine Path.splitLoop_unlines (fun l hl => (hlines.1 l hl).2)
      (hlines.2 last (List.mem_singleton_self _)).2 ?_
    have hle := length_le_unlines CRLF (by decide) init
    rw [List.length_append]
    omega
  · rw [htext, ← List.drop_drop, List.drop_left' rfl]
    exact List.prefix_append _ _

/-! ## The builder -/

namespace HttpResponseBuilder

/-- What the builder maintains until it returns a response. -/
structure InLines (b : HttpResponseBuilder) : Prop where
  server : ¬ CRLF <:+: b.conf.server
  header : b.header.InLines

theorem new_inLines {conf : ConfigDTO} (h : ¬ CRLF <:+: conf.server) : (new conf).InLines where
  server := h
  header :=
    ⟨not_CRLF_nil, List.not_mem_nil, List.not_mem_nil, not_CRLF_nil, not_CRLF_nil, not_CRLF_nil,
      not_CRLF_nil, not_CRLF_nil, not_CRLF_nil, not_CRLF_nil, not_CRLF_nil⟩

theorem getContentTypeByExtension_inLine (pathFile : Str) :
    ¬ CRLF <:+: getContentTypeByExtension pathFile := by
  have hdefault : LF ∉ MIMEType.default := by decide
  apply not_CRLF_of_notMem
  unfold getContentTypeByExtension
  split
  · exact hdefault
  · dsimp only
    split
    · exact hdefault
    · rcases htype : MIMEType.mimeTypeMap[_]? with _ | type
      · exact hdefault
      · exact MIMEType.LF_notMem htype

theorem getReasonPhrase_inLine (httpStatus : Str) : LF ∉ getReasonPhrase httpStatus := by
  unfold getReasonPhrase
  -- One entry of the chain at a time: the conditions before it play no part.
  repeat' refine iteInduction (motive := fun phrase => LF ∉ phrase) (fun _ => ?_) fun _ => ?_
  all_goals decide

theorem asctime_inLine {time : Str} (h : LF ∉ time.dropLast) :
    ¬ CRLF <:+: time.dropLast ++ lit " GMT" := by
  apply not_CRLF_of_notMem
  rw [List.mem_append, not_or]
  exact ⟨h, by decide⟩

theorem getCurrentPath_inLines (os : Os) :
    Method.Maintains InLines (getCurrentPath os) fun _ => True := by
  unfold getCurrentPath
  cases os.getcwd with
  | none => exact .throw _
  | some cwd => exact .pure trivial

theorem setDefaultRoot_inLines (os : Os) :
    Method.Maintains InLines (setDefaultRoot os) fun _ => True :=
  (getCurrentPath_inLines os).bind fun _ _ => .modify fun _ h => ⟨h.server, h.header⟩

theorem getActualRoot_inLines (os : Os) (location : LocationConfig) :
    Method.Maintains InLines (getActualRoot os location) fun _ => True :=
  (getCurrentPath_inLines os).bind fun _ _ => Method.Maintains.get.bind fun _ _ => .pure trivial

theorem findActualFilepath_inLines (os : Os) (dir file : Str) :
    Method.Maintains InLines (findActualFilepath os dir file) fun _ => True := by
  unfold findActualFilepath
  cases os.opendir (cStr dir) with
  | none => exact .throw _
  | some names => exact .ite (.modify fun _ h => ⟨h.server, h.header⟩) (.pure trivial)

theorem tryIndexes_inLines (os : Os) (dir : Str) (indexes : List Str) :
    Method.Maintains InLines (tryIndexes os dir indexes) fun _ => True := by
  induction indexes with
  | nil => exact .pure trivial
  | cons index rest ih =>
    exact (findActualFilepath_inLines os dir index).bind fun _ _ =>
      Method.Maintains.get.bind fun _ _ => .ite (.modify fun _ h => ⟨h.server, h.header⟩) ih

theorem findIndexFilepath_inLines (os : Os) (dir : Str) (location : LocationConfig) :
    Method.Maintains InLines (findIndexFilepath os dir location) fun _ => True := by
  unfold findIndexFilepath
  refine .ite ?_ (tryIndexes_inLines os dir _)
  exact (Method.Maintains.modify fun _ h => ⟨h.server, h.header⟩).bind fun _ _ =>
    findActualFilepath_inLines os dir _

theorem findLoop_inLines (os : Os) (locations : List LocationConfig) :
    Method.Maintains InLines (findLoop os locations) fun _ => True := by
  induction locations with
  | nil => exact .pure trivial
  | cons location rest ih =>
    have hnext : Method.Maintains InLines
        (modify (fun b => { b with locIt := rest }) >>= fun _ => findLoop os rest)
        fun _ => True :=
      (Method.Maintains.modify fun _ h => ⟨h.server, h.header⟩).bind fun _ _ => ih
    refine Method.Maintains.get.bind fun b _ => .ite ?_ hnext
    refine (getActualRoot_inLines os location).bind fun root _ => ?_
    have hfound : Method.Maintains InLines
        (get >>= fun b : HttpResponseBuilder =>
          if b.filepathExists then modify fun b => { b with foundLocation := location }
          else modify (fun b => { b with locIt := rest }) >>= fun _ => findLoop os rest)
        fun _ => True :=
      Method.Maintains.get.bind fun b _ => .ite (.modify fun _ h => ⟨h.server, h.header⟩) hnext
    refine .ite ?_ ?_
    · exact .seq (findIndexFilepath_inLines os _ _) fun _ => hfound
    · exact .seq (findActualFilepath_inLines os _ _) fun _ => hfound

theorem findFileInServer_inLines (os : Os) :
    Method.Maintains InLines (findFileInServer os) fun _ => True := by
  refine Method.Maintains.get.bind fun b _ => ?_
  refine (findLoop_inLines os _).bind fun _ _ => ?_
  exact Method.Maintains.get.bind fun b _ => .ite (.throw _) (.pure trivial)

theorem checkOptions_inLines (os : Os) (req : HttpRequestDTO) :
    Method.Maintains InLines (checkOptions os req) fun _ => True := by
  have hallowed : Method.Maintains InLines (isAllowedMethod req) fun _ => True := by
    refine Method.Maintains.get.bind fun b _ => .ite (.pure trivial) (.ite ?_ (.pure trivial))
    refine .ite ?_ (.pure trivial)
    exact .seq (.modify fun _ h => ⟨h.server, h.header⟩) fun _ => .pure trivial
  have hreadable : Method.Maintains InLines (isFileReadable os) fun _ => True :=
    Method.Maintains.get.bind fun b _ => .pure trivial
  refine .seq (.modify fun b h => ?_) fun _ => .seq hallowed fun allowed => ?_
  · split
    · exact ⟨h.server, h.header⟩
    · exact h
  · refine .ite (.seq (.throw _) fun _ => ?_) ?_
    · exact .seq hreadable fun readable => .ite (.throw _) (.pure trivial)
    · exact .seq hreadable fun readable => .ite (.throw _) (.pure trivial)

theorem readFile_inLines (os : Os) (purpose : ReadPurpose) (fullpath : Str) :
    Method.Maintains InLines (readFile os purpose fullpath) fun _ => True := by
  unfold readFile
  cases os.ifstream (cStr fullpath) with
  | none => exact .throw _
  | some content => exact .modify fun _ h => ⟨h.server, h.header⟩

theorem buildHeader_inLines {os : Os} (hos : os.DatesInLine) {req : HttpRequestDTO}
    (hreq : req.InLines) : Method.Maintains InLines (buildHeader os req) fun _ => True := by
  have hlast : Method.Maintains InLines (buildLastModified os) fun t => ¬ CRLF <:+: t := by
    refine Method.Maintains.get.bind fun b _ => ?_
    rcases hstat : os.stat (cStr b.filepathPath) with _ | modTime
    · exact .throw _
    · exact .pure (asctime_inLine (hos.stat _ modTime hstat).2)
  refine .seq (.modify fun b h => ⟨h.server, ?_⟩) fun _ => ?_
  · exact
      { h.header with
        version := hreq.version
        statusCode := (by decide : LF ∉ HttpStatus.ok)
        reasonPhrase := (by decide : LF ∉ lit "OK")
        date := asctime_inLine hos.now.2
        server := h.server
        contentType := getContentTypeByExtension_inLine _
        contentLength := not_CRLF_of_notMem (LF_notMem_decimal _) }
  · refine hlast.bind fun lastModified hmodified => .modify fun b h => ⟨h.server, ?_⟩
    exact
      { h.header with
        lastModified := hmodified
        connection := hreq.connection
        etag := not_CRLF_of_notMem (by decide : LF ∉ lit "\"62c29d55-e5\"")
        acceptRanges := not_CRLF_of_notMem (by decide : LF ∉ ACCEPT_RANGES) }

theorem doCGI_inLines {os : Os} (hos : os.DatesInLine) {req : HttpRequestDTO}
    (hreq : req.InLines) : Method.Maintains InLines (doCGI os req) fun _ => True := by
  refine .seq (.lift fun _ _ => trivial) fun path => Method.Maintains.get.bind fun b _ => ?_
  refine .seq (.zoom (fun _ _ h => ⟨h.server, h.header⟩) _) fun _ => ?_
  refine Method.Maintains.get.bind fun b _ => ?_
  refine .seq (.zoom (fun _ _ h => ⟨h.server, h.header⟩) _) fun _ => ?_
  refine .seq (.modify fun _ h => ⟨h.server, h.header⟩) fun _ => ?_
  refine .seq (buildHeader_inLines hos hreq) fun _ => .modify fun b h => ⟨h.server, ?_⟩
  exact
    { h.header with
      statusCode := (by decide : LF ∉ HttpStatus.ok)
      contentType := not_CRLF_of_notMem (by decide : LF ∉ TEXT_HTML) }

theorem serveFile_inLines {os : Os} (hos : os.DatesInLine) {req : HttpRequestDTO}
    (hreq : req.InLines) : Method.Maintains InLines (serveFile os req) fun _ => True := by
  refine .seq (findFileInServer_inLines os) fun _ => .seq (checkOptions_inLines os req) fun _ => ?_
  refine Method.Maintains.get.bind fun b _ => .ite (doCGI_inLines hos hreq) (.ite ?_ ?_)
  · exact .seq (.pure trivial) fun _ => buildHeader_inLines hos hreq
  · exact .seq (readFile_inLines os _ _) fun _ => buildHeader_inLines hos hreq

/-- `content_length` is one byte here, so it may be a CR or an LF, but not both. -/
theorem withErrorHeader_inLines {os : Os} (hos : os.DatesInLine) {req : HttpRequestDTO}
    (hreq : req.InLines) (httpStatus : Int) {b : HttpResponseBuilder} (h : b.InLines) :
    (withErrorHeader os req httpStatus b).InLines := by
  have hlength : ¬ CRLF <:+: [UInt8.ofNat b.resBodyStr.length] := by
    intro hin
    have hle := hin.length_le
    rw [List.length_singleton] at hle
    exact absurd hle (by decide)
  exact
    { server := h.server
      header :=
        { h.header with
          version := hreq.version
          statusCode := LF_notMem_decimalInt _
          reasonPhrase := getReasonPhrase_inLine _
          date := asctime_inLine hos.now.2
          contentLength := hlength
          contentType := getContentTypeByExtension_inLine _
          connection := not_CRLF_of_notMem (by decide : LF ∉ lit "keep-alive") } }

/-- The response takes the header as it is then. -/
theorem response_inLines :
    Method.Maintains InLines (get >>= fun b => (pure b.response : BuilderM HttpResponse))
      fun r => r.toHttpResponseHeaderDTO.InLines :=
  Method.Maintains.get.bind fun _ h => .pure h.header

theorem buildErrorResponse_inLines {os : Os} (hos : os.DatesInLine) {req : HttpRequestDTO}
    (hreq : req.InLines) (httpStatus : Int) :
    Method.Maintains InLines (buildErrorResponse os httpStatus req)
      fun r => r.toHttpResponseHeaderDTO.InLines := by
  intro b hb
  have hpage : (withErrorPage os httpStatus b).InLines := by
    have hchange := withErrorPage_change os httpStatus b
    generalize withErrorPage os httpStatus b = b' at hchange ⊢
    obtain ⟨body, reads, -⟩ := hchange
    exact ⟨hb.server, hb.header⟩
  have hheader := withErrorHeader_inLines hos hreq httpStatus hpage
  rw [buildErrorResponse_run]
  refine ⟨hheader, fun response hresponse => ?_⟩
  obtain rfl := Except.ok.inj hresponse
  exact hheader.header

theorem tryBuild_inLines {os : Os} (hos : os.DatesInLine) {req : HttpRequestDTO}
    (hreq : req.InLines) :
    Method.Maintains InLines (tryBuild os req) fun r => r.toHttpResponseHeaderDTO.InLines := by
  refine .seq (setDefaultRoot_inLines os) fun _ => .seq (.lift fun _ _ => trivial) fun path => ?_
  refine .seq (.modify fun _ h => ⟨h.server, h.header⟩) fun _ => ?_
  refine .ite (buildErrorResponse_inLines hos hreq _) ?_
  exact .seq (serveFile_inLines hos hreq) fun _ => response_inLines

/-- Whatever `build` returns keeps its fields in their lines. -/
theorem build_inLines {os : Os} (hos : os.DatesInLine) {req : HttpRequestDTO}
    (hreq : req.InLines) :
    Method.Maintains InLines (build os req) fun r => r.toHttpResponseHeaderDTO.InLines := by
  refine .tryCatch (tryBuild_inLines hos hreq) fun e => ?_
  cases e with
  | std e =>
    cases e with
    | response httpStatus msg => exact buildErrorResponse_inLines hos hreq httpStatus
    | _ => exact buildErrorResponse_inLines hos hreq 500
  | _ => exact .throw _

end HttpResponseBuilder

/-! ## The request -/

/-- A client cannot put a line terminator into what the builder copies. -/
theorem HttpRequestConverter.toDTO_inLines {request : HttpRequest}
    (h : request.header = .empty ∨
      ∃ block, RequestHeaderParser.parse block = .ok request.header) :
    (toDTO request).InLines := by
  have hversion : ¬ CRLF <:+: request.header.requestLine.version := by
    rcases h with h | ⟨block, h⟩
    · rw [h]
      exact not_CRLF_nil
    · obtain ⟨-, line, lines, rest, hall, -, hline, -⟩ := parse_header_ok h
      intro hin
      exact (hall line (List.mem_cons_self ..)).2
        (hin.trans (RequestLineParser.version_isInfix hline))
  have hvalues : ValuesInLine request.header.headerMap := by
    rcases h with h | ⟨block, h⟩
    · rw [h]
      intro n v hv
      simp [RequestHeader.empty] at hv
    · exact parse_header_valuesInLine h
  constructor
  · dsimp only [toDTO]
    split
    · exact fun hin => hversion (hin.trans (List.drop_suffix 5 _).isInfix)
    · exact not_CRLF_nil
  · dsimp only [toDTO, searchFieldValue]
    cases hvalue : request.header.headerMap[lit "connection"]? with
    | none => exact not_CRLF_nil
    | some v => exact hvalues _ v hvalue

theorem ConfigConverter.server_inLine {conf : ServerConfig}
    (h : ∀ name ∈ conf.server, CR ∉ name ∧ LF ∉ name) :
    ¬ CRLF <:+: (toDTO conf).server := by
  dsimp only [toDTO]
  cases hserver : conf.server with
  | nil => exact not_CRLF_nil
  | cons name names =>
    rw [hserver, List.forall_mem_cons] at h
    exact not_CRLF_of_notMem h.1.2

/-- No request adds a line to the header of its response, or splits one. -/
theorem ClientSocket.splitStr_responseTo (servConfig : ServerConfig) (calls : List ParseCall)
    (port : Nat) (config : WebservConfig)
    (hserver : ∀ conf ∈ config.servConfs, ∀ name ∈ conf.server, CR ∉ name ∧ LF ∉ name)
    (os : Os) (hos : os.DatesInLine) {res : HttpResponse}
    (hres : responseTo os port config
      (HttpRequestParser.parseAll (.fresh servConfig) calls).buildRequest = .ok res) :
    ∃ i, find (CRLF ++ CRLF) (HttpResponseSerializer.serialize res).text = some i ∧
      Path.splitStr ((HttpResponseSerializer.serialize res).text.take i) CRLF =
        res.statusLine :: res.fieldLines ∧
      res.body <+: (HttpResponseSerializer.serialize res).text.drop (i + 4) := by
  have hshows := HttpRequestParser.parseAll_showsParsed
    (p := .fresh servConfig) (Or.inl rfl) calls
  obtain ⟨conf, hconf, hbuild⟩ := Except.bind_eq_ok_iff.mp hres
  have hmem := WebservConfig.findServerConfig_mem (Raised.lift_eq_ok hconf)
  have hnew := HttpResponseBuilder.new_inLines (ConfigConverter.server_inLine (hserver conf hmem))
  have hreq : (HttpRequestConverter.toDTO
      (HttpRequestParser.parseAll (.fresh servConfig) calls).buildRequest).InLines :=
    HttpRequestConverter.toDTO_inLines hshows
  exact HttpResponse.splitStr_serialize
    ((HttpResponseBuilder.build_inLines hos hreq _ hnew).2 res hbuild)

/-- A site named `a` on port 80. -/
def siteConfig : WebservConfig :=
  .ofServConfs
    [{ (default : ServerConfig) with
        port := 80
        server := [lit "a"]
        locations := HttpResponseBuilder.siteConf.locations }]

/-- A request with two `Connection` fields: the first value ends in a CR, the second one starts
with an LF. -/
def connectionCall : ParseCall where
  unparsedStr := lit "GET / HTTP/1.1\r\nHost: a\r\nConnection: a\r\r\nConnection: \nb\r\n\r\n"
  port := 80
  config := siteConfig

set_option maxRecDepth 4000 in
theorem ClientSocket.splitStr_responseTo_connections :
    ∃ res, responseTo HttpResponseBuilder.siteOs 80 siteConfig
        (HttpRequestParser.parseAll (.fresh default) [connectionCall]).buildRequest = .ok res ∧
      res.connection = lit "a\r,\nb" ∧
      ∃ i, find (CRLF ++ CRLF) (HttpResponseSerializer.serialize res).text = some i ∧
        Path.splitStr ((HttpResponseSerializer.serialize res).text.take i) CRLF =
          res.statusLine :: res.fieldLines ∧
        res.body <+: (HttpResponseSerializer.serialize res).text.drop (i + 4) := by
  obtain ⟨res, hres, hconnection⟩ : ∃ res, responseTo HttpResponseBuilder.siteOs 80 siteConfig
      (HttpRequestParser.parseAll (.fresh default) [connectionCall]).buildRequest = .ok res ∧
        res.connection = lit "a\r,\nb" := ⟨_, rfl, by decide⟩
  have hos : HttpResponseBuilder.siteOs.DatesInLine :=
    ⟨by decide, fun _ _ h => by rw [← Option.some.inj h]; decide⟩
  exact ⟨res, hres, hconnection,
    splitStr_responseTo default [connectionCall] 80 siteConfig (by decide) _ hos hres⟩

end Webserv
