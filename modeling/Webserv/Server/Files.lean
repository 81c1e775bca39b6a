import Webserv.Request.RequestLineGrammar
import Webserv.Response.HeaderInjection
import Webserv.Response.Outcome
import Webserv.Response.PathParts
import Webserv.Response.StaticFile
import Webserv.Server.Liveness

/-!
# Files that a peer gets

What the server is for: a peer that asks for the files of a location, one after the other and
every time in one piece, reads them from its connection, whatever the other connections do
meanwhile.
-/

namespace Webserv

open Text HttpParser Selector HttpRequestParser
open HttpResponseBuilder hiding CRLF

/-! ## The response to a request -/

namespace ClientSocket

/-- The response is that of the outcome, for the server that `Host` chooses. -/
theorem responseTo_eq_outcome (os : Os) (port : Nat) (config : WebservConfig)
    (request : HttpRequest) :
    responseTo os port config request =
      match config.findServerConfig port request.header.host with
      | .error e => .error (.std e)
      | .ok servConfig =>
        let conf := ConfigConverter.toDTO servConfig
        let req := HttpRequestConverter.toDTO request
        (outcome os conf req).answer os conf req := by
  rw [responseTo]
  cases config.findServerConfig port request.header.host with
  | error e => rfl
  | ok servConfig => exact build_eq os _ _

end ClientSocket

/-! ## Published files -/

/-- The first location for the directory admits `GET` for this file, which is no script, and the
file is there and can be read. -/
structure Publishes (os : Os) (conf : ConfigDTO) (dir name : Str) (location : LocationConfig)
    (content : Str) : Prop where
  isDir : IsDirText dir
  isName : name ≠ [] ∧ 47 ∉ name
  noMark : 63 ∉ dir ++ name
  first : ∃ before after, conf.locations = before ++ location :: after ∧
    ∀ l ∈ before, l.location ≠ dir
  matching : location.location = dir
  admits : allowed location name (lit "GET")
  noScript : isCGI location name = false
  file : ∃ cwd names, os.getcwd = some cwd ∧
    os.opendir (cStr (locationDir cwd (serverRoot cwd conf) location)) = some names ∧
    cStr name ∈ names ∧
    let file := cStr (locationDir cwd (serverRoot cwd conf) location ++ name)
    os.access file = true ∧ os.ifstream file = some content ∧ os.stat file ≠ none

/-- A location for another directory is passed over. -/
theorem search_append {os : Os} {cwd base dir file : Str} {before rest : List LocationConfig}
    (h : ∀ l ∈ before, l.location ≠ dir) :
    search os cwd base dir file (before ++ rest) = search os cwd base dir file rest := by
  induction before with
  | nil => rfl
  | cons l before ih =>
    rw [List.forall_mem_cons] at h
    rw [List.cons_append, search, if_neg h.1]
    exact ih h.2

theorem Publishes.search {os : Os} {conf : ConfigDTO} {dir name content : Str}
    {location : LocationConfig} (h : Publishes os conf dir name location content) {cwd : Str}
    {names : List Str}
    (hdir : os.opendir (cStr (locationDir cwd (serverRoot cwd conf) location)) = some names)
    (hname : cStr name ∈ names) :
    HttpResponseBuilder.search os cwd (serverRoot cwd conf) dir name conf.locations =
      some (location, name) := by
  obtain ⟨before, after, hlocations, hbefore⟩ := h.first
  have hcandidates : (candidates name location).find? (fun n => names.contains (cStr n)) =
      some name := by
    rw [candidates, if_pos h.isName.1, List.find?_singleton, if_pos (by simpa using hname)]
  rw [hlocations, search_append hbefore, HttpResponseBuilder.search, if_pos h.matching, hdir]
  dsimp only
  rw [hcandidates]

/-- The parts of a path with or without a query. -/
theorem ofPathquery_append {dir name query : Str} (hdir : IsDirText dir) (hname : 47 ∉ name)
    (hmark : 63 ∉ dir ++ name) (hquery : query = [] ∨ query.head? = some 63) :
    ∃ path, Path.ofPathquery (dir ++ name ++ query) = .ok path ∧ path.pathDir = dir ∧
      path.pathFile = name := by
  obtain ⟨front, rfl⟩ := hdir
  have hraw : (Path.splitPathQuery (front ++ [47] ++ name ++ query)).1 = front ++ [47] ++ name := by
    rw [Path.splitPathQuery_fst]
    refine takeWhile_append_head (fun c hc => ?_) fun c hc => ?_
    · have hne : c ≠ 63 := fun heq => hmark (heq ▸ hc)
      simpa using hne
    · rcases hquery with rfl | hquery
      · cases hc
      · rw [hquery] at hc
        rw [← Option.some.inj hc]
        rfl
  have hlast : findLast (fun c => c = 47) (front ++ [47] ++ name) = some front.length := by
    rw [List.append_assoc, List.singleton_append]
    exact findLast_append rfl fun c hc => decide_eq_false fun heq => hname (heq ▸ hc)
  have hlength : (front ++ [47]).length = front.length + 1 := List.length_append
  have hparts : Path.parseRequestPath (front ++ [47] ++ name) = .ok (front ++ [47], name) := by
    rw [Path.parseRequestPath, hlast]
    dsimp only
    rw [← hlength, List.take_left' rfl, List.drop_left' rfl]
  rw [Path.ofPathquery]
  dsimp only
  rw [hraw, hparts]
  exact ⟨_, rfl, rfl, rfl⟩

/-! ## The file in the response -/

/-- The response has the lines of the file and says how long they are, in a header of whole
lines. -/
structure Carries (content : Str) (response : HttpResponse) : Prop where
  received : response.received = ⟨lit "HTTP/1.1 200 OK", crlfLines content⟩
  contentLength : response.contentLength = decimal response.body.length
  lines : ∀ line ∈ response.statusLine :: response.fieldLines, IsLine CR LF line

/-- The response to a `GET` for a file. -/
theorem Publishes.received {os : Os} {conf : ConfigDTO} {req : HttpRequestDTO}
    {dir name query content : Str} {location : LocationConfig}
    (h : Publishes os conf dir name location content) (hversion : req.version = lit "1.1")
    (hstatus : req.responseStatusCode = HttpStatus.ok) (hmethod : req.method = lit "GET")
    (hpath : req.path = dir ++ name ++ query) (hquery : query = [] ∨ query.head? = some 63)
    {response : HttpResponse}
    (hresponse : (outcome os conf req).answer os conf req = .ok response) :
    response.received = ⟨lit "HTTP/1.1 200 OK", crlfLines content⟩ ∧
      response.contentLength = decimal response.body.length := by
  obtain ⟨path, hparsed, rfl, rfl⟩ := ofPathquery_append h.isDir h.isName.2 h.noMark hquery
  obtain ⟨cwd, names, hcwd, hnames, hname, haccess, hcontent, hstat⟩ := h.file
  obtain ⟨modTime, hmodTime⟩ := Option.ne_none_iff_exists'.mp hstat
  have hdelete : ¬ (req.method ∈ location.allowedMethods ∧ req.method = lit "DELETE") := by
    rw [hmethod]
    exact fun h => absurd h.2 (by decide)
  rw [outcome, hcwd] at hresponse
  dsimp only at hresponse
  rw [hpath, hparsed] at hresponse
  dsimp only at hresponse
  rw [pathOutcome, if_neg (not_not.mpr hstatus), h.search hnames hname] at hresponse
  dsimp only at hresponse
  rw [if_pos ⟨hmethod ▸ h.admits, haccess⟩, Target.outcome, h.noScript, if_neg (by decide),
    if_neg hdelete, hcontent] at hresponse
  dsimp only at hresponse
  rw [Target.serves, hmodTime] at hresponse
  obtain rfl := Except.ok.inj hresponse
  have hlines : (getlines content).flatMap (· ++ HttpResponseBuilder.CRLF) = crlfLines content :=
    getlines_join HttpResponseBuilder.CRLF content
  refine ⟨?_, rfl⟩
  rw [HttpResponse.received, HttpResponse.statusLine, ← hlines]
  dsimp only
  rw [hversion]
  rfl

/-! ## Sessions -/

/-- The request is a `GET` for a file that all these systems have. -/
def AsksFor (systems : Set Os) (config : WebservConfig) (port : Nat) (r : PlainRequest)
    (content : Str) : Prop :=
  r.header.requestLine.method = lit "GET" ∧
    ∃ servConfig, config.findServerConfig port r.header.host = .ok servConfig ∧
      ∀ os ∈ systems, ∃ dir name query location,
        r.header.requestLine.uri = dir ++ name ++ query ∧
        (query = [] ∨ query.head? = some 63) ∧
        Publishes os (ConfigConverter.toDTO servConfig) dir name location content

theorem AsksFor.carries {systems : Set Os} {config : WebservConfig} {port : Nat}
    (hserver : ∀ conf ∈ config.servConfs, ∀ name ∈ conf.server, CR ∉ name ∧ LF ∉ name)
    (hdates : ∀ os ∈ systems, os.DatesInLine) {r : PlainRequest} {content : Str}
    (h : AsksFor systems config port r content) {response : HttpResponse}
    (hanswers : ClientSocket.Answers systems config port r response) :
    Carries content response := by
  obtain ⟨hmethod, conf, hconf, hpublishes⟩ := h
  obtain ⟨os, hos, servConfig, hresponse⟩ := hanswers
  obtain ⟨dir, name, query, location, huri, hquery, hpublished⟩ := hpublishes os hos
  have hfound : config.findServerConfig port (r.request servConfig).header.host = .ok conf := hconf
  rw [ClientSocket.responseTo, hfound] at hresponse
  have hversion : (HttpRequestConverter.toDTO (r.request servConfig)).version = lit "1.1" := by
    obtain ⟨-, line, lines, rest, -, -, hline, -⟩ := parse_header_ok r.accepted
    have hversion := (RequestLineParser.words_of_parse_ok hline).2.1
    change (if (find (lit "HTTP/") r.header.requestLine.version).isSome then
      r.header.requestLine.version.drop 5 else []) = _
    rw [hversion]
    decide
  obtain ⟨hreceived, hlength⟩ := hpublished.received hversion rfl hmethod huri hquery
    ((build_eq os _ _).symm.trans hresponse)
  have hnew := new_inLines (ConfigConverter.server_inLine
    (hserver conf (WebservConfig.findServerConfig_mem hconf)))
  have hreq : (HttpRequestConverter.toDTO (r.request servConfig)).InLines :=
    HttpRequestConverter.toDTO_inLines (Or.inr ⟨_, r.accepted⟩)
  exact ⟨hreceived, hlength, HttpResponse.isLine_of_inLines
    ((build_inLines (hdates os hos) hreq _ hnew).2 response hresponse)⟩

/-- Every file has its response. -/
theorem carries_all {systems : Set Os} {config : WebservConfig} {port : Nat}
    (hserver : ∀ conf ∈ config.servConfs, ∀ name ∈ conf.server, CR ∉ name ∧ LF ∉ name)
    (hdates : ∀ os ∈ systems, os.DatesInLine) {reqs : List PlainRequest} {files : List Str}
    {responses : List HttpResponse}
    (hasks : List.Forall₂ (AsksFor systems config port) reqs files)
    (hanswers : List.Forall₂ (ClientSocket.Answers systems config port) reqs responses) :
    List.Forall₂ Carries files responses := by
  induction hasks generalizing responses with
  | nil =>
    rw [List.forall₂_nil_left_iff.mp hanswers]
    exact .nil
  | cons hask _ ih =>
    obtain ⟨response, responses, hanswer, hrest, rfl⟩ := List.forall₂_cons_left_iff.mp hanswers
    exact .cons (hask.carries hserver hdates hanswer) (ih hrest)

/-- A client that skips what `serialize` writes behind a body reads the files. -/
theorem readResponses_files {files : List Str} {responses : List HttpResponse}
    (h : List.Forall₂ Carries files responses) :
    readResponses (CRLF ++ CRLF) files.length (responseStream responses) =
      some (files.map fun content => ⟨lit "HTTP/1.1 200 OK", crlfLines content⟩, []) := by
  have hlines : ∀ res ∈ responses,
      (∀ line ∈ res.statusLine :: res.fieldLines, IsLine CR LF line) ∧
        res.contentLength = decimal res.body.length := by
    induction h with
    | nil => exact List.forall_mem_nil _
    | cons hcarries _ ih =>
      exact List.forall_mem_cons.mpr ⟨⟨hcarries.lines, hcarries.contentLength⟩, ih⟩
  have hreceived : responses.map HttpResponse.received =
      files.map fun content => ⟨lit "HTTP/1.1 200 OK", crlfLines content⟩ := by
    clear hlines
    induction h with
    | nil => rfl
    | cons hcarries _ ih => rw [List.map_cons, List.map_cons, hcarries.received, ih]
  rw [h.length_eq, readResponses_lines hlines, hreceived]

namespace ClientSocket

/-- The bytes that the peer received. -/
def sentBytes (history : List Transfer) : Str :=
  history.flatMap fun
    | .sent response => (HttpResponseSerializer.serialize response).text
    | .received _ => []

theorem sentBytes_append (history history' : List Transfer) :
    sentBytes (history ++ history') = sentBytes history ++ sentBytes history' :=
  List.flatMap_append

theorem sentBytes_answer (bytes : Str) (response : HttpResponse) :
    sentBytes [.received bytes, .sent response] =
      (HttpResponseSerializer.serialize response).text := by
  rw [sentBytes, List.flatMap_cons, List.flatMap_singleton, List.nil_append]

theorem sentBytes_exchange {reqs : List PlainRequest} {responses : List HttpResponse}
    (h : reqs.length = responses.length) :
    sentBytes (exchange reqs responses) = responseStream responses := by
  induction reqs generalizing responses with
  | nil =>
    rw [List.length_eq_zero_iff.mp h.symm]
    rfl
  | cons r reqs ih =>
    obtain ⟨response, responses, rfl⟩ := List.exists_cons_of_length_eq_add_one h.symm
    have hlength : reqs.length = responses.length := by simpa using h
    have hcons : exchange (r :: reqs) (response :: responses) =
        [.received r.text, .sent response] ++ exchange reqs responses := rfl
    have hstream : responseStream (response :: responses) =
        (HttpResponseSerializer.serialize response).text ++ responseStream responses := rfl
    rw [hcons, sentBytes_append, sentBytes_answer, ih hlength, hstream]

end ClientSocket

namespace Server.Execution

open ClientSocket

/-- `GET /index.html` -/
def getIndex : PlainRequest where
  headerText := lit "GET /index.html HTTP/1.1\r\nHost: a\r\n\r\n"
  header :=
    ⟨⟨lit "GET", lit "/index.html", lit "HTTP/1.1"⟩, .ofList [(lit "host", lit "a")], lit "a"⟩
  body := []
  block := by decide
  accepted := by decide
  notChunked := by decide
  length := by decide
  body_le := by decide

theorem siteConfig_portsParsed : siteConfig.PortsParsed := by
  intro port hport
  obtain ⟨c, hc, rfl⟩ := (siteConfig.ports_spec port).mp hport
  rw [List.mem_singleton.mp hc]
  exact ⟨80, by decide, by decide, by decide⟩

theorem connects_siteConfig : Connects siteConfig where
  ports := siteConfig_portsParsed
  lawful :=
    { select := fun h => nomatch h
      ready := fun fds => (inv_new fun _ _ => by decide).ready_of_matching (settled_new _ _)
        ⟨fun fd hfd => Or.inl (by rw [eq_of_mem_insert hfd]; decide),
          fun _ hfd => absurd hfd Std.ExtTreeSet.not_mem_empty⟩
      accept := fun _ _ _ => ⟨4, rfl, rfl, by decide, by decide, by decide⟩
      distinct := fun _ hfd _ hfd' _ _ _ =>
        (eq_of_mem_insert hfd).trans (eq_of_mem_insert hfd').symm
      reads := fun _ _ _ hclnt => by
        rw [new, Std.ExtTreeMap.getElem?_empty] at hclnt
        cases hclnt
      writes := fun _ hfd => absurd hfd Std.ExtTreeSet.not_mem_empty }
  pass := rfl

/-- A run in which the connection 4 asks for `/index.html`. -/
theorem exists_getRun : ∃ ρ response, RequestRun siteConfig getIndex response ρ := by
  obtain ⟨response, hr⟩ : ∃ response, FirstRequest siteConfig getIndex response :=
    ⟨_, by decide, rfl⟩
  obtain ⟨ρ, h⟩ := connects_siteConfig.exists_requestRun hr
  exact ⟨ρ, response, h⟩

theorem siteOs_datesInLine : siteOs.DatesInLine :=
  ⟨by decide, fun _ _ h => by rw [← Option.some.inj h]; decide⟩

theorem RequestRun.asksFor {response : HttpResponse} {ρ : Execution (new siteConfig fun _ => 3)}
    (h : RequestRun siteConfig getIndex response ρ) :
    AsksFor (ρ.systems 4) siteConfig firstClient.port getIndex (lit "hello\n") := by
  refine ⟨rfl, _, rfl, fun os hos => ?_⟩
  rw [h.systems os hos]
  refine ⟨lit "/", lit "index.html", [], _, by decide, Or.inl rfl,
    { isDir := ⟨[], rfl⟩
      isName := by decide
      noMark := by decide
      first := ⟨[], [], rfl, fun _ h => absurd h List.not_mem_nil⟩
      matching := rfl
      admits := by decide
      noScript := by decide
      file := ⟨lit "/srv", [lit "index.html"], rfl, rfl, by decide, rfl, rfl, by decide⟩ }⟩

/-- A peer that asks for files one after the other reads them from its connection in this order,
whatever the other connections do meanwhile, if every request is received whole and has no
NUL. -/
theorem session_files (config : WebservConfig) (hports : config.PortsParsed)
    (hserver : ∀ conf ∈ config.servConfs, ∀ name ∈ conf.server, CR ∉ name ∧ LF ∉ name)
    (socket : Nat → Int) (hsocket : ∀ port ∈ config.ports, InRange (socket port))
    (ρ : Execution (new config socket)) (fd : Int) (hfair : ρ.WriteFair fd)
    (hdates : ∀ os ∈ ρ.systems fd, os.DatesInLine) (n : ℕ) (clnt : ClientSocket)
    (hclnt : ρ.Has fd clnt n) (hstate : clnt.state = .read)
    (hidle : clnt.requestParser.parseStatus ≠ .chunkedBody) (reqs : List PlainRequest)
    (hnul : ∀ r ∈ reqs, 0 ∉ r.text) (hsends : ρ.Sends fd n clnt.history reqs)
    (files : List Str)
    (hfiles : List.Forall₂ (AsksFor (ρ.systems fd) config clnt.port) reqs files) :
    ∃ m, n ≤ m ∧ ∃ clnt' bytes, ρ.Has fd clnt' m ∧ clnt'.state = .read ∧
      sentBytes clnt'.history = sentBytes clnt.history ++ bytes ∧
      readResponses (CRLF ++ CRLF) files.length bytes =
        some (files.map fun content => ⟨lit "HTTP/1.1 200 OK", crlfLines content⟩, []) := by
  have hnone : ρ.Served fd clnt [] n :=
    ⟨clnt, [], hclnt, hstate, rfl, hidle, (List.append_nil _).symm, .nil⟩
  obtain ⟨m, hm, clnt', responses, hhas, hread, -, -, hhistory, hanswers⟩ :=
    Served.all hports (inv_new hsocket) (settled_new config socket) hfair hsends hnul hnone
  refine ⟨m, hm, clnt', responseStream responses, hhas, hread, ?_,
    readResponses_files (carries_all hserver hdates hfiles hanswers)⟩
  rw [hhistory, sentBytes_append, sentBytes_exchange hanswers.length_eq]

theorem session_files_index : ∃ ρ : Execution (new siteConfig fun _ => 3), ∃ m, 1 ≤ m ∧
    ∃ clnt' bytes, ρ.Has 4 clnt' m ∧ clnt'.state = .read ∧
      sentBytes clnt'.history = sentBytes firstClient.history ++ bytes ∧
      readResponses (CRLF ++ CRLF) [lit "hello\n"].length bytes =
        some ([lit "hello\n"].map fun content =>
          ⟨lit "HTTP/1.1 200 OK", crlfLines content⟩, []) := by
  obtain ⟨ρ, response, h⟩ := exists_getRun
  exact ⟨ρ, session_files siteConfig siteConfig_portsParsed (by decide) (fun _ => 3)
    (fun _ _ => by decide) ρ 4 h.writeFair (fun os hos => h.systems os hos ▸ siteOs_datesInLine)
    1 firstClient h.first rfl (by decide) [getIndex] (by decide) h.sends [lit "hello\n"]
    (.cons h.asksFor .nil)⟩

end Server.Execution

end Webserv
