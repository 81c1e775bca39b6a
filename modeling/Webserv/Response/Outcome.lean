import Webserv.Response.ContentLength

/-!
# What a request comes to

`HttpResponseBuilder` without its members.  The outcome of a request is a function of the system,
the configuration and the request, and `build` returns the response of this outcome, whichever
way it takes through its members and its exceptions.  A script is run as `CGI` runs it.
-/

namespace Webserv

open Text

namespace HttpResponseBuilder

/-! ## Outcomes -/

/-- What an error response depends on. -/
structure Failure where
  httpStatus : Int
  /-- the root of a configured page, `none` when no page is read -/
  pageRoot : Option Str
  /-- the name that the type of the response is taken from -/
  file : Str
  /-- what is in the body already -/
  written : Str
  /-- the `Server` field, as far as it is set -/
  server : Str

inductive Outcome
  | served (response : HttpResponse)
  | failed (failure : Failure)
  /-- an exception that no clause of `build` catches -/
  | raised (e : Raised)

namespace Failure

def body (os : Os) (conf : ConfigDTO) (f : Failure) : Str :=
  let errorPage := conf.errorPages[f.httpStatus]?.getD []
  let builtIn := defaultErrorBody conf.server f.httpStatus
  if errorPage = [] then f.written ++ builtIn
  else
    match f.pageRoot with
    | none => if f.written = [] then builtIn else f.written
    | some root =>
      match os.ifstream (cStr (root ++ errorPage)) with
      | none => f.written ++ builtIn
      | some content =>
        let page := f.written ++ (getlines content).flatMap (· ++ CRLF)
        if page = [] then builtIn else page

def response (os : Os) (conf : ConfigDTO) (req : HttpRequestDTO) (f : Failure) :
    HttpResponse where
  version := req.version
  statusCode := decimalInt f.httpStatus
  reasonPhrase := getReasonPhrase (decimalInt f.httpStatus)
  server := f.server
  date := buildDate os
  contentType := getContentTypeByExtension f.file
  contentLength := [UInt8.ofNat (f.body os conf).length]
  lastModified := []
  connection := lit "keep-alive"
  etag := []
  acceptRanges := []
  body := f.body os conf

end Failure

def Outcome.answer (os : Os) (conf : ConfigDTO) (req : HttpRequestDTO) :
    Outcome → Except Raised HttpResponse
  | .served response => .ok response
  | .failed f => .ok (f.response os conf req)
  | .raised e => .error e

/-- A file that was found in a location and may be served. -/
structure Target where
  location : LocationConfig
  name : Str
  file : Str

namespace Target

/-- An error page has its root only from the location. -/
def fails (t : Target) (httpStatus : Int) (written server : Str) : Outcome :=
  .failed ⟨httpStatus, if t.location.root ≠ [] then some t.location.root else none, t.name,
    written, server⟩

def serves (os : Os) (conf : ConfigDTO) (req : HttpRequestDTO) (t : Target)
    (contentType body : Str) : Outcome :=
  match os.stat (cStr t.file) with
  | none => t.fails 500 body conf.server
  | some modTime => .served
    { version := req.version
      statusCode := HttpStatus.ok
      reasonPhrase := lit "OK"
      server := conf.server
      date := buildDate os
      contentType := contentType
      contentLength := utility.toString body.length
      lastModified := modTime.dropLast ++ lit " GMT"
      connection := req.connection
      etag := lit "\"62c29d55-e5\""
      acceptRanges := ACCEPT_RANGES
      body := body }

end Target

/-- The body that a script prints: for the scripts the outcome is that of `CGI` and of `CGIParser`
themselves, with their members and exceptions. -/
def scriptOutput (os : Os) (conf : ConfigDTO) (req : HttpRequestDTO) (path : Path) :
    Except Raised Str :=
  match (CGI.run os.cgi req conf path).run .new with
  | (.error e, _) => .error e
  | (.ok (), cgi) =>
    match (CGIParser.parse cgi.cgiResponse).run .new with
    | (.error e, _) => .error e
    | (.ok (), parser) => .ok parser.resBodyStr

def Target.outcome (os : Os) (conf : ConfigDTO) (req : HttpRequestDTO) (path : Path)
    (t : Target) : Outcome :=
  if isCGI t.location t.name then
    match scriptOutput os conf req path with
    | .error (.std e) => t.fails (caughtStatus e) [] []
    | .error e => .raised e
    | .ok output => t.serves os conf req TEXT_HTML output
  else if req.method ∈ t.location.allowedMethods ∧ req.method = lit "DELETE" then
    t.serves os conf req (getContentTypeByExtension t.name) []
  else
    match os.ifstream (cStr t.file) with
    | none => t.fails 500 [] []
    | some content =>
      t.serves os conf req (getContentTypeByExtension t.name)
        ((getlines content).flatMap (· ++ CRLF))

/-- The outcome of a request whose path was read. -/
def pathOutcome (os : Os) (conf : ConfigDTO) (req : HttpRequestDTO) (cwd : Str) (path : Path) :
    Outcome :=
  let base := serverRoot cwd conf
  if req.responseStatusCode ≠ HttpStatus.ok then
    .failed ⟨utility.toInt req.responseStatusCode, some base, path.pathFile, [], []⟩
  else
    match search os cwd base path.pathDir path.pathFile conf.locations with
    | none =>
      let last := lastFile os cwd base path.pathDir path.pathFile conf.locations
      .failed ⟨404, some base, last, [], []⟩
    | some (location, name) =>
      let t : Target := ⟨location, name, locationDir cwd base location ++ name⟩
      if allowed location name req.method ∧ os.access (cStr t.file) = true then
        t.outcome os conf req path
      else t.fails 403 [] []

def outcome (os : Os) (conf : ConfigDTO) (req : HttpRequestDTO) : Outcome :=
  match os.getcwd with
  | none => .failed ⟨500, some [], [], [], []⟩
  | some cwd =>
    match Path.ofPathquery req.path with
    | .error _ => .failed ⟨500, some (serverRoot cwd conf), [], [], []⟩
    | .ok path => pathOutcome os conf req cwd path

/-! ## Error responses -/

/-- The members that an error response is made from. -/
structure Shows (conf : ConfigDTO) (f : Failure) (b : HttpResponseBuilder) : Prop where
  conf : b.conf = conf
  pageRoot : b.pageRoot = f.pageRoot
  file : b.pathFile = f.file
  written : b.resBodyStr = f.written
  server : b.header.server = f.server
  lastModified : b.header.lastModified = []
  etag : b.header.etag = []
  acceptRanges : b.header.acceptRanges = []

section

variable {os : Os} {conf : ConfigDTO} {req : HttpRequestDTO} {f : Failure}
  {b b' : HttpResponseBuilder}

theorem Shows.body (h : Shows conf f b) :
    (withErrorPage os f.httpStatus b).resBodyStr = f.body os conf := by
  rw [withErrorPage, Failure.body, h.conf]
  dsimp only
  split
  · rw [withDefaultPage, h.written, h.conf]
  · rw [withCustomPage, h.pageRoot]
    cases f.pageRoot with
    | none =>
      dsimp only
      rw [h.written]
      split
      · next hnil => rw [withDefaultPage, h.written, h.conf, hnil, List.nil_append]
      · exact h.written
    | some root =>
      dsimp only
      cases hpage : os.ifstream (cStr (root ++ conf.errorPages[f.httpStatus]?.getD [])) with
      | none =>
        dsimp only [Option.map_none]
        rw [withDefaultPage, h.written, h.conf]
      | some content =>
        dsimp only [Option.map_some]
        rw [withFile, h.written]
        dsimp only
        split
        · next hnil => rw [withDefaultPage, hnil, h.conf, List.nil_append]
        · rfl

/-- The response is made from these members alone. -/
theorem Shows.buildErrorResponse (h : Shows conf f b) :
    ((buildErrorResponse os f.httpStatus req).run b).1 = .ok (f.response os conf req) := by
  rw [buildErrorResponse_run]
  have hheader := withErrorPage_keeps HttpResponseBuilder.header (fun _ _ _ => rfl) os
    f.httpStatus b
  have hfile := withErrorPage_keeps HttpResponseBuilder.pathFile (fun _ _ _ => rfl) os
    f.httpStatus b
  rw [withErrorHeader, HttpResponseBuilder.response, hheader, hfile, h.body, h.file,
    Failure.response]
  dsimp only
  rw [h.server, h.lastModified, h.etag, h.acceptRanges]

theorem build_failed {e : Exn} (htry : (tryBuild os req).run b = (.error (.std e), b'))
    (hstatus : caughtStatus e = f.httpStatus) (h : Shows conf f b') :
    ((build os req).run b).1 = (Outcome.failed f).answer os conf req := by
  rw [build_of_thrown htry, hstatus, h.buildErrorResponse]
  rfl

/-! ## Served requests -/

/-- The members once the options are checked, with this body. -/
structure Holds (conf : ConfigDTO) (t : Target) (body : Str) (b : HttpResponseBuilder) :
    Prop where
  conf : b.conf = conf
  filepathPath : b.filepathPath = t.file
  filepathExists : b.filepathExists = true
  pathFile : b.pathFile = t.name
  foundLocation : b.foundLocation = t.location
  resBodyStr : b.resBodyStr = body
  header : b.header = ⟨[], [], [], [], [], [], [], [], [], [], []⟩

variable {t : Target} {body : Str}

theorem Holds.pageRoot (h : Holds conf t body b) :
    b.pageRoot = if t.location.root ≠ [] then some t.location.root else none := by
  rw [HttpResponseBuilder.pageRoot, h.filepathExists, if_pos rfl, h.foundLocation]

theorem Holds.shows (h : Holds conf t body b) (httpStatus : Int) :
    Shows conf ⟨httpStatus, if t.location.root ≠ [] then some t.location.root else none, t.name,
      body, []⟩ b where
  conf := h.conf
  pageRoot := h.pageRoot
  file := h.pathFile
  written := h.resBodyStr
  server := by rw [h.header]
  lastModified := by rw [h.header]
  etag := by rw [h.header]
  acceptRanges := by rw [h.header]

/-- How `deliver` ends when the request has this outcome. -/
inductive EndsAs (os : Os) (conf : ConfigDTO) (req : HttpRequestDTO) :
    Outcome → Except Raised Unit × HttpResponseBuilder → Prop
  | served (b : HttpResponseBuilder) : EndsAs os conf req (.served b.response) (.ok (), b)
  | failed (e : Exn) (f : Failure) (b : HttpResponseBuilder)
    (hstatus : caughtStatus e = f.httpStatus) (hshows : Shows conf f b) :
    EndsAs os conf req (.failed f) (.error (.std e), b)
  | raised (e : Raised) (b : HttpResponseBuilder) (hstd : ∀ x, e ≠ .std x) :
    EndsAs os conf req (.raised e) (.error e, b)

theorem EndsAs.build {o : Outcome}
    (htry : (tryBuild os req).run b =
      (deliver os req >>= fun _ => get >>= fun b => pure b.response).run b')
    (h : EndsAs os conf req o ((deliver os req).run b')) :
    ((build os req).run b).1 = o.answer os conf req := by
  generalize hrun : (deliver os req).run b' = r at h
  cases h with
  | served b'' =>
    rw [Method.run_bind_ok hrun] at htry
    rw [build_of_ok htry]
    rfl
  | failed e f b'' hstatus hshows =>
    rw [Method.run_bind_error hrun] at htry
    exact build_failed htry hstatus hshows
  | raised e b'' hstd =>
    rw [Method.run_bind_error hrun] at htry
    rw [HttpResponseBuilder.build, Method.run_tryCatch, htry]
    cases e with
    | std e => exact absurd rfl (hstd e)
    | _ => rfl

/-- A header cannot be built for a file without a modification time. -/
theorem Holds.noStat (h : Holds conf t body b) (hstat : os.stat (cStr t.file) = none)
    (contentType : Str) :
    EndsAs os conf req (t.serves os conf req contentType body)
      (.error (.std (.response 500 "stat")), withHeader os req b) := by
  rw [Target.serves, hstat]
  refine .failed _ _ _ rfl ⟨h.conf, h.pageRoot, h.pathFile, h.resBodyStr, ?_, ?_, ?_, ?_⟩
  · rw [withHeader, h.conf]
  · rw [withHeader, h.header]
  · rw [withHeader, h.header]
  · rw [withHeader, h.header]

theorem Holds.hasStat (h : Holds conf t body b) {modTime : Str}
    (hstat : os.stat (cStr t.file) = some modTime) :
    ∃ b', (buildHeader os req).run b = (.ok (), b') ∧
      .served b'.response =
        t.serves os conf req (getContentTypeByExtension t.name) body ∧
      .served { b' with header :=
          { b'.header with statusCode := HttpStatus.ok, contentType := TEXT_HTML } }.response =
        t.serves os conf req TEXT_HTML body := by
  have hlast := buildLastModified_some (b := withHeader os req b) (h.filepathPath ▸ hstat)
  rw [buildHeader, Method.run_modify_bind]
  refine ⟨_, Method.run_bind_ok hlast _, ?_, ?_⟩
  · rw [Target.serves, hstat, withHeader]
    dsimp only [HttpResponseBuilder.response]
    rw [h.conf, h.resBodyStr, h.pathFile]
  · rw [Target.serves, hstat, withHeader]
    dsimp only [HttpResponseBuilder.response]
    rw [h.conf, h.resBodyStr]

/-- The header of a file. -/
theorem Holds.buildHeader (h : Holds conf t body b) :
    EndsAs os conf req (t.serves os conf req (getContentTypeByExtension t.name) body)
      ((buildHeader os req).run b) := by
  cases hstat : os.stat (cStr t.file) with
  | none =>
    rw [buildHeader_noStat (h.filepathPath ▸ hstat)]
    exact h.noStat hstat _
  | some modTime =>
    obtain ⟨b', hrun, hserved, -⟩ := h.hasStat hstat
    rw [hrun, ← hserved]
    exact .served b'

/-- The header of the output of a script. -/
theorem Holds.buildScriptHeader (h : Holds conf t body b) :
    EndsAs os conf req (t.serves os conf req TEXT_HTML body)
      ((HttpResponseBuilder.buildHeader os req >>= fun _ => updateHeader).run b) := by
  cases hstat : os.stat (cStr t.file) with
  | none =>
    rw [Method.run_bind_error (buildHeader_noStat (h.filepathPath ▸ hstat) req)]
    exact h.noStat hstat _
  | some modTime =>
    obtain ⟨b', hrun, -, hserved⟩ := h.hasStat hstat
    rw [Method.run_bind_ok hrun, ← hserved]
    exact .served _

theorem Holds.withScript (h : Holds conf t body b) (cgi : CGI) (parser : CGIParser) :
    Holds conf t body { b with cgi := cgi, cgiParser := parser } :=
  ⟨h.conf, h.filepathPath, h.filepathExists, h.pathFile, h.foundLocation, h.resBodyStr, h.header⟩

theorem Holds.withBody (h : Holds conf t [] b) (output : Str) :
    Holds conf t output { b with resBodyStr := b.resBodyStr ++ output } :=
  ⟨h.conf, h.filepathPath, h.filepathExists, h.pathFile, h.foundLocation,
    by rw [h.resBodyStr, List.nil_append], h.header⟩

/-- What a script that was stopped leaves behind. -/
theorem Holds.stopped (h : Holds conf t [] b) (e : Raised) :
    EndsAs os conf req
      (match e with
        | .std e => t.fails (caughtStatus e) [] []
        | e => .raised e) (.error e, b) := by
  cases e with
  | std e => exact .failed e _ b rfl (h.shows _)
  | _ => exact .raised _ b (by simp)

theorem Holds.doCGI (h : Holds conf t [] b) (hcgi : b.cgi = .new) (hparser : b.cgiParser = .new)
    {path : Path} (hpath : Path.ofPathquery req.path = .ok path) :
    EndsAs os conf req
      (match scriptOutput os conf req path with
        | .error (.std e) => t.fails (caughtStatus e) [] []
        | .error e => .raised e
        | .ok output => t.serves os conf req TEXT_HTML output)
      ((HttpResponseBuilder.doCGI os req).run b) := by
  have hlift : (liftM (Path.ofPathquery req.path) : BuilderM Path).run b = (.ok path, b) :=
    run_lift_exn_ok hpath b
  rw [HttpResponseBuilder.doCGI, Method.run_bind_ok hlift, Method.run_get_bind, scriptOutput,
    h.conf]
  rcases hrun : (CGI.run os.cgi req conf path).run .new with ⟨e | u, cgi⟩
  · have hscript : (Method.zoom (·.cgi) (fun cgi b => { b with cgi := cgi })
        (CGI.run os.cgi req conf path) : BuilderM Unit).run b =
          (.error e, { b with cgi := cgi }) := by
      rw [Method.run_zoom, hcgi, hrun]
    rw [Method.run_bind_error hscript]
    have hstopped := @Holds.stopped os conf req _ t (h.withScript cgi b.cgiParser) e
    cases e <;> exact hstopped
  · have hscript : (Method.zoom (·.cgi) (fun cgi b => { b with cgi := cgi })
        (CGI.run os.cgi req conf path) : BuilderM Unit).run b =
          (.ok (), { b with cgi := cgi }) := by
      rw [Method.run_zoom, hcgi, hrun]
    rw [Method.run_bind_ok hscript, Method.run_get_bind]
    dsimp only
    rcases hparse : (CGIParser.parse cgi.cgiResponse).run .new with ⟨e | u, parser⟩
    · have hread : (Method.zoom (·.cgiParser) (fun parser b => { b with cgiParser := parser })
          (CGIParser.parse cgi.cgiResponse) : BuilderM Unit).run { b with cgi := cgi } =
            (.error e, { b with cgi := cgi, cgiParser := parser }) := by
        rw [Method.run_zoom, hparser, hparse]
      rw [Method.run_bind_error hread]
      have hstopped := @Holds.stopped os conf req _ t (h.withScript cgi parser) e
      cases e <;> exact hstopped
    · have hread : (Method.zoom (·.cgiParser) (fun parser b => { b with cgiParser := parser })
          (CGIParser.parse cgi.cgiResponse) : BuilderM Unit).run { b with cgi := cgi } =
            (.ok (), { b with cgi := cgi, cgiParser := parser }) := by
        rw [Method.run_zoom, hparser, hparse]
      rw [Method.run_bind_ok hread, Method.run_modify_bind]
      exact ((h.withScript cgi parser).withBody parser.resBodyStr).buildScriptHeader

theorem Holds.deliver (h : Holds conf t [] b) (hcgi : b.cgi = .new) (hparser : b.cgiParser = .new)
    {path : Path} (hpath : Path.ofPathquery req.path = .ok path)
    (hscript : b.isFileCgi = isCGI t.location t.name)
    (hdelete : b.isDelete =
      decide (req.method ∈ t.location.allowedMethods ∧ req.method = lit "DELETE")) :
    EndsAs os conf req (t.outcome os conf req path)
      ((HttpResponseBuilder.deliver os req).run b) := by
  rw [HttpResponseBuilder.deliver, Method.run_get_bind, hscript, hdelete, Target.outcome,
    Method.run_ite, Method.run_ite]
  split
  · exact h.doCGI hcgi hparser hpath
  · by_cases hmethod : req.method ∈ t.location.allowedMethods ∧ req.method = lit "DELETE"
    · rw [if_pos (decide_eq_true hmethod), if_pos hmethod, deleteFile, Method.run_pure_bind]
      exact h.buildHeader
    · rw [if_neg hmethod, if_neg (by simpa using hmethod), h.filepathPath]
      cases hread : os.ifstream (cStr t.file) with
      | none =>
        rw [Method.run_bind_error (readFile_error hread b)]
        exact .failed _ _ b rfl (h.shows 500)
      | some content =>
        rw [Method.run_bind_ok (readFile_ok hread b)]
        have hlines : Holds conf t ((getlines content).flatMap (· ++ CRLF))
            (withFile .requestedFile t.file content b) :=
          ⟨h.conf, h.filepathPath, h.filepathExists, h.pathFile, h.foundLocation,
            by rw [withFile, h.resBodyStr, List.nil_append], h.header⟩
        exact hlines.buildHeader

/-! ## `build` -/

/-- The members behind a search without success. -/
theorem shows_missed (conf : ConfigDTO) (cwd : Str) (path : Path) (httpStatus : Int) (file : Str)
    (locIt : List LocationConfig) :
    Shows conf ⟨httpStatus, some (serverRoot cwd conf), file, [], []⟩
      (missed ((new conf).located cwd path) file locIt) :=
  ⟨rfl, rfl, rfl, rfl, rfl, rfl, rfl, rfl⟩

theorem holds_admitted (conf : ConfigDTO) (cwd : Str) (path : Path) (location : LocationConfig)
    (name method : Str) (locIt : List LocationConfig) :
    Holds conf ⟨location, name, locationDir cwd (serverRoot cwd conf) location ++ name⟩ []
      (admitted (searched conf cwd path location name locIt) method) :=
  ⟨rfl, rfl, rfl, rfl, rfl, rfl, rfl⟩

theorem build_pathOutcome {cwd : Str} {path : Path} (hcwd : os.getcwd = some cwd)
    (hpath : Path.ofPathquery req.path = .ok path) :
    ((build os req).run (new conf)).1 =
      (pathOutcome os conf req cwd path).answer os conf req := by
  rw [pathOutcome]
  dsimp only
  split
  · next hstatus =>
    have hshows := shows_missed conf cwd path (utility.toInt req.responseStatusCode)
      path.pathFile conf.locations
    have hresponse := @Shows.buildErrorResponse os conf req _ _ hshows
    have htry := tryBuild_located hcwd hpath (new conf)
    rw [if_pos hstatus] at htry
    rcases hrun : (tryBuild os req).run (new conf) with ⟨r, b'⟩
    obtain rfl : r = _ := (congrArg Prod.fst (hrun.symm.trans htry)).trans hresponse
    rw [build_of_ok hrun]
    rfl
  · next hstatus =>
    rw [not_not] at hstatus
    cases hsearch : search os cwd (serverRoot cwd conf) path.pathDir path.pathFile
        conf.locations with
    | none =>
      obtain ⟨msg, locIt, htry⟩ := tryBuild_notFound hstatus hcwd hpath hsearch
      exact build_failed htry rfl (shows_missed conf cwd path 404 _ locIt)
    | some found =>
      obtain ⟨location, name⟩ := found
      dsimp only
      split
      · next hadmitted =>
        obtain ⟨locIt, htry⟩ := tryBuild_admitted
          ⟨hstatus, hcwd, hpath, hsearch, hadmitted.1, hadmitted.2⟩
        have hholds := holds_admitted conf cwd path location name req.method locIt
        exact (hholds.deliver rfl rfl hpath rfl rfl).build htry
      · next hnot =>
        obtain ⟨msg, locIt, htry⟩ := tryBuild_forbidden hstatus hcwd hpath hsearch hnot
        exact build_failed htry rfl
          ((holds_admitted conf cwd path location name req.method locIt).shows 403)

end

/-- `build` returns the response of the outcome. -/
theorem build_eq (os : Os) (conf : ConfigDTO) (req : HttpRequestDTO) :
    ((build os req).run (new conf)).1 = (outcome os conf req).answer os conf req := by
  rw [outcome]
  cases hcwd : os.getcwd with
  | none =>
    exact build_failed (tryBuild_noCwd hcwd req (new conf)) rfl
      ⟨rfl, rfl, rfl, rfl, rfl, rfl, rfl, rfl⟩
  | some cwd =>
    dsimp only
    cases hpath : Path.ofPathquery req.path with
    | error e =>
      have hslash : ¬ Path.HasSlash req.path := by
        intro hslash
        obtain ⟨path, hok⟩ := Path.ofPathquery_of_hasSlash hslash
        rw [hpath] at hok
        cases hok
      exact build_failed (tryBuild_noSlash hcwd hslash (new conf)) rfl
        ⟨rfl, rfl, rfl, rfl, rfl, rfl, rfl, rfl⟩
    | ok path => exact build_pathOutcome hcwd hpath

end HttpResponseBuilder

end Webserv
