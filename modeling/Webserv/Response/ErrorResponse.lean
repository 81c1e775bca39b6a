import Webserv.Response.FileLines
import Webserv.Response.Search

/-!
# Error responses

Every error response is built, whatever the builder looks like when the error occurs: a custom
page that cannot be read falls back to the default one.  Its status is the requested one and its
`content_length` is a single `char`.
-/

namespace Webserv

open Text

namespace HttpResponseBuilder

/-- The content of the requested file was read, or a script was started. -/
def Served (b : HttpResponseBuilder) : Prop :=
  (∃ path, (ReadPurpose.requestedFile, path) ∈ b.reads) ∨ b.cgi.scripts ≠ []

/-- What holds of a builder after a method that serves nothing. -/
structure SameService (b b' : HttpResponseBuilder) : Prop where
  cgi : b'.cgi = b.cgi
  reads : ∀ path, (ReadPurpose.requestedFile, path) ∈ b'.reads ↔
    (ReadPurpose.requestedFile, path) ∈ b.reads

namespace SameService

theorem refl (b : HttpResponseBuilder) : SameService b b := ⟨rfl, fun _ => Iff.rfl⟩

theorem trans {a b c : HttpResponseBuilder} (h : SameService a b) (h' : SameService b c) :
    SameService a c :=
  ⟨h'.cgi.trans h.cgi, fun path => (h'.reads path).trans (h.reads path)⟩

end SameService

/-- An error response for this status. -/
structure IsErrorResponse (httpStatus : Int) (r : HttpResponse) : Prop where
  statusCode : r.statusCode = decimalInt httpStatus
  contentLength : r.contentLength = [UInt8.ofNat r.body.length]

/-- The run of a method returns an error response and serves nothing. -/
def Answers (httpStatus : Int) (b : HttpResponseBuilder)
    (r : Except Raised HttpResponse × HttpResponseBuilder) : Prop :=
  ∃ response b', r = (.ok response, b') ∧ IsErrorResponse httpStatus response ∧ SameService b b'

theorem defaultErrorBody_ne_nil (server : Str) (httpStatus : Int) :
    defaultErrorBody server httpStatus ≠ [] := by
  intro h
  have hhtml := List.flatten_eq_nil_iff.mp h (lit "<html>") (List.mem_cons_self ..)
  exact absurd hhtml (by decide)

/-- The builder with the header of an error response for its body. -/
def withErrorHeader (os : Os) (req : HttpRequestDTO) (httpStatus : Int) (b : HttpResponseBuilder) :
    HttpResponseBuilder :=
  { b with
    header :=
      { b.header with
        version := req.version
        statusCode := decimalInt httpStatus
        reasonPhrase := getReasonPhrase (decimalInt httpStatus)
        date := buildDate os
        contentLength := [UInt8.ofNat b.resBodyStr.length]
        contentType := getContentTypeByExtension b.pathFile
        connection := lit "keep-alive" } }

theorem buildErrorHeader_run (os : Os) (req : HttpRequestDTO) (httpStatus : Int)
    {b : HttpResponseBuilder} (h : b.resBodyStr ≠ []) :
    (buildErrorHeader os req httpStatus b.resBodyStr).run b =
      (.ok (), withErrorHeader os req httpStatus b) := by
  rw [buildErrorHeader, if_neg h]
  rfl

theorem buildErrorHeader_nil (os : Os) (req : HttpRequestDTO) (httpStatus : Int)
    {b : HttpResponseBuilder} (h : b.resBodyStr = []) :
    (buildErrorHeader os req httpStatus b.resBodyStr).run b =
      (.error (.std (.runtimeError "body uncreated")), b) := by
  rw [buildErrorHeader, if_pos h]
  rfl

/-! ## The page -/

/-- The builder with the default page behind what its body holds. -/
def withDefaultPage (httpStatus : Int) (b : HttpResponseBuilder) : HttpResponseBuilder :=
  { b with resBodyStr := b.resBodyStr ++ defaultErrorBody b.conf.server httpStatus }

theorem withDefaultPage_ne_nil (httpStatus : Int) (b : HttpResponseBuilder) :
    (withDefaultPage httpStatus b).resBodyStr ≠ [] :=
  List.append_ne_nil_of_right_ne_nil _ (defaultErrorBody_ne_nil _ _)

theorem buildDefaultErrorPage_run (os : Os) (httpStatus : Int) (req : HttpRequestDTO)
    (b : HttpResponseBuilder) :
    (buildDefaultErrorPage os httpStatus req).run b =
      (.ok (withErrorHeader os req httpStatus (withDefaultPage httpStatus b)).response,
        withErrorHeader os req httpStatus (withDefaultPage httpStatus b)) := by
  have hheader := buildErrorHeader_run os req httpStatus (withDefaultPage_ne_nil httpStatus b)
  exact Method.run_bind_ok hheader _

theorem readFile_error {os : Os} {purpose : ReadPurpose} {fullpath : Str}
    (h : os.ifstream (cStr fullpath) = none) (b : HttpResponseBuilder) :
    (readFile os purpose fullpath).run b =
      (.error (.std (.response 500 "file input error")), b) := by
  rw [readFile, h]
  rfl

/-- The builder once a file is read. -/
def withFile (purpose : ReadPurpose) (fullpath content : Str) (b : HttpResponseBuilder) :
    HttpResponseBuilder :=
  { b with
    resBodyStr := b.resBodyStr ++ (getlines content).flatMap (· ++ CRLF)
    reads := b.reads ++ [(purpose, fullpath)] }

theorem readFile_ok {os : Os} {purpose : ReadPurpose} {fullpath content : Str}
    (h : os.ifstream (cStr fullpath) = some content) (b : HttpResponseBuilder) :
    (readFile os purpose fullpath).run b = (.ok (), withFile purpose fullpath content b) := by
  rw [readFile, h]
  rfl

theorem readFile_keeps {γ : Type} {view : HttpResponseBuilder → γ}
    (h : ∀ b body reads, view { b with resBodyStr := body, reads := reads } = view b) (os : Os)
    (purpose : ReadPurpose) (fullpath : Str) :
    Method.Keeps view (readFile os purpose fullpath) := by
  unfold readFile
  cases os.ifstream (cStr fullpath) with
  | none => exact .throw _
  | some content => exact .modify fun b => h b _ _

/-- The directory of the configured pages.  Below a location without a root there is none. -/
def pageRoot (b : HttpResponseBuilder) : Option Str :=
  if b.filepathExists then if b.foundLocation.root ≠ [] then some b.foundLocation.root else none
  else some b.defaultRoot

/-- The builder once the configured page is read, if it can be. -/
def withCustomPage (os : Os) (errorPage : Str) (b : HttpResponseBuilder) :
    Option HttpResponseBuilder :=
  match b.pageRoot with
  | none => some b
  | some root =>
    (os.ifstream (cStr (root ++ errorPage))).map fun content =>
      withFile .errorPage (root ++ errorPage) content b

theorem readErrorPage_run (os : Os) (root errorPage : Str) (b : HttpResponseBuilder) :
    (readFile os .errorPage (root ++ errorPage)).run b =
      match (os.ifstream (cStr (root ++ errorPage))).map fun content =>
          withFile .errorPage (root ++ errorPage) content b with
      | some b' => (.ok (), b')
      | none => (.error (.std (.response 500 "file input error")), b) := by
  cases h : os.ifstream (cStr (root ++ errorPage)) with
  | none => exact readFile_error h b
  | some content => exact readFile_ok h b

theorem readCustomPage_run (os : Os) (errorPage : Str) (b : HttpResponseBuilder) :
    (readCustomPage os errorPage).run b =
      match withCustomPage os errorPage b with
      | some b' => (.ok (), b')
      | none => (.error (.std (.response 500 "file input error")), b) := by
  rw [readCustomPage, Method.run_get_bind, withCustomPage, pageRoot]
  split
  · split
    · exact readErrorPage_run os _ errorPage b
    · rfl
  · exact readErrorPage_run os _ errorPage b

/-- The builder with the page for the status: the configured one, or the default one when that
cannot be read or leaves the body empty. -/
def withErrorPage (os : Os) (httpStatus : Int) (b : HttpResponseBuilder) : HttpResponseBuilder :=
  let errorPage := b.conf.errorPages[httpStatus]?.getD []
  if errorPage = [] then withDefaultPage httpStatus b
  else
    match withCustomPage os errorPage b with
    | none => withDefaultPage httpStatus b
    | some b' => if b'.resBodyStr = [] then withDefaultPage httpStatus b' else b'

/-- An error response is always built. -/
theorem buildErrorResponse_run (os : Os) (httpStatus : Int) (req : HttpRequestDTO)
    (b : HttpResponseBuilder) :
    (buildErrorResponse os httpStatus req).run b =
      (.ok (withErrorHeader os req httpStatus (withErrorPage os httpStatus b)).response,
        withErrorHeader os req httpStatus (withErrorPage os httpStatus b)) := by
  rw [buildErrorResponse, Method.run_get_bind, withErrorPage]
  dsimp only
  split
  · exact buildDefaultErrorPage_run os httpStatus req b
  · have hread := readCustomPage_run os (b.conf.errorPages[httpStatus]?.getD []) b
    rw [Method.run_tryCatch, customErrorPage]
    cases hpage : withCustomPage os (b.conf.errorPages[httpStatus]?.getD []) b with
    | none =>
      rw [hpage] at hread
      rw [Method.run_bind_error hread]
      exact buildDefaultErrorPage_run os httpStatus req b
    | some b' =>
      rw [hpage] at hread
      rw [Method.run_bind_ok hread, Method.run_get_bind]
      by_cases hbody : b'.resBodyStr = []
      · rw [Method.run_bind_error (buildErrorHeader_nil os req httpStatus hbody)]
        dsimp only
        rw [if_pos hbody]
        exact buildDefaultErrorPage_run os httpStatus req b'
      · rw [Method.run_bind_ok (buildErrorHeader_run os req httpStatus hbody)]
        dsimp only
        rw [if_neg hbody]
        rfl

/-- Reading a page changes the body and adds to what was read for error pages. -/
inductive PageChange (b : HttpResponseBuilder) : HttpResponseBuilder → Prop
  | mk (body : Str) (reads : List (ReadPurpose × Str))
    (hreads : ∀ path, (ReadPurpose.requestedFile, path) ∈ reads ↔
      (ReadPurpose.requestedFile, path) ∈ b.reads) :
    PageChange b { b with resBodyStr := body, reads := reads }

theorem PageChange.withDefaultPage {b b' : HttpResponseBuilder} (h : PageChange b b')
    (httpStatus : Int) : PageChange b (withDefaultPage httpStatus b') := by
  obtain ⟨body, reads, hreads⟩ := h
  exact .mk _ reads hreads

theorem withCustomPage_change {os : Os} {errorPage : Str} {b b' : HttpResponseBuilder}
    (h : withCustomPage os errorPage b = some b') : PageChange b b' := by
  unfold withCustomPage at h
  split at h
  · obtain rfl := Option.some.inj h
    exact .mk b.resBodyStr b.reads fun _ => Iff.rfl
  · obtain ⟨content, -, rfl⟩ := Option.map_eq_some_iff.mp h
    exact .mk _ _ fun path => by simp

theorem withErrorPage_change (os : Os) (httpStatus : Int) (b : HttpResponseBuilder) :
    PageChange b (withErrorPage os httpStatus b) := by
  have hdefault : PageChange b (withDefaultPage httpStatus b) :=
    .mk _ b.reads fun _ => Iff.rfl
  unfold withErrorPage
  dsimp only
  split
  · exact hdefault
  · split
    · exact hdefault
    · next b' hpage =>
      have hcustom := withCustomPage_change hpage
      split
      · exact hcustom.withDefaultPage httpStatus
      · exact hcustom

/-- What a page does not touch. -/
theorem withErrorPage_keeps {γ : Type} (view : HttpResponseBuilder → γ)
    (h : ∀ b body reads, view { b with resBodyStr := body, reads := reads } = view b) (os : Os)
    (httpStatus : Int) (b : HttpResponseBuilder) :
    view (withErrorPage os httpStatus b) = view b := by
  have hchange := withErrorPage_change os httpStatus b
  generalize withErrorPage os httpStatus b = b' at hchange ⊢
  obtain ⟨body, reads, -⟩ := hchange
  exact h b body reads

theorem withErrorPage_sameService (os : Os) (httpStatus : Int) (b : HttpResponseBuilder) :
    SameService b (withErrorPage os httpStatus b) := by
  have hchange := withErrorPage_change os httpStatus b
  generalize withErrorPage os httpStatus b = b' at hchange ⊢
  obtain ⟨body, reads, hreads⟩ := hchange
  exact ⟨rfl, hreads⟩

/-! ## The page of a request -/

/-- The root of the configured pages of a location.  There are none for a location without a
root. -/
def locationPageRoot (location : LocationConfig) : Option Str :=
  if location.root ≠ [] then some location.root else none

/-- The file of the configured page for a status, below this root. -/
def errorPageFile (conf : ConfigDTO) (httpStatus : Int) (root : Option Str) : Option Str :=
  let errorPage := conf.errorPages[httpStatus]?.getD []
  if errorPage = [] then none else root.map (· ++ errorPage)

/-- The lines of this file, or the built-in page when it cannot be read or is empty. -/
def errorBody (os : Os) (conf : ConfigDTO) (httpStatus : Int) (file : Option Str) : Str :=
  match file.bind fun file => os.ifstream (cStr file) with
  | none => defaultErrorBody conf.server httpStatus
  | some content =>
    if content = [] then defaultErrorBody conf.server httpStatus
    else (getlines content).flatMap (· ++ CRLF)

/-- Behind an empty body there is nothing but the page. -/
theorem withErrorPage_body (os : Os) (httpStatus : Int) {b : HttpResponseBuilder}
    (hbody : b.resBodyStr = []) :
    (withErrorPage os httpStatus b).resBodyStr =
      errorBody os b.conf httpStatus (errorPageFile b.conf httpStatus b.pageRoot) := by
  have hdefault {b' : HttpResponseBuilder} (hconf : b'.conf = b.conf) (hnil : b'.resBodyStr = []) :
      (withDefaultPage httpStatus b').resBodyStr = defaultErrorBody b.conf.server httpStatus := by
    rw [withDefaultPage, hnil, hconf, List.nil_append]
  rw [withErrorPage, errorPageFile]
  split
  · exact hdefault rfl hbody
  · rw [withCustomPage]
    cases b.pageRoot with
    | none => exact (congrArg resBodyStr (if_pos hbody)).trans (hdefault rfl hbody)
    | some root =>
      rw [Option.map_some, errorBody, Option.bind_some]
      dsimp only
      cases os.ifstream (cStr (root ++ b.conf.errorPages[httpStatus]?.getD [])) with
      | none => exact hdefault rfl hbody
      | some content =>
        dsimp only [Option.map_some]
        have hlines : (withFile .errorPage (root ++ b.conf.errorPages[httpStatus]?.getD [])
            content b).resBodyStr = (getlines content).flatMap (· ++ CRLF) := by
          rw [withFile, hbody, List.nil_append]
        by_cases hcontent : content = []
        · have hnil : (withFile .errorPage (root ++ b.conf.errorPages[httpStatus]?.getD [])
              content b).resBodyStr = [] := by
            rw [hlines, hcontent]
            rfl
          rw [if_pos hcontent, if_pos hnil]
          exact hdefault rfl hnil
        · rw [if_neg hcontent, if_neg (hlines ▸ lines_ne_nil hcontent), hlines]

theorem buildErrorResponse_answers (os : Os) (httpStatus : Int) (req : HttpRequestDTO)
    (b : HttpResponseBuilder) :
    Answers httpStatus b ((buildErrorResponse os httpStatus req).run b) := by
  rw [buildErrorResponse_run]
  obtain ⟨hcgi, hreads⟩ := withErrorPage_sameService os httpStatus b
  exact ⟨_, _, rfl, ⟨rfl, rfl⟩, ⟨hcgi, hreads⟩⟩

/-! ## `build` -/

theorem setDefaultRoot_run {os : Os} {cwd : Str} (h : os.getcwd = some cwd)
    (b : HttpResponseBuilder) :
    (setDefaultRoot os).run b = (.ok (), { b with defaultRoot := serverRoot cwd b.conf }) := by
  rw [setDefaultRoot, Method.run_bind_ok (getCurrentPath_run h b)]
  rfl

theorem setDefaultRoot_error {os : Os} (h : os.getcwd = none) (b : HttpResponseBuilder) :
    (setDefaultRoot os).run b = (.error (.std (.response 500 "getcwd")), b) := by
  have hcwd : (getCurrentPath os).run b = (.error (.std (.response 500 "getcwd")), b) := by
    rw [getCurrentPath, h]
    rfl
  rw [setDefaultRoot, Method.run_bind_error hcwd]

/-- The status with which the `catch` clauses of `build` answer. -/
def caughtStatus : Exn → Int
  | .response httpStatus _ => httpStatus
  | _ => 500

theorem build_of_thrown {os : Os} {req : HttpRequestDTO} {b b' : HttpResponseBuilder} {e : Exn}
    (h : (tryBuild os req).run b = (.error (.std e), b')) :
    (build os req).run b = (buildErrorResponse os (caughtStatus e) req).run b' := by
  rw [build, Method.run_tryCatch, h]
  cases e <;> rfl

/-- What `tryBuild` throws as a `std::exception` is answered. -/
theorem build_of_std {os : Os} {req : HttpRequestDTO} {b b' : HttpResponseBuilder} {e : Exn}
    (h : (tryBuild os req).run b = (.error (.std e), b')) :
    Answers (caughtStatus e) b' ((build os req).run b) := by
  rw [build_of_thrown h]
  exact buildErrorResponse_answers os _ req b'

theorem build_of_ok {os : Os} {req : HttpRequestDTO} {b b' : HttpResponseBuilder}
    {response : HttpResponse} (h : (tryBuild os req).run b = (.ok response, b')) :
    (build os req).run b = (.ok response, b') := by
  rw [build, Method.run_tryCatch, h]

theorem tryBuild_noCwd {os : Os} (h : os.getcwd = none) (req : HttpRequestDTO)
    (b : HttpResponseBuilder) :
    (tryBuild os req).run b = (.error (.std (.response 500 "getcwd")), b) := by
  rw [tryBuild, Method.run_bind_error (setDefaultRoot_error h b)]

theorem build_noCwd {os : Os} (h : os.getcwd = none) (req : HttpRequestDTO)
    (b : HttpResponseBuilder) : Answers 500 b ((build os req).run b) :=
  build_of_std (tryBuild_noCwd h req b)

/-- The state of the builder behind `setDefaultRoot`. -/
def rooted (b : HttpResponseBuilder) (cwd : Str) : HttpResponseBuilder :=
  { b with defaultRoot := serverRoot cwd b.conf }

/-- The state of the builder behind `parseRequestPath`. -/
def located (b : HttpResponseBuilder) (cwd : Str) (path : Path) : HttpResponseBuilder :=
  { rooted b cwd with pathDir := path.pathDir, pathFile := path.pathFile }

theorem SameService.located (b : HttpResponseBuilder) (cwd : Str) (path : Path) :
    SameService b (b.located cwd path) := ⟨rfl, fun _ => Iff.rfl⟩

theorem tryBuild_noSlash {os : Os} {cwd : Str} (hcwd : os.getcwd = some cwd)
    {req : HttpRequestDTO} (h : ¬ Path.HasSlash req.path) (b : HttpResponseBuilder) :
    (tryBuild os req).run b =
      (.error (.std (.runtimeError "no slash found in request path")), rooted b cwd) := by
  have hpath : (liftM (Path.ofPathquery req.path) : BuilderM Path).run (rooted b cwd) =
      (.error (.std (.runtimeError "no slash found in request path")), rooted b cwd) := by
    rw [run_lift_exn, Path.ofPathquery_of_not_hasSlash h]
    rfl
  rw [tryBuild, Method.run_bind_ok (setDefaultRoot_run hcwd b)]
  exact Method.run_bind_error hpath _

theorem build_noSlash {os : Os} {cwd : Str} (hcwd : os.getcwd = some cwd) {req : HttpRequestDTO}
    (h : ¬ Path.HasSlash req.path) (b : HttpResponseBuilder) :
    Answers 500 b ((build os req).run b) := by
  obtain ⟨response, b', hb', hresponse, hsame⟩ := build_of_std (tryBuild_noSlash hcwd h b)
  exact ⟨response, b', hb', hresponse, ⟨hsame.cgi, hsame.reads⟩⟩

/-- Once the path is known, the status of the request decides what is built. -/
theorem tryBuild_located {os : Os} {cwd : Str} (hcwd : os.getcwd = some cwd)
    {req : HttpRequestDTO} {path : Path} (hpath : Path.ofPathquery req.path = .ok path)
    (b : HttpResponseBuilder) :
    (tryBuild os req).run b =
      (if req.responseStatusCode ≠ HttpStatus.ok then
          buildErrorResponse os (utility.toInt req.responseStatusCode) req
        else serveFile os req >>= fun _ => get >>= fun b => pure b.response).run
        (located b cwd path) := by
  rw [tryBuild, Method.run_bind_ok (setDefaultRoot_run hcwd b)]
  exact Method.run_bind_ok (run_lift_exn_ok hpath _) _

/-- A request that failed is answered with an error response. -/
theorem build_failed_request {os : Os} {cwd : Str} (hcwd : os.getcwd = some cwd)
    {req : HttpRequestDTO} (hslash : Path.HasSlash req.path)
    (hstatus : req.responseStatusCode ≠ HttpStatus.ok) (b : HttpResponseBuilder) :
    Answers (utility.toInt req.responseStatusCode) b ((build os req).run b) := by
  obtain ⟨path, hpath⟩ := Path.ofPathquery_of_hasSlash hslash
  obtain ⟨response, b', hrun, hresponse, hsame⟩ := buildErrorResponse_answers os
    (utility.toInt req.responseStatusCode) req (located b cwd path)
  refine ⟨response, b', build_of_ok ?_, hresponse, (SameService.located b cwd path).trans hsame⟩
  rw [tryBuild_located hcwd hpath, if_pos hstatus, hrun]

end HttpResponseBuilder

end Webserv
