import Webserv.Response.Access

/-!
# `ContentLength()`

`buildHeader` prints the size of the body, `buildErrorHeader` stores it as one `char`.  So the
length is right exactly when the request is delivered, which is a condition on the request, the
configuration and the system.
-/

namespace Webserv

open Text

namespace HttpResponseBuilder

/-- The length in the header is that of the body. -/
def Sized (b : HttpResponseBuilder) : Prop :=
  b.header.contentLength = utility.toString b.resBodyStr.length

/-- The system lets `deliver` come to its end: the file has a modification time, and its content
or the output of its script can be read. -/
def Deliverable (os : Os) (filepath : Str) (isFileCgi isDelete : Bool) : Prop :=
  os.stat (cStr filepath) ≠ none ∧
    if isFileCgi then
      ∃ data, os.cgi.read CGI.BUF_SIZE = some data ∧ CGIParser.AcceptsLines (getlines (cStr data))
    else if isDelete then True
    else os.ifstream (cStr filepath) ≠ none

theorem buildLastModified_none {os : Os} {b : HttpResponseBuilder}
    (h : os.stat (cStr b.filepathPath) = none) :
    (buildLastModified os).run b = (.error (.std (.response 500 "stat")), b) := by
  rw [buildLastModified, Method.run_get_bind, h]
  rfl

theorem buildLastModified_some {os : Os} {b : HttpResponseBuilder} {modTime : Str}
    (h : os.stat (cStr b.filepathPath) = some modTime) :
    (buildLastModified os).run b = (.ok (modTime.dropLast ++ lit " GMT"), b) := by
  rw [buildLastModified, Method.run_get_bind, h]
  rfl

/-- The builder with the header of a served request, up to its modification time. -/
def withHeader (os : Os) (req : HttpRequestDTO) (b : HttpResponseBuilder) : HttpResponseBuilder :=
  { b with
    header :=
      { b.header with
        version := req.version
        statusCode := HttpStatus.ok
        reasonPhrase := lit "OK"
        date := buildDate os
        server := b.conf.server
        contentType := getContentTypeByExtension b.pathFile
        contentLength := utility.toString b.resBodyStr.length } }

theorem buildHeader_noStat {os : Os} {b : HttpResponseBuilder}
    (h : os.stat (cStr b.filepathPath) = none) (req : HttpRequestDTO) :
    (buildHeader os req).run b = (.error (.std (.response 500 "stat")), withHeader os req b) := by
  rw [buildHeader, Method.run_modify_bind]
  exact Method.run_bind_error (buildLastModified_none (b := withHeader os req b) h) _

theorem buildHeader_stat {os : Os} {b : HttpResponseBuilder} {modTime : Str}
    (h : os.stat (cStr b.filepathPath) = some modTime) (req : HttpRequestDTO) :
    ∃ b', (buildHeader os req).run b = (.ok (), b') ∧ Sized b' ∧
      b'.resBodyStr = b.resBodyStr ∧ b'.header.statusCode = HttpStatus.ok := by
  rw [buildHeader, Method.run_modify_bind]
  have hlast := buildLastModified_some (b := withHeader os req b) h
  exact ⟨_, Method.run_bind_ok hlast _, rfl, rfl, rfl⟩

theorem buildHeader_cases (os : Os) (req : HttpRequestDTO) (b : HttpResponseBuilder) :
    (os.stat (cStr b.filepathPath) ≠ none ∧
        ∃ b', (buildHeader os req).run b = (.ok (), b') ∧ Sized b') ∨
      (os.stat (cStr b.filepathPath) = none ∧
        ∃ e b', (buildHeader os req).run b = (.error (.std e), b')) := by
  cases h : os.stat (cStr b.filepathPath) with
  | none => exact Or.inr ⟨rfl, _, _, buildHeader_noStat h req⟩
  | some modTime =>
    obtain ⟨b', hrun, hsized, -, -⟩ := buildHeader_stat h req
    exact Or.inl ⟨by simp, b', hrun, hsized⟩

/-- How a run that delivers may end. -/
inductive Delivery (deliverable : Prop) : Except Raised Unit × HttpResponseBuilder → Prop
  | fatal {r : Except Raised Unit × HttpResponseBuilder} : Fatal r → Delivery deliverable r
  | done (b : HttpResponseBuilder) : deliverable → Sized b → Delivery deliverable (.ok (), b)
  | failed (e : Exn) (b : HttpResponseBuilder) : ¬ deliverable →
    Delivery deliverable (.error (.std e), b)

theorem buildHeader_delivery {os : Os} {req : HttpRequestDTO} {b : HttpResponseBuilder}
    {deliverable : Prop} (h : deliverable ↔ os.stat (cStr b.filepathPath) ≠ none) :
    Delivery deliverable ((buildHeader os req).run b) := by
  rcases buildHeader_cases os req b with ⟨hstat, b', hrun, hsized⟩ | ⟨hstat, e, b', hrun⟩
  · rw [hrun]
    exact .done b' (h.mpr hstat) hsized
  · rw [hrun]
    exact .failed e b' fun hd => h.mp hd hstat

/-- The part of `doCGI` in front of `buildHeader`. -/
def writeCGI (os : Os) (req : HttpRequestDTO) : BuilderM Unit := do
  let path ← Path.ofPathquery req.path
  let b ← get
  Method.zoom (·.cgi) (fun cgi b => { b with cgi := cgi }) (CGI.run os.cgi req b.conf path)
  let b ← get
  Method.zoom (·.cgiParser) (fun parser b => { b with cgiParser := parser })
    (CGIParser.parse b.cgi.cgiResponse)
  modify fun b => { b with resBodyStr := b.resBodyStr ++ b.cgiParser.resBodyStr }

theorem doCGI_eq (os : Os) (req : HttpRequestDTO) :
    doCGI os req =
      writeCGI os req >>= fun _ => buildHeader os req >>= fun _ => updateHeader := by
  simp only [doCGI, writeCGI, Method.bind_assoc]

/-- How the part of `doCGI` in front of the header ends.  The output is parsed before it is put
into the body. -/
inductive Written (calls : CgiCalls) (b : HttpResponseBuilder) :
    Except Raised Unit × HttpResponseBuilder → Prop
  | fatal {r : Except Raised Unit × HttpResponseBuilder} : Fatal r → Written calls b r
  | rejected {data : Str} (e : Exn) (cgi : CGI) (parser : CGIParser)
    (hread : calls.read CGI.BUF_SIZE = some data)
    (hrejects : ¬ CGIParser.AcceptsLines (getlines (cStr data))) :
    Written calls b (.error (.std e), { b with cgi := cgi, cgiParser := parser })
  | done {data : Str} (cgi : CGI) (parser : CGIParser)
    (hread : calls.read CGI.BUF_SIZE = some data)
    (haccepts : CGIParser.AcceptsLines (getlines (cStr data))) :
    Written calls b (.ok (), { b with
      cgi := cgi
      cgiParser := parser
      resBodyStr :=
        b.resBodyStr ++ (b.cgiParser.resBodyStr ++ CGIParser.bodyStr (cStr data)) })

theorem writeCGI_written (os : Os) {req : HttpRequestDTO} {path : Path}
    (hpath : Path.ofPathquery req.path = .ok path) (b : HttpResponseBuilder) :
    Written os.cgi b ((writeCGI os req).run b) := by
  rw [writeCGI, Method.run_bind_ok (run_lift_exn_ok hpath b), Method.run_get_bind]
  rcases CGI.run_cases os.cgi req b.conf (Path.rawPath_ne_nil hpath) b.cgi with
    hfatal | ⟨data, cgi, hread, hrun, hresponse⟩
  · exact .fatal ((Fatal.zoom hfatal).bind _)
  have hcgi : (Method.zoom (·.cgi) (fun cgi b => { b with cgi := cgi })
      (CGI.run os.cgi req b.conf path) : BuilderM Unit).run b =
        (.ok (), { b with cgi := cgi }) := by
    rw [Method.run_zoom, hrun]
  rw [Method.run_bind_ok hcgi, Method.run_get_bind, hresponse]
  rcases CGIParser.parse_cases (cStr data) b.cgiParser with
    ⟨haccepts, parser, hparse, hbody⟩ | ⟨hrejects, e, parser, hparse⟩
  · have hparser : (Method.zoom (·.cgiParser) (fun parser b => { b with cgiParser := parser })
        (CGIParser.parse (cStr data)) : BuilderM Unit).run { b with cgi := cgi } =
          (.ok (), { b with cgi := cgi, cgiParser := parser }) := by
      rw [Method.run_zoom, hparse]
    rw [Method.run_bind_ok hparser, Method.run_modify, hbody]
    exact .done cgi parser hread haccepts
  · have hparser : (Method.zoom (·.cgiParser) (fun parser b => { b with cgiParser := parser })
        (CGIParser.parse (cStr data)) : BuilderM Unit).run { b with cgi := cgi } =
          (.error (.std e), { b with cgi := cgi, cgiParser := parser }) := by
      rw [Method.run_zoom, hparse]
    rw [Method.run_bind_error hparser]
    exact .rejected e cgi parser hread hrejects

/-- The script is run and its output parsed before the header is built. -/
theorem doCGI_delivery (os : Os) {req : HttpRequestDTO} {path : Path}
    (hpath : Path.ofPathquery req.path = .ok path) (b : HttpResponseBuilder) (isDelete : Bool) :
    Delivery (Deliverable os b.filepathPath true isDelete) ((doCGI os req).run b) := by
  rw [doCGI_eq]
  have hwritten := writeCGI_written os hpath b
  generalize hrun : (writeCGI os req).run b = r at hwritten
  cases hwritten with
  | fatal hfatal =>
    rw [← hrun] at hfatal
    exact .fatal (hfatal.bind _)
  | @rejected data e cgi parser hread hrejects =>
    rw [Method.run_bind_error hrun]
    refine .failed e _ fun hd => ?_
    obtain ⟨-, data', hread', haccepts⟩ := hd
    rw [hread] at hread'
    exact hrejects (Option.some.inj hread' ▸ haccepts)
  | @done data cgi parser hread haccepts =>
    rw [Method.run_bind_ok hrun]
    generalize hb : ({ b with
      cgi := cgi
      cgiParser := parser
      resBodyStr :=
        b.resBodyStr ++ (b.cgiParser.resBodyStr ++ CGIParser.bodyStr (cStr data)) } :
      HttpResponseBuilder) = b₁
    have hfile : b₁.filepathPath = b.filepathPath := by rw [← hb]
    rcases buildHeader_cases os req b₁ with ⟨hstat, b₂, hrun, hsized⟩ | ⟨hstat, e, b₂, hrun⟩
    · rw [Method.run_bind_ok hrun]
      exact .done _ ⟨hfile ▸ hstat, data, hread, haccepts⟩ hsized
    · rw [Method.run_bind_error hrun]
      exact .failed e b₂ fun hd => hd.1 (hfile ▸ hstat)

theorem deliver_delivery (os : Os) {req : HttpRequestDTO} {path : Path}
    (hpath : Path.ofPathquery req.path = .ok path) (b : HttpResponseBuilder) :
    Delivery (Deliverable os b.filepathPath b.isFileCgi b.isDelete) ((deliver os req).run b) := by
  rw [deliver, Method.run_get_bind, Method.run_ite, Method.run_ite]
  split
  · next hcgi =>
    rw [hcgi]
    exact doCGI_delivery os hpath b b.isDelete
  · next hcgi =>
    rw [Bool.eq_false_iff.mpr hcgi]
    split
    · next hdelete =>
      rw [hdelete, deleteFile, Method.run_pure_bind]
      exact buildHeader_delivery (and_iff_left trivial)
    · next hdelete =>
      rw [Bool.eq_false_iff.mpr hdelete]
      cases hread : os.ifstream (cStr b.filepathPath) with
      | none =>
        rw [Method.run_bind_error (readFile_error hread b)]
        exact .failed _ _ fun hd => hd.2 hread
      | some content =>
        rw [Method.run_bind_ok (readFile_ok hread b)]
        refine buildHeader_delivery (and_iff_left ?_)
        rw [if_neg (by decide), if_neg (by decide), hread]
        simp

/-! ## The response -/

/-- The request is served: it is admitted, and nothing fails afterwards. -/
def Delivers (os : Os) (conf : ConfigDTO) (req : HttpRequestDTO) : Prop :=
  ∃ cwd path location name, Admits os conf req cwd path location name ∧
    Deliverable os (locationDir cwd (serverRoot cwd conf) location ++ name)
      (isCGI location name) (req.method ∈ location.allowedMethods ∧ req.method = lit "DELETE")

/-- One `char` is never the decimal representation of its code. -/
theorem IsErrorResponse.contentLength_ne {httpStatus : Int} {r : HttpResponse}
    (h : IsErrorResponse httpStatus r) : r.contentLength ≠ decimal r.body.length := by
  intro heq
  rw [h.contentLength] at heq
  obtain ⟨hlt, hbyte⟩ := decimal_eq_singleton heq.symm
  generalize r.body.length = n at hlt hbyte
  interval_cases n <;> exact absurd hbyte (by decide)

/-- A request that is not admitted is answered with an error response. -/
theorem build_not_admitted {os : Os} {conf : ConfigDTO} {req : HttpRequestDTO}
    (h : ¬ ∃ cwd path location name, Admits os conf req cwd path location name) :
    ∃ httpStatus, Answers httpStatus (new conf) ((build os req).run (new conf)) := by
  cases hcwd : os.getcwd with
  | none => exact ⟨500, build_noCwd hcwd req _⟩
  | some cwd =>
    by_cases hslash : Path.HasSlash req.path
    · by_cases hstatus : req.responseStatusCode = HttpStatus.ok
      · obtain ⟨path, hpath⟩ := Path.ofPathquery_of_hasSlash hslash
        cases hsearch : search os cwd (serverRoot cwd conf) path.pathDir path.pathFile
            conf.locations with
        | none => exact ⟨404, build_notFound hstatus hcwd hpath hsearch⟩
        | some p =>
          obtain ⟨location, name⟩ := p
          refine ⟨403, build_forbidden hstatus hcwd hpath hsearch fun hpermitted => h ?_⟩
          exact ⟨cwd, path, location, name, hstatus, hcwd, hpath, hsearch, hpermitted.1,
            hpermitted.2⟩
      · exact ⟨_, build_failed_request hcwd hslash hstatus _⟩
    · exact ⟨500, build_noSlash hcwd hslash _⟩

/-- The data of an admitted request are determined. -/
theorem Admits.unique {os : Os} {conf : ConfigDTO} {req : HttpRequestDTO} {cwd cwd' : Str}
    {path path' : Path} {location location' : LocationConfig} {name name' : Str}
    (h : Admits os conf req cwd path location name)
    (h' : Admits os conf req cwd' path' location' name') :
    cwd' = cwd ∧ path' = path ∧ location' = location ∧ name' = name := by
  obtain rfl := Option.some.inj (h'.getcwd.symm.trans h.getcwd)
  obtain rfl := Except.ok.inj (h'.parsed.symm.trans h.parsed)
  obtain ⟨rfl, rfl⟩ := Prod.mk.inj (Option.some.inj (h'.search.symm.trans h.search))
  exact ⟨rfl, rfl, rfl, rfl⟩

/-- The length in the header of a response is the size of its body if and only if the request
is served. -/
theorem contentLength_eq_iff (os : Os) (conf : ConfigDTO) (req : HttpRequestDTO)
    (response : HttpResponse)
    (h : ((build os req).run (new conf)).1 = .ok response) :
    response.contentLength = decimal response.body.length ↔ Delivers os conf req := by
  have herror : ∀ {httpStatus b}, Answers httpStatus b ((build os req).run (new conf)) →
      response.contentLength ≠ decimal response.body.length := by
    intro httpStatus b hanswers
    obtain ⟨response', b', hrun, herr, -⟩ := hanswers
    rw [hrun] at h
    exact Except.ok.inj h ▸ herr.contentLength_ne
  by_cases hadmits : ∃ cwd path location name, Admits os conf req cwd path location name
  · obtain ⟨cwd, path, location, name, hadmits⟩ := hadmits
    obtain ⟨locIt, htry⟩ := tryBuild_admitted hadmits
    have hiff : Delivers os conf req ↔
        Deliverable os (locationDir cwd (serverRoot cwd conf) location ++ name)
          (isCGI location name)
          (req.method ∈ location.allowedMethods ∧ req.method = lit "DELETE") := by
      constructor
      · intro hdelivers
        obtain ⟨_, _, _, _, hadmits', hd⟩ := hdelivers
        obtain ⟨rfl, rfl, rfl, rfl⟩ := hadmits.unique hadmits'
        exact hd
      · intro hd
        exact ⟨cwd, path, location, name, hadmits, hd⟩
    rw [hiff]
    let b := admitted (searched conf cwd path location name locIt) req.method
    have hdelivery : Delivery (Deliverable os
        (locationDir cwd (serverRoot cwd conf) location ++ name) (isCGI location name)
          (req.method ∈ location.allowedMethods ∧ req.method = lit "DELETE"))
        ((deliver os req).run b) := deliver_delivery os hadmits.parsed b
    generalize hrun : (deliver os req).run b = r at hdelivery
    cases hdelivery with
    | fatal hfatal =>
      exact absurd h ((build_of_fatal_deliver htry (hrun ▸ hfatal)).fst_ne_ok _)
    | done b' hd hsized =>
      rw [Method.run_bind_ok hrun] at htry
      rw [build_of_ok htry] at h
      rw [← Except.ok.inj h]
      exact iff_of_true hsized hd
    | failed e b' hnot =>
      rw [Method.run_bind_error hrun] at htry
      exact iff_of_false (herror (build_of_std htry)) hnot
  · obtain ⟨httpStatus, hanswers⟩ := build_not_admitted hadmits
    refine iff_of_false (herror hanswers) fun hdelivers => hadmits ?_
    obtain ⟨cwd, path, location, name, hadmits, -⟩ := hdelivers
    exact ⟨cwd, path, location, name, hadmits⟩

theorem contentLength_eq_iff_index :
    ∃ response, ((build siteOs siteReq).run (new siteConf)).1 = .ok response ∧
      (response.contentLength = decimal response.body.length ↔
        Delivers siteOs siteConf siteReq) :=
  ⟨_, rfl, contentLength_eq_iff siteOs siteConf siteReq _ rfl⟩

set_option maxRecDepth 4000 in
/-- The default page for a file that is not found. -/
theorem contentLength_notFound :
    ∃ response,
      ((build siteOs { siteReq with path := lit "/missing" }).run (new siteConf)).1 =
        .ok response ∧
      response.statusCode = lit "404" ∧
      response.contentLength ≠ decimal response.body.length :=
  ⟨_, rfl, by decide, by decide⟩

end HttpResponseBuilder

end Webserv
