import Webserv.Response.TimedSearch

/-!
# The body of an error response

Every page is appended to what the body holds already.  There is something in it when a file was
read or a script was run, and the only call that may fail after that is `stat`.
-/

namespace Webserv

open Text

namespace HttpResponseBuilder

/-- What the body holds stays in front of the page. -/
theorem withErrorPage_extends (os : Os) (httpStatus : Int) (b : HttpResponseBuilder) :
    b.resBodyStr <+: (withErrorPage os httpStatus b).resBodyStr := by
  have hdefault (b' : HttpResponseBuilder) :
      b'.resBodyStr <+: (withDefaultPage httpStatus b').resBodyStr := List.prefix_append _ _
  unfold withErrorPage
  dsimp only
  split
  · exact hdefault b
  · split
    · exact hdefault b
    · next b' hcustom =>
      have hcustom' : b.resBodyStr <+: b'.resBodyStr := by
        unfold withCustomPage at hcustom
        split at hcustom
        · obtain rfl := Option.some.inj hcustom
          exact List.prefix_rfl
        · obtain ⟨content, -, rfl⟩ := Option.map_eq_some_iff.mp hcustom
          exact List.prefix_append _ _
      split
      · exact hcustom'.trans (hdefault b')
      · exact hcustom'

/-! ## The file and the error pages of a request -/

namespace Timed

open Method (call still)

section

variable (os : Nat → Os) (conf : ConfigDTO) (req : HttpRequestDTO)

/-- The root of the configured error pages: that of the location in which a file is found, as it
is configured, and that of the server when none is found. -/
def errorRoot : Option Str :=
  match (os 0).getcwd with
  | none => some []
  | some cwd =>
    match findFor os conf req with
    | none => some (serverRoot cwd conf)
    | some f => locationPageRoot f.location

/-- The file that is found may be delivered. -/
structure Admits (f : Find) : Prop where
  found : findFor os conf req = some f
  allowed : allowed f.location f.name req.method
  readable : (os f.calls).access (cStr f.file) = true

/-- A file or a script has something for the body. -/
def Writes (os : Os) (isScript isDelete : Bool) (file : Str) : Prop :=
  if isScript then
    ∃ data, os.cgi.read CGI.BUF_SIZE = some data ∧
      CGIParser.AcceptsLines (getlines (cStr data)) ∧ CGIParser.bodyStr (cStr data) ≠ []
  else
    ¬ isDelete ∧ ∃ content, os.ifstream (cStr file) = some content ∧ content ≠ []

/-- Behind a file or a script that has something for the body, `stat` finds the file. -/
def StatsWritten : Prop :=
  ∀ f, Admits os conf req f →
    Writes (os (f.calls + 1)) f.isScript (f.isDelete req.method) f.file →
    (os (f.calls + 2)).stat (cStr f.file) ≠ none

end

/-! ## The failing `stat` -/

/-- The same configuration, the same file and the same error pages. -/
structure SameSite (b b' : HttpResponseBuilder) : Prop where
  conf_eq : b'.conf = b.conf
  file : b'.filepathPath = b.filepathPath
  root : b'.pageRoot = b.pageRoot

section

variable (os : Nat → Os) (s : HttpResponseBuilder × Nat)

/-- What is delivered from this state has something for the body. -/
def WritesNext : Prop := Writes (os s.2) s.1.isFileCgi s.1.isDelete s.1.filepathPath

/-- `stat` then finds the file. -/
def StatFollows : Prop := WritesNext os s → (os (s.2 + 1)).stat (cStr s.1.filepathPath) ≠ none

/-- How a delivery that began with an empty body ends. -/
inductive Delivered : Except Raised Unit × (HttpResponseBuilder × Nat) → Prop
  | fatal {r : Except Raised Unit × (HttpResponseBuilder × Nat)} : Fatal r → Delivered r
  | served (s' : HttpResponseBuilder × Nat) (hstatus : s'.1.header.statusCode = HttpStatus.ok)
    (hstat : StatFollows os s) : Delivered (.ok (), s')
  | failed (e : Exn) (s' : HttpResponseBuilder × Nat) (hsite : SameSite s.1 s'.1)
    (hbody : s'.1.resBodyStr = []) (hstat : StatFollows os s) : Delivered (.error (.std e), s')
  | left (s' : HttpResponseBuilder × Nat) (hbody : s'.1.resBodyStr ≠ [])
    (hstat : ¬ StatFollows os s) : Delivered (.error (.std (.response 500 "stat")), s')

end

section

variable {os : Nat → Os} {req : HttpRequestDTO} {s : HttpResponseBuilder × Nat}

theorem header_delivered {b : HttpResponseBuilder} {n : Nat} (hsite : SameSite s.1 b)
    (hwrites : b.resBodyStr ≠ [] ↔ WritesNext os s) (hn : WritesNext os s → n = s.2 + 1) :
    Delivered os s ((call os fun os => buildHeader os req).run (b, n)) := by
  rw [Method.run_call]
  cases hstat : (os n).stat (cStr b.filepathPath) with
  | some modTime =>
    obtain ⟨b', hrun, -, -, hstatus⟩ := buildHeader_stat hstat req
    rw [hrun]
    refine .served _ hstatus fun hw => ?_
    rw [← hn hw, ← hsite.file, hstat]
    exact Option.some_ne_none modTime
  | none =>
    rw [buildHeader_noStat hstat]
    by_cases hbody : b.resBodyStr = []
    · have hsite' : SameSite s.1 (withHeader (os n) req b) :=
        ⟨hsite.conf_eq, hsite.file, hsite.root⟩
      exact .failed _ _ hsite' hbody fun hw => absurd hbody (hwrites.mpr hw)
    · refine .left _ hbody fun hfollows => hfollows (hwrites.mp hbody) ?_
      rw [← hn (hwrites.mp hbody), ← hsite.file, hstat]

theorem Delivered.updateHeader {x : TimedM Unit} {t : HttpResponseBuilder × Nat}
    (h : Delivered os s (x.run t)) :
    Delivered os s ((x >>= fun _ => still HttpResponseBuilder.updateHeader).run t) := by
  generalize hrun : x.run t = r at h
  cases h with
  | fatal hfatal =>
    rw [← hrun] at hfatal
    exact .fatal (hfatal.bind _)
  | served s' hstatus hstat =>
    rw [Method.run_bind_ok hrun]
    exact .served _ rfl hstat
  | failed e s' hsite hbody hstat =>
    rw [Method.run_bind_error hrun]
    exact .failed e s' hsite hbody hstat
  | left s' hbody hstat =>
    rw [Method.run_bind_error hrun]
    exact .left s' hbody hstat

theorem doCGI_delivered {path : Path} (hpath : Path.ofPathquery req.path = .ok path)
    (hcgi : s.1.isFileCgi = true) (hbody : s.1.resBodyStr = [])
    (hparser : s.1.cgiParser.resBodyStr = []) : Delivered os s ((doCGI os req).run s) := by
  have hwritten := writeCGI_written (os s.2) hpath s.1
  generalize hrun : (writeCGI (os s.2) req).run s.1 = r at hwritten
  have hcall : (call os fun os => writeCGI os req).run s = (r.1, r.2, s.2 + 1) := by
    rw [Method.run_call, hrun]
  have hwrites {data : Str} (hread : (os s.2).cgi.read CGI.BUF_SIZE = some data) :
      WritesNext os s ↔ CGIParser.AcceptsLines (getlines (cStr data)) ∧
        CGIParser.bodyStr (cStr data) ≠ [] := by
    simp [WritesNext, Writes, hcgi, hread]
  cases hwritten with
  | fatal hfatal =>
    obtain ⟨e, b, rfl, hstd⟩ := hfatal
    rw [doCGI, Method.run_bind_error hcall]
    exact .fatal ⟨e, _, rfl, hstd⟩
  | rejected e cgi parser hread hrejects =>
    rw [doCGI, Method.run_bind_error hcall]
    exact .failed e _ ⟨rfl, rfl, rfl⟩ hbody fun hw => absurd ((hwrites hread).mp hw).1 hrejects
  | done cgi parser hread haccepts =>
    rw [doCGI, Method.run_bind_ok hcall]
    refine .updateHeader (header_delivered ⟨rfl, rfl, rfl⟩ ?_ fun _ => rfl)
    dsimp only
    rw [hbody, hparser, List.nil_append, List.nil_append, hwrites hread]
    exact (and_iff_right haccepts).symm

theorem deliver_delivered {path : Path} (hpath : Path.ofPathquery req.path = .ok path)
    (hbody : s.1.resBodyStr = []) (hparser : s.1.cgiParser.resBodyStr = []) :
    Delivered os s ((deliver os req).run s) := by
  rw [deliver, Method.run_get_bind, Method.run_ite, Method.run_ite]
  split
  · next hcgi => exact doCGI_delivered hpath hcgi hbody hparser
  · next hcgi =>
    split
    · next hdelete =>
      have hnot : ¬ WritesNext os s := by simp [WritesNext, Writes, hcgi, hdelete]
      exact header_delivered ⟨rfl, rfl, rfl⟩ (iff_of_false (not_not.mpr hbody) hnot)
        fun hw => absurd hw hnot
    · next hdelete =>
      have hwrites : WritesNext os s ↔
          ∃ content, (os s.2).ifstream (cStr s.1.filepathPath) = some content ∧ content ≠ [] := by
        simp [WritesNext, Writes, hcgi, hdelete]
      have hcall : (call os fun os => readFile os .requestedFile s.1.filepathPath).run s =
          (((readFile (os s.2) .requestedFile s.1.filepathPath).run s.1).1,
            ((readFile (os s.2) .requestedFile s.1.filepathPath).run s.1).2, s.2 + 1) :=
        Method.run_call os _ s
      cases hread : (os s.2).ifstream (cStr s.1.filepathPath) with
      | none =>
        rw [readFile_error hread] at hcall
        rw [Method.run_bind_error hcall]
        refine .failed _ _ ⟨rfl, rfl, rfl⟩ hbody fun hw => ?_
        obtain ⟨content, hsome, -⟩ := hwrites.mp hw
        rw [hread] at hsome
        cases hsome
      | some content =>
        rw [readFile_ok hread] at hcall
        rw [Method.run_bind_ok hcall]
        refine header_delivered ⟨rfl, rfl, rfl⟩ ?_ fun _ => rfl
        rw [hwrites, hread]
        dsimp only [withFile]
        rw [hbody, List.nil_append]
        constructor
        · intro hlines
          refine ⟨content, rfl, fun hnil => hlines ?_⟩
          rw [hnil]
          rfl
        · rintro ⟨content', hsome, hne⟩
          exact lines_ne_nil (Option.some.inj hsome ▸ hne)

/-! ## The response -/

/-- Nothing is in the body, and the error pages are those of the request. -/
structure Unwritten (os : Nat → Os) (conf : ConfigDTO) (req : HttpRequestDTO)
    (b : HttpResponseBuilder) : Prop where
  conf_eq : b.conf = conf
  body : b.resBodyStr = []
  root : b.pageRoot = errorRoot os conf req

theorem Unwritten.of_sameSite {conf : ConfigDTO} {b b' : HttpResponseBuilder}
    (h : Unwritten os conf req b) (hsite : SameSite b b') (hbody : b'.resBodyStr = []) :
    Unwritten os conf req b' :=
  ⟨hsite.conf_eq.trans h.conf_eq, hbody, hsite.root.trans h.root⟩

theorem tryBuild_noCwd (h : (os 0).getcwd = none) (b : HttpResponseBuilder) :
    (tryBuild os req).run (b, 0) = (.error (.std (.response 500 "getcwd")), b, 1) := by
  have hroot : (call os fun os => setDefaultRoot os).run (b, 0) =
      (.error (.std (.response 500 "getcwd")), b, 1) := by
    rw [Method.run_call, setDefaultRoot_error h]
  rw [tryBuild, Method.run_bind_error hroot]

theorem setDefaultRoot_call {cwd : Str} (h : (os 0).getcwd = some cwd) (b : HttpResponseBuilder) :
    (call os fun os => setDefaultRoot os).run (b, 0) = (.ok (), rooted b cwd, 1) := by
  rw [Method.run_call, setDefaultRoot_run h]
  rfl

theorem tryBuild_noSlash {cwd : Str} (hcwd : (os 0).getcwd = some cwd)
    (h : ¬ Path.HasSlash req.path) (b : HttpResponseBuilder) :
    (tryBuild os req).run (b, 0) =
      (.error (.std (.runtimeError "no slash found in request path")), rooted b cwd, 1) := by
  rw [tryBuild, Method.run_bind_ok (setDefaultRoot_call hcwd b),
    Path.ofPathquery_of_not_hasSlash h]
  rfl

theorem tryBuild_located {cwd : Str} (hcwd : (os 0).getcwd = some cwd) {path : Path}
    (hpath : Path.ofPathquery req.path = .ok path) (b : HttpResponseBuilder) :
    (tryBuild os req).run (b, 0) =
      (if req.responseStatusCode ≠ HttpStatus.ok then
          call os fun os => buildErrorResponse os (utility.toInt req.responseStatusCode) req
        else findAllowed os req >>= fun _ => deliver os req >>= fun _ => get >>= fun s =>
          pure s.1.response).run (located b cwd path, 1) := by
  rw [tryBuild, Method.run_bind_ok (setDefaultRoot_call hcwd b), hpath]
  rfl

/-- The builder with which the delivery of a file begins. -/
def Find.admitted (f : Find) (conf : ConfigDTO) (cwd : Str) (path : Path)
    (locIt : List LocationConfig) (method : Str) : HttpResponseBuilder :=
  HttpResponseBuilder.admitted
    { found ((new conf).located cwd path) f.location f.dir f.name with locIt := locIt } method

/-- Where the request leaves the `try` block, or how it comes to the delivery. -/
inductive Begins (os : Nat → Os) (conf : ConfigDTO) (req : HttpRequestDTO) : Prop
  | thrown (e : Exn) (s : HttpResponseBuilder × Nat) (hblank : Unwritten os conf req s.1)
    (hnone : ∀ f, ¬ Admits os conf req f)
    (htry : (tryBuild os req).run (new conf, 0) = (.error (.std e), s))
  | rejected (s : HttpResponseBuilder × Nat) (hblank : Unwritten os conf req s.1)
    (hnone : ∀ f, ¬ Admits os conf req f)
    (htry : (tryBuild os req).run (new conf, 0) =
      (call os fun os => buildErrorResponse os (utility.toInt req.responseStatusCode) req).run s)
  | delivers (f : Find) (path : Path) (locIt : List LocationConfig) (cwd : Str)
    (hpath : Path.ofPathquery req.path = .ok path) (hadmits : Admits os conf req f)
    (hblank : Unwritten os conf req (f.admitted conf cwd path locIt req.method))
    (htry : (tryBuild os req).run (new conf, 0) =
      (deliver os req >>= fun _ => get >>= fun s => pure s.1.response).run
        (f.admitted conf cwd path locIt req.method, f.calls + 1))

theorem errorRoot_found {conf : ConfigDTO} {cwd : Str} (hcwd : (os 0).getcwd = some cwd) {f : Find}
    (hfind : findFor os conf req = some f) :
    errorRoot os conf req = locationPageRoot f.location := by
  rw [errorRoot, hcwd, hfind]

theorem errorRoot_missed {conf : ConfigDTO} {cwd : Str} (hcwd : (os 0).getcwd = some cwd)
    (hfind : findFor os conf req = none) :
    errorRoot os conf req = some (serverRoot cwd conf) := by
  rw [errorRoot, hcwd, hfind]

theorem not_admits_of_missed {conf : ConfigDTO} (hfind : findFor os conf req = none) (f : Find) :
    ¬ Admits os conf req f := by
  intro hadmits
  cases hfind.symm.trans hadmits.found

theorem findFor_located (conf : ConfigDTO) {cwd : Str} (hcwd : (os 0).getcwd = some cwd)
    {path : Path} (hpath : Path.ofPathquery req.path = .ok path) :
    findFor os conf req =
      if req.responseStatusCode ≠ HttpStatus.ok then none
      else search os (serverRoot cwd conf) path.pathDir path.pathFile conf.locations 1 := by
  rw [findFor, hcwd]
  dsimp only
  rw [hpath]

theorem findFor_noSlash {conf : ConfigDTO} {cwd : Str} (hcwd : (os 0).getcwd = some cwd)
    (h : ¬ Path.HasSlash req.path) : findFor os conf req = none := by
  rw [findFor, hcwd]
  dsimp only
  rw [Path.ofPathquery_of_not_hasSlash h]

/-- A request for which a file is found comes to the delivery, or is forbidden. -/
theorem begins_found {conf : ConfigDTO} {cwd : Str} (hcwd : (os 0).getcwd = some cwd)
    {path : Path} (hpath : Path.ofPathquery req.path = .ok path)
    (hstatus : req.responseStatusCode = HttpStatus.ok) {f : Find}
    (hsearch : search os (serverRoot cwd conf) path.pathDir path.pathFile conf.locations 1 =
      some f) : Begins os conf req := by
  have htry := tryBuild_located hcwd hpath (new conf)
  have hfor := findFor_located conf hcwd hpath
  rw [if_neg (not_not.mpr hstatus)] at htry hfor
  rw [hsearch] at hfor
  obtain ⟨locIt, hrun⟩ :=
    findAllowed_found (b := (new conf).located cwd path) rfl rfl rfl hsearch req
  have hblank : Unwritten os conf req (f.admitted conf cwd path locIt req.method) :=
    ⟨rfl, rfl, (errorRoot_found hcwd hfor).symm⟩
  by_cases hallowed : allowed f.location f.name req.method
  · rw [if_neg (not_not.mpr hallowed)] at hrun
    cases hreadable : (os f.calls).access (cStr f.file) with
    | true =>
      rw [if_neg (by rw [hreadable]; decide)] at hrun
      rw [Method.run_bind_ok hrun] at htry
      exact .delivers f path locIt cwd hpath ⟨hfor, hallowed, hreadable⟩ hblank htry
    | false =>
      rw [if_pos hreadable] at hrun
      rw [Method.run_bind_error hrun] at htry
      refine .thrown _ _ hblank (fun f' hadmits => ?_) htry
      obtain rfl := Option.some.inj (hfor.symm.trans hadmits.found)
      cases hreadable.symm.trans hadmits.readable
  · rw [if_pos hallowed] at hrun
    rw [Method.run_bind_error hrun] at htry
    refine .thrown _ _ hblank (fun f' hadmits => ?_) htry
    obtain rfl := Option.some.inj (hfor.symm.trans hadmits.found)
    exact hallowed hadmits.allowed

/-- A request with a path is rejected, or its file is looked for. -/
theorem begins_located {conf : ConfigDTO} {cwd : Str} (hcwd : (os 0).getcwd = some cwd)
    {path : Path} (hpath : Path.ofPathquery req.path = .ok path) : Begins os conf req := by
  have htry := tryBuild_located hcwd hpath (new conf)
  have hfor := findFor_located conf hcwd hpath
  by_cases hstatus : req.responseStatusCode = HttpStatus.ok
  · cases hsearch : search os (serverRoot cwd conf) path.pathDir path.pathFile conf.locations 1
        with
    | none =>
      rw [if_neg (not_not.mpr hstatus)] at htry hfor
      rw [hsearch] at hfor
      obtain ⟨e, file, locIt, calls, hrun⟩ :=
        findAllowed_missed (b := (new conf).located cwd path) rfl hsearch req
      rw [Method.run_bind_error hrun] at htry
      refine .thrown e _ ?_ (not_admits_of_missed hfor) htry
      exact ⟨rfl, rfl, (errorRoot_missed hcwd hfor).symm⟩
    | some f => exact begins_found hcwd hpath hstatus hsearch
  · rw [if_pos hstatus] at htry hfor
    refine .rejected _ ?_ (not_admits_of_missed hfor) htry
    exact ⟨rfl, rfl, (errorRoot_missed hcwd hfor).symm⟩

theorem begins (os : Nat → Os) (conf : ConfigDTO) (req : HttpRequestDTO) :
    Begins os conf req := by
  cases hcwd : (os 0).getcwd with
  | none =>
    have hfind : findFor os conf req = none := by rw [findFor, hcwd]
    have hroot : (new conf).pageRoot = errorRoot os conf req := by
      rw [errorRoot, hcwd]
      rfl
    exact .thrown _ _ ⟨rfl, rfl, hroot⟩ (not_admits_of_missed hfind) (tryBuild_noCwd hcwd _)
  | some cwd =>
    by_cases hslash : Path.HasSlash req.path
    · obtain ⟨path, hpath⟩ := Path.ofPathquery_of_hasSlash hslash
      exact begins_located hcwd hpath
    · have hfind : findFor os conf req = none := findFor_noSlash hcwd hslash
      refine .thrown _ _ ?_ (not_admits_of_missed hfind) (tryBuild_noSlash hcwd hslash _)
      exact ⟨rfl, rfl, (errorRoot_missed hcwd hfind).symm⟩

theorem build_of_thrown {e : Exn} {t s : HttpResponseBuilder × Nat}
    (h : (tryBuild os req).run t = (.error (.std e), s)) :
    (build os req).run t =
      (call os fun os => buildErrorResponse os (caughtStatus e) req).run s := by
  rw [build, Method.run_tryCatch, h]
  cases e <;> rfl

theorem build_of_fatal {t : HttpResponseBuilder × Nat} (h : Fatal ((tryBuild os req).run t)) :
    Fatal ((build os req).run t) := by
  refine h.tryCatch fun e hstd => ?_
  cases e with
  | std e => exact absurd rfl (hstd e)
  | _ => rfl

/-- The body is one error page of the request, and nothing that it held when an exception was
caught is left in it. -/
structure PageOnly (os : Nat → Os) (conf : ConfigDTO) (req : HttpRequestDTO)
    (response : HttpResponse) : Prop where
  page : ∃ httpStatus n, response.statusCode = decimalInt httpStatus ∧
    response.body =
      errorBody (os n) conf httpStatus (errorPageFile conf httpStatus (errorRoot os conf req))
  nothingLeft : ∀ e s, (tryBuild os req).run (new conf, 0) = (.error e, s) →
    s.1.resBodyStr <+: response.body → s.1.resBodyStr = []

theorem buildErrorResponse_call (os : Nat → Os) (req : HttpRequestDTO) (httpStatus : Int)
    (s : HttpResponseBuilder × Nat) :
    ∃ response, ((call os fun os => buildErrorResponse os httpStatus req).run s).1 = .ok response ∧
      response.statusCode = decimalInt httpStatus ∧
      response.body = (withErrorPage (os s.2) httpStatus s.1).resBodyStr := by
  rw [Method.run_call, buildErrorResponse_run]
  exact ⟨_, rfl, rfl, rfl⟩

/-- From a state in which nothing is written, only the page is. -/
theorem Unwritten.page {conf : ConfigDTO} (h : Unwritten os conf req s.1) (httpStatus : Int) :
    (withErrorPage (os s.2) httpStatus s.1).resBodyStr =
      errorBody (os s.2) conf httpStatus
        (errorPageFile conf httpStatus (errorRoot os conf req)) := by
  rw [withErrorPage_body (os s.2) httpStatus h.body, h.conf_eq, h.root]

theorem pageOnly_of_error {conf : ConfigDTO} {response : HttpResponse} {e : Exn}
    (hblank : Unwritten os conf req s.1)
    (hrun : (tryBuild os req).run (new conf, 0) = (.error (.std e), s))
    (h : ((build os req).run (new conf, 0)).1 = .ok response) :
    PageOnly os conf req response := by
  rw [build_of_thrown hrun] at h
  obtain ⟨response', hresponse, hstatus, hpage⟩ :=
    buildErrorResponse_call os req (caughtStatus e) s
  obtain rfl := Except.ok.inj (h.symm.trans hresponse)
  refine ⟨⟨_, s.2, hstatus, hpage.trans (hblank.page _)⟩, fun e' s' hrun' _ => ?_⟩
  obtain ⟨-, rfl⟩ := Prod.mk.inj (hrun.symm.trans hrun')
  exact hblank.body

/-- A request that was rejected by the parser. -/
theorem pageOnly_rejected {conf : ConfigDTO} {response : HttpResponse}
    (hblank : Unwritten os conf req s.1)
    (htry : (tryBuild os req).run (new conf, 0) =
      (call os fun os => buildErrorResponse os (utility.toInt req.responseStatusCode) req).run s)
    (h : ((build os req).run (new conf, 0)).1 = .ok response) :
    PageOnly os conf req response := by
  obtain ⟨response', hresponse, hstatus, hpage⟩ :=
    buildErrorResponse_call os req (utility.toInt req.responseStatusCode) s
  rcases hcall : (call os fun os => buildErrorResponse os (utility.toInt req.responseStatusCode)
      req).run s with ⟨r, s'⟩
  rw [hcall] at hresponse htry
  obtain rfl : r = .ok response' := hresponse
  rw [build, Method.run_tryCatch, htry] at h
  obtain rfl := Except.ok.inj h
  refine ⟨⟨_, s.2, hstatus, hpage.trans (hblank.page _)⟩, fun e s'' hrun _ => ?_⟩
  rw [htry] at hrun
  cases hrun

/-- A request whose file is to be delivered. -/
theorem pageOnly_delivered {conf : ConfigDTO} {response : HttpResponse} {path : Path}
    (hpath : Path.ofPathquery req.path = .ok path) (hblank : Unwritten os conf req s.1)
    (hparser : s.1.cgiParser.resBodyStr = [])
    (htry : (tryBuild os req).run (new conf, 0) =
      (deliver os req >>= fun _ => get >>= fun s => pure s.1.response).run s)
    (h : ((build os req).run (new conf, 0)).1 = .ok response) :
    (response.statusCode ≠ HttpStatus.ok → PageOnly os conf req response) ↔
      StatFollows os s := by
  have hdelivered : Delivered os s ((deliver os req).run s) :=
    deliver_delivered hpath hblank.body hparser
  generalize hrun : (deliver os req).run s = r at hdelivered
  cases hdelivered with
  | fatal hfatal =>
    rw [← hrun] at hfatal
    have htryFatal := hfatal.bind (fun _ => (get >>= fun s => pure s.1.response :
      TimedM HttpResponse))
    rw [← htry] at htryFatal
    exact absurd h ((build_of_fatal htryFatal).fst_ne_ok _)
  | served s' hstatus hstat =>
    rw [Method.run_bind_ok hrun] at htry
    rw [build, Method.run_tryCatch, htry] at h
    obtain rfl := Except.ok.inj h
    exact iff_of_true (fun hne => absurd hstatus hne) hstat
  | failed e s' hsite hbody hstat =>
    rw [Method.run_bind_error hrun] at htry
    exact iff_of_true (fun _ => pageOnly_of_error (hblank.of_sameSite hsite hbody) htry h) hstat
  | left s' hbody hstat =>
    rw [Method.run_bind_error hrun] at htry
    refine iff_of_false (fun honly => ?_) hstat
    rw [build_of_thrown htry] at h
    obtain ⟨response', hresponse, hstatus, hpage⟩ :=
      buildErrorResponse_call os req 500 s'
    obtain rfl := Except.ok.inj (h.symm.trans hresponse)
    have hne : response.statusCode ≠ HttpStatus.ok := by
      rw [hstatus]
      decide
    refine hbody ((honly hne).nothingLeft _ s' htry ?_)
    rw [hpage]
    exact withErrorPage_extends (os s'.2) 500 s'.1

/-- The body of an error response is one error page exactly when no `stat` fails behind a file or
a script that had something for the body. -/
theorem pageOnly_iff (os : Nat → Os) (conf : ConfigDTO) (req : HttpRequestDTO)
    (response : HttpResponse) (h : ((build os req).run (new conf, 0)).1 = .ok response) :
    (response.statusCode ≠ HttpStatus.ok → PageOnly os conf req response) ↔
      StatsWritten os conf req := by
  cases begins os conf req with
  | thrown e s hblank hnone htry =>
    exact iff_of_true (fun _ => pageOnly_of_error hblank htry h)
      fun f hadmits => absurd hadmits (hnone f)
  | rejected s hblank hnone htry =>
    exact iff_of_true (fun _ => pageOnly_rejected hblank htry h)
      fun f hadmits => absurd hadmits (hnone f)
  | delivers f path locIt cwd hpath hadmits hblank htry =>
    rw [pageOnly_delivered hpath hblank rfl htry h]
    constructor
    · intro hfollows f' hadmits'
      obtain rfl := Option.some.inj (hadmits.found.symm.trans hadmits'.found)
      exact hfollows
    · exact fun hstats => hstats f hadmits

end

/-- `GET /missing` -/
theorem pageOnly_iff_missing :
    ∃ response,
      ((build (fun _ => siteOs) { siteReq with path := lit "/missing" }).run
        (new siteConf, 0)).1 = .ok response ∧
      ((response.statusCode ≠ HttpStatus.ok →
          PageOnly (fun _ => siteOs) siteConf { siteReq with path := lit "/missing" } response) ↔
        StatsWritten (fun _ => siteOs) siteConf { siteReq with path := lit "/missing" }) :=
  ⟨_, rfl, pageOnly_iff (fun _ => siteOs) siteConf _ _ rfl⟩

set_option maxRecDepth 4000 in
/-- `GET /`, when `stat` fails behind the file. -/
theorem not_pageOnly : ¬ ∀ (os : Nat → Os) (conf : ConfigDTO) (req : HttpRequestDTO)
    (response : HttpResponse), ((build os req).run (new conf, 0)).1 = .ok response →
    response.statusCode ≠ HttpStatus.ok → PageOnly os conf req response := by
  intro h
  have honly := h (fun _ => { siteOs with stat := fun _ => none }) siteConf siteReq _ rfl
    (by decide)
  exact absurd (honly.nothingLeft _ _ rfl (by decide)) (by decide)

end Timed

end HttpResponseBuilder

end Webserv
