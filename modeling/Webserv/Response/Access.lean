import Webserv.Response.CGIRun

/-!
# Who is served

A request is served only when the search finds a file and `checkOptions` admits it.  What is
found was looked for in the directory of a configured location.
-/

namespace Webserv

open Text

namespace HttpResponseBuilder

/-- The request names a file of a location, and the location and the file system admit it. -/
structure Admits (os : Os) (conf : ConfigDTO) (req : HttpRequestDTO) (cwd : Str) (path : Path)
    (location : LocationConfig) (name : Str) : Prop where
  status : req.responseStatusCode = HttpStatus.ok
  getcwd : os.getcwd = some cwd
  parsed : Path.ofPathquery req.path = .ok path
  search : search os cwd (serverRoot cwd conf) path.pathDir path.pathFile conf.locations =
    some (location, name)
  allowed : allowed location name req.method
  access : os.access (cStr (locationDir cwd (serverRoot cwd conf) location ++ name)) = true

/-! ## What the search finds -/

/-- A name that a location of this directory looks for is in the directory of `location`. -/
structure FoundIn (os : Os) (cwd base dir file : Str) (locations : List LocationConfig)
    (location : LocationConfig) (name : Str) : Prop where
  mem : location ∈ locations
  location_eq : location.location = dir
  name_mem : ∃ l ∈ locations, l.location = dir ∧ name ∈ candidates file l
  present : ∃ names, os.opendir (cStr (locationDir cwd base location)) = some names ∧
    cStr name ∈ names

theorem candidates_nextFile (file : Str) (skipped location : LocationConfig) {name : Str}
    (h : name ∈ candidates (nextFile file skipped) location) :
    name ∈ candidates file skipped ∨ name ∈ candidates file location := by
  unfold nextFile at h
  split at h
  · next hdefault =>
    refine Or.inl ?_
    rw [candidates, if_pos (by decide)] at h
    rw [candidates, if_neg (not_not.mpr hdefault.1), if_pos hdefault.2]
    exact h
  · exact Or.inr h

/-- The first step of a search that finds a file. -/
theorem search_cons {os : Os} {cwd base dir file : Str} {l : LocationConfig}
    {rest : List LocationConfig} {location : LocationConfig} {name : Str}
    (h : search os cwd base dir file (l :: rest) = some (location, name)) :
    (l.location = dir ∧ location = l ∧ name ∈ candidates file l ∧
        ∃ names, os.opendir (cStr (locationDir cwd base l)) = some names ∧ cStr name ∈ names) ∨
      (l.location = dir ∧ search os cwd base dir (nextFile file l) rest = some (location, name)) ∨
      (l.location ≠ dir ∧ search os cwd base dir file rest = some (location, name)) := by
  rw [search] at h
  by_cases hl : l.location = dir
  · rw [if_pos hl] at h
    cases hdir : os.opendir (cStr (locationDir cwd base l)) with
    | none =>
      rw [hdir] at h
      cases h
    | some names =>
      rw [hdir] at h
      dsimp only at h
      cases hname : (candidates file l).find? fun name => names.contains (cStr name) with
      | some found =>
        rw [hname] at h
        obtain ⟨rfl, rfl⟩ := Prod.mk.inj (Option.some.inj h)
        have hin : names.contains (cStr found) = true := by
          simpa only using List.find?_some hname
        exact Or.inl ⟨hl, rfl, List.mem_of_find?_eq_some hname, names, rfl,
          List.contains_iff_mem.mp hin⟩
      | none =>
        rw [hname] at h
        exact Or.inr (Or.inl ⟨hl, h⟩)
  · rw [if_neg hl] at h
    exact Or.inr (Or.inr ⟨hl, h⟩)

theorem search_foundIn {os : Os} {cwd base dir file : Str} {locations : List LocationConfig}
    {location : LocationConfig} {name : Str}
    (h : search os cwd base dir file locations = some (location, name)) :
    FoundIn os cwd base dir file locations location name := by
  induction locations generalizing file with
  | nil => cases h
  | cons l rest ih =>
    rcases search_cons h with ⟨hl, rfl, hname, hpresent⟩ | ⟨hl, hsearch⟩ | ⟨hl, hsearch⟩
    · exact ⟨List.mem_cons_self .., hl, ⟨location, List.mem_cons_self .., hl, hname⟩, hpresent⟩
    · have hrest := ih hsearch
      obtain ⟨l', hl', hdir', hmem⟩ := hrest.name_mem
      refine ⟨List.mem_cons_of_mem _ hrest.mem, hrest.location_eq, ?_, hrest.present⟩
      rcases candidates_nextFile file l l' hmem with hskipped | hlater
      · exact ⟨l, List.mem_cons_self .., hl, hskipped⟩
      · exact ⟨l', List.mem_cons_of_mem _ hl', hdir', hlater⟩
    · have hrest := ih hsearch
      obtain ⟨l', hl', hdir', hmem⟩ := hrest.name_mem
      exact ⟨List.mem_cons_of_mem _ hrest.mem, hrest.location_eq,
        ⟨l', List.mem_cons_of_mem _ hl', hdir', hmem⟩, hrest.present⟩

/-! ## Serving an admitted request -/

/-- What `build` does with a file that is found and admitted. -/
def deliver (os : Os) (req : HttpRequestDTO) : BuilderM Unit := do
  let b ← get
  if b.isFileCgi then
    doCGI os req
  else if b.isDelete then do
    deleteFile b.filepathPath
    buildHeader os req
  else do
    readFile os .requestedFile b.filepathPath
    buildHeader os req

theorem serveFile_eq (os : Os) (req : HttpRequestDTO) :
    serveFile os req =
      findFileInServer os >>= fun _ => checkOptions os req >>= fun _ => deliver os req := rfl

/-- The builder when the file is found. -/
def searched (conf : ConfigDTO) (cwd : Str) (path : Path) (location : LocationConfig) (name : Str)
    (locIt : List LocationConfig) : HttpResponseBuilder :=
  { found ((new conf).located cwd path) location
      (locationDir cwd (serverRoot cwd conf) location) name with locIt := locIt }

section

variable {os : Os} {conf : ConfigDTO} {req : HttpRequestDTO} {cwd : Str} {path : Path}

theorem findFileInServer_searched (hcwd : os.getcwd = some cwd) {location : LocationConfig}
    {name : Str}
    (h : search os cwd (serverRoot cwd conf) path.pathDir path.pathFile conf.locations =
      some (location, name)) :
    ∃ locIt, (findFileInServer os).run ((new conf).located cwd path) =
      (.ok (), searched conf cwd path location name locIt) :=
  findFileInServer_present (b := (new conf).located cwd path) hcwd rfl h

theorem checkOptions_searched (os : Os) (conf : ConfigDTO) (req : HttpRequestDTO) (cwd : Str)
    (path : Path) (location : LocationConfig) (name : Str) (locIt : List LocationConfig) :
    (checkOptions os req).run (searched conf cwd path location name locIt) =
      (if ¬ allowed location name req.method then
          .error (.std (.response 403 "not allowed method"))
        else if
            os.access (cStr (locationDir cwd (serverRoot cwd conf) location ++ name)) = false then
          .error (.std (.response 403 "file does not have permission"))
        else .ok (),
        admitted (searched conf cwd path location name locIt) req.method) :=
  checkOptions_run os (b := searched conf cwd path location name locIt) rfl rfl

/-- The search finds nothing. -/
theorem tryBuild_notFound (hstatus : req.responseStatusCode = HttpStatus.ok)
    (hcwd : os.getcwd = some cwd) (hpath : Path.ofPathquery req.path = .ok path)
    (h : search os cwd (serverRoot cwd conf) path.pathDir path.pathFile conf.locations = none) :
    ∃ msg locIt, (tryBuild os req).run (new conf) =
      (.error (.std (.response 404 msg)), missed ((new conf).located cwd path)
        (lastFile os cwd (serverRoot cwd conf) path.pathDir path.pathFile conf.locations)
        locIt) := by
  obtain ⟨msg, locIt, hrun⟩ :=
    findFileInServer_absent (b := (new conf).located cwd path) hcwd rfl h
  refine ⟨msg, locIt, ?_⟩
  rw [tryBuild_located hcwd hpath, if_neg (not_not.mpr hstatus), serveFile_eq]
  exact Method.run_bind_error (Method.run_bind_error hrun _) _

/-- The method or the permissions of the file forbid it. -/
theorem tryBuild_forbidden (hstatus : req.responseStatusCode = HttpStatus.ok)
    (hcwd : os.getcwd = some cwd) (hpath : Path.ofPathquery req.path = .ok path)
    {location : LocationConfig} {name : Str}
    (h : search os cwd (serverRoot cwd conf) path.pathDir path.pathFile conf.locations =
      some (location, name))
    (hforbidden : ¬ (allowed location name req.method ∧
      os.access (cStr (locationDir cwd (serverRoot cwd conf) location ++ name)) = true)) :
    ∃ msg locIt, (tryBuild os req).run (new conf) =
      (.error (.std (.response 403 msg)),
        admitted (searched conf cwd path location name locIt) req.method) := by
  obtain ⟨locIt, hfind⟩ := findFileInServer_searched hcwd h
  let b := searched conf cwd path location name locIt
  have hcheck : ∃ msg, (checkOptions os req).run b =
      (.error (.std (.response 403 msg)), admitted b req.method) := by
    rw [checkOptions_searched]
    by_cases hallowed : allowed location name req.method
    · rw [if_neg (not_not.mpr hallowed),
        if_pos (Bool.eq_false_iff.mpr fun haccess => hforbidden ⟨hallowed, haccess⟩)]
      exact ⟨_, rfl⟩
    · rw [if_pos hallowed]
      exact ⟨_, rfl⟩
  obtain ⟨msg, hcheck⟩ := hcheck
  refine ⟨msg, locIt, ?_⟩
  rw [tryBuild_located hcwd hpath, if_neg (not_not.mpr hstatus), serveFile_eq]
  refine Method.run_bind_error ?_ _
  rw [Method.run_bind_ok hfind]
  exact Method.run_bind_error hcheck _

theorem build_notFound (hstatus : req.responseStatusCode = HttpStatus.ok)
    (hcwd : os.getcwd = some cwd) (hpath : Path.ofPathquery req.path = .ok path)
    (h : search os cwd (serverRoot cwd conf) path.pathDir path.pathFile conf.locations = none) :
    Answers 404 (new conf) ((build os req).run (new conf)) := by
  obtain ⟨msg, locIt, htry⟩ := tryBuild_notFound hstatus hcwd hpath h
  obtain ⟨response, b', hbuild, herror, hsame⟩ := build_of_std htry
  exact ⟨response, b', hbuild, herror, ⟨hsame.cgi, hsame.reads⟩⟩

theorem build_forbidden (hstatus : req.responseStatusCode = HttpStatus.ok)
    (hcwd : os.getcwd = some cwd) (hpath : Path.ofPathquery req.path = .ok path)
    {location : LocationConfig} {name : Str}
    (h : search os cwd (serverRoot cwd conf) path.pathDir path.pathFile conf.locations =
      some (location, name))
    (hforbidden : ¬ (allowed location name req.method ∧
      os.access (cStr (locationDir cwd (serverRoot cwd conf) location ++ name)) = true)) :
    Answers 403 (new conf) ((build os req).run (new conf)) := by
  obtain ⟨msg, locIt, htry⟩ := tryBuild_forbidden hstatus hcwd hpath h hforbidden
  obtain ⟨response, b', hbuild, herror, hsame⟩ := build_of_std htry
  exact ⟨response, b', hbuild, herror, ⟨hsame.cgi, hsame.reads⟩⟩

/-- An admitted request is delivered. -/
theorem tryBuild_admitted {location : LocationConfig} {name : Str}
    (h : Admits os conf req cwd path location name) :
    ∃ locIt, (tryBuild os req).run (new conf) =
      (deliver os req >>= fun _ => get >>= fun b => pure b.response).run
        (admitted (searched conf cwd path location name locIt) req.method) := by
  obtain ⟨locIt, hfind⟩ := findFileInServer_searched h.getcwd h.search
  let b := searched conf cwd path location name locIt
  have hcheck : (checkOptions os req).run b = (.ok (), admitted b req.method) := by
    rw [checkOptions_searched, if_neg (not_not.mpr h.allowed),
      if_neg (by rw [h.access]; decide)]
  refine ⟨locIt, ?_⟩
  rw [tryBuild_located h.getcwd h.parsed, if_neg (not_not.mpr h.status), serveFile_eq,
    Method.run_bind_assoc, Method.run_bind_ok hfind, Method.run_bind_assoc,
    Method.run_bind_ok hcheck]

/-- What stops the delivery stops `build`. -/
theorem build_of_fatal_deliver {b b' : HttpResponseBuilder}
    (htry : (tryBuild os req).run b =
      (deliver os req >>= fun _ => get >>= fun b => pure b.response).run b')
    (h : Fatal ((deliver os req).run b')) : Fatal ((build os req).run b) := by
  apply build_of_fatal
  rw [htry]
  exact h.bind _

end

/-! ## What is read and run -/

/-- Only the header changes. -/
theorem buildHeader_keeps {γ : Type} {view : HttpResponseBuilder → γ}
    (h : ∀ b header, view { b with header := header } = view b) (os : Os) (req : HttpRequestDTO) :
    Method.Keeps view (buildHeader os req) := by
  have hmodified : Method.Keeps view (buildLastModified os) := by
    refine .bind .get fun b => ?_
    cases os.stat (cStr b.filepathPath) with
    | none => exact .throw _
    | some modTime => exact .pure _
  exact .bind (.modify fun b => h b _) fun _ => .bind hmodified fun _ => .modify fun b => h b _

/-- A script leaves its output in the body and the header. -/
theorem doCGI_keeps {γ : Type} {view : HttpResponseBuilder → γ}
    (h : ∀ b header body cgi parser,
      view { b with header := header, resBodyStr := body, cgi := cgi, cgiParser := parser } =
        view b)
    (os : Os) (req : HttpRequestDTO) : Method.Keeps view (doCGI os req) := by
  have hheader : Method.Keeps view (buildHeader os req) :=
    buildHeader_keeps (fun b header => h b header b.resBodyStr b.cgi b.cgiParser) os req
  refine .bind (.lift _) fun _ => .bind .get fun _ => .bind (.zoom ?_ _) fun _ =>
    .bind .get fun _ => .bind (.zoom ?_ _) fun _ => .bind (.modify fun b => ?_) fun _ =>
      .bind hheader fun _ => .modify fun b => ?_
  · exact fun cgi b => h b b.header b.resBodyStr cgi b.cgiParser
  · exact fun parser b => h b b.header b.resBodyStr b.cgi parser
  · exact h b b.header _ b.cgi b.cgiParser
  · exact h b _ b.resBodyStr b.cgi b.cgiParser

/-- `deliver` sets the header, the body and what a script leaves behind. -/
theorem deliver_keeps {γ : Type} {view : HttpResponseBuilder → γ}
    (h : ∀ b header body reads cgi parser,
      view { b with header := header, resBodyStr := body, reads := reads, cgi := cgi,
                    cgiParser := parser } = view b)
    (os : Os) (req : HttpRequestDTO) : Method.Keeps view (deliver os req) := by
  have hheader : Method.Keeps view (buildHeader os req) :=
    buildHeader_keeps (fun b header => h b header b.resBodyStr b.reads b.cgi b.cgiParser) os req
  refine .bind .get fun b => .ite ?_ (.ite (.bind (.pure _) fun _ => hheader) ?_)
  · exact doCGI_keeps (fun b header body cgi parser => h b header body b.reads cgi parser) os req
  · refine .bind (readFile_keeps (fun b body reads => ?_) os _ _) fun _ => hheader
    exact h b b.header body reads b.cgi b.cgiParser

/-- The only file that is read is the one that was found. -/
theorem deliver_reads (os : Os) (req : HttpRequestDTO) (b : HttpResponseBuilder)
    {purpose : ReadPurpose} {file : Str} (h : (purpose, file) ∈ ((deliver os req).run b).2.reads) :
    (purpose, file) ∈ b.reads ∨ purpose = .requestedFile ∧ file = b.filepathPath := by
  have hheader : Method.Keeps HttpResponseBuilder.reads (buildHeader os req) :=
    buildHeader_keeps (fun _ _ => rfl) os req
  have hscript : Method.Keeps HttpResponseBuilder.reads (doCGI os req) :=
    doCGI_keeps (fun _ _ _ _ _ => rfl) os req
  rw [deliver, Method.run_get_bind, Method.run_ite, Method.run_ite] at h
  split at h
  · rw [hscript b] at h
    exact Or.inl h
  · split at h
    · rw [deleteFile, Method.run_pure_bind, hheader b] at h
      exact Or.inl h
    · cases hread : os.ifstream (cStr b.filepathPath) with
      | none =>
        rw [Method.run_bind_error (readFile_error hread b)] at h
        exact Or.inl h
      | some content =>
        rw [Method.run_bind_ok (readFile_ok hread b)] at h
        rw [hheader _] at h
        rcases List.mem_append.mp h with hold | hnew
        · exact Or.inl hold
        · exact Or.inr (Prod.mk.inj (List.mem_singleton.mp hnew))

/-- The `catch` clauses serve nothing. -/
theorem build_sameService (os : Os) (req : HttpRequestDTO) (b : HttpResponseBuilder) :
    SameService ((tryBuild os req).run b).2 ((build os req).run b).2 := by
  rcases hrun : (tryBuild os req).run b with ⟨e | response, b'⟩
  · cases e with
    | std e =>
      obtain ⟨response, b'', hbuild, -, hsame⟩ := build_of_std hrun
      rw [hbuild]
      exact hsame
    | _ =>
      rw [build, Method.run_tryCatch, hrun]
      exact .refl b'
  · rw [build_of_ok hrun]
    exact .refl b'

/-- What is read is read by `deliver`. -/
theorem mem_reads_deliver {os : Os} {req : HttpRequestDTO} {b₀ b : HttpResponseBuilder}
    (htry : (tryBuild os req).run b₀ =
      (deliver os req >>= fun _ => get >>= fun b => pure b.response).run b) {file : Str}
    (hfile : (ReadPurpose.requestedFile, file) ∈ ((build os req).run b₀).2.reads) :
    (ReadPurpose.requestedFile, file) ∈ ((deliver os req).run b).2.reads := by
  have hread := ((build_sameService os req b₀).reads file).mp hfile
  rw [htry] at hread
  rcases hrun : (deliver os req).run b with ⟨e | u, b'⟩
  · rw [Method.run_bind_error hrun] at hread
    exact hread
  · rw [Method.run_bind_ok hrun] at hread
    exact hread

section

variable {os : Os} {conf : ConfigDTO} {req : HttpRequestDTO} {cwd : Str} {path : Path}

end

/-- A file system in which every directory holds one readable file. -/
def siteOs : Os where
  getcwd := some (lit "/srv")
  opendir := fun _ => some [lit "index.html"]
  access := fun _ => true
  ifstream := fun _ => some (lit "hello\n")
  stat := fun _ => some (lit "Thu Jan  1 00:00:00 1970\n")
  now := lit "Thu Jan  1 00:00:00 1970\n"
  cgi := .silent

/-- A server with one location, `/`. -/
def siteConf : ConfigDTO where
  port := lit "80"
  host := []
  errorPages := ∅
  root := []
  server := lit "a"
  locations := [⟨lit "/", ∅, [], [], [], false, []⟩]

/-- `GET /` -/
def siteReq : HttpRequestDTO :=
  { (default : HttpRequestDTO) with
    responseStatusCode := HttpStatus.ok
    method := lit "GET"
    path := lit "/" }

end HttpResponseBuilder

end Webserv
