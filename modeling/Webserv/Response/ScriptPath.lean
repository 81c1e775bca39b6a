import Webserv.Response.ContentLength
import Webserv.Response.Dispatch
import Webserv.Response.PathParts

/-!
# The script that is run

`checkOptions` checks the file that was found under the root of the location.  The interpreter is
given the path of the request below `www/cgi-bin/` instead, whatever the root is.  The two are
the same file if and only if that is where the root leads.
-/

namespace Webserv

open Text

/-! ## What is started -/

namespace CGI

def SCRIPT_DIR : Str := lit "www/cgi-bin/"

/-- The script that `createArgs` names. -/
def scriptPath (path : Path) : Str := cStr (SCRIPT_DIR ++ path.rawPath.drop 1)

/-- Every script that was started was started for this path. -/
def StartedFor (path : Path) (cgi : CGI) : Prop :=
  ∀ script ∈ cgi.scripts, path.extension ∈ EXEC_PATHS ∧ script.2[1]? = some (scriptPath path)

theorem check_keeps (succeeded : Bool) : Method.Keeps CGI.scripts (check succeeded) :=
  .ite (.pure _) (.throw _)

theorem childProcess_keeps (calls : CgiCalls) (execCommandPath : Str)
    (execArgs execEnvs : List Str) :
    Method.Keeps CGI.scripts (childProcess calls execCommandPath execArgs execEnvs) :=
  .bind (check_keeps _) fun _ => .bind (check_keeps _) fun _ => .bind (check_keeps _) fun _ =>
    .bind (check_keeps _) fun _ => .bind (check_keeps _) fun _ => .bind (check_keeps _) fun _ =>
      .bind (check_keeps _) fun _ => .throw _

theorem parentProcess_keeps (calls : CgiCalls) :
    Method.Keeps CGI.scripts (parentProcess calls) := by
  refine .bind (check_keeps _) fun _ => .bind (check_keeps _) fun _ => ?_
  refine .ite (.bind (.throw _) fun _ => ?_) ?_
  all_goals
    refine .bind (check_keeps _) fun _ => .bind (check_keeps _) fun _ => ?_
    cases calls.read BUF_SIZE with
    | none => exact .throw _
    | some data => exact .ite (.pure _) (.throw _)

theorem buildCGIResponse_startedFor (calls : CgiCalls) {path : Path} (execCommandPath : Str)
    {execArgs : List Str} (execEnvs : List Str) (hext : path.extension ∈ EXEC_PATHS)
    (hargs : execArgs[1]? = some (scriptPath path)) :
    Method.Maintains (StartedFor path)
      (buildCGIResponse calls execCommandPath execArgs execEnvs) fun _ => True := by
  have hkeeps {α : Type} {x : CgiM α} (h : Method.Keeps CGI.scripts x) :
      Method.Maintains (StartedFor path) x fun _ => True :=
    h.maintains fun cgi cgi' heq hcgi => by
      rw [StartedFor, heq]
      exact hcgi
  have hstart : Method.Maintains (StartedFor path) (modify fun cgi =>
      { cgi with scripts := cgi.scripts ++ [(execCommandPath, execArgs)] } : CgiM PUnit)
      fun _ => True := by
    refine .modify fun cgi hcgi script hscript => ?_
    rcases List.mem_append.mp hscript with hold | hnew
    · exact hcgi script hold
    · obtain rfl := List.mem_singleton.mp hnew
      exact ⟨hext, hargs⟩
  refine .seq (hkeeps (.bind (check_keeps _) fun _ => check_keeps _)) fun _ => ?_
  cases calls.fork with
  | failed => exact .throw _
  | child => exact hstart.seq fun _ => hkeeps (childProcess_keeps _ _ _ _)
  | parent => exact hstart.seq fun _ => hkeeps (parentProcess_keeps calls)

theorem findSecond_maintains (path : Path) (map : Std.ExtTreeMap Str Str) (key : Str) :
    Method.Maintains (StartedFor path) (findSecond map key) fun _ => key ∈ map := by
  rw [findSecond]
  cases h : map[key]? with
  | none => exact .throw _
  | some value =>
    refine .pure (Std.ExtTreeMap.mem_iff_isSome_getElem?.mpr ?_)
    rw [h]
    rfl

theorem createArgs_maintains {path : Path} (hpath : path.rawPath ≠ []) :
    Method.Maintains (StartedFor path) (createArgs path)
      fun execArgs => execArgs[1]? = some (scriptPath path) := by
  intro cgi hcgi
  cases hcommand : EXEC_COMMANDS[path.extension]? with
  | none =>
    rw [createArgs, findSecond, hcommand]
    refine ⟨hcgi, fun execArgs hthrow => ?_⟩
    cases hthrow
  | some command =>
    rw [createArgs_run hpath hcommand]
    refine ⟨hcgi, fun execArgs hargs => ?_⟩
    rw [← Except.ok.inj hargs]
    rfl

theorem run_startedFor (calls : CgiCalls) (req : HttpRequestDTO) (conf : ConfigDTO)
    {path : Path} (hpath : path.rawPath ≠ []) :
    Method.Maintains (StartedFor path) (run calls req conf path) fun _ => True := by
  refine .seq (.modify fun _ h => h) fun _ => ?_
  refine (findSecond_maintains path _ _).bind fun execCommandPath hext => ?_
  refine (createArgs_maintains hpath).bind fun execArgs hargs => ?_
  refine Method.Maintains.seq (Method.Maintains.get.bind fun _ _ => .pure trivial)
    fun execEnvs => ?_
  exact (buildCGIResponse_startedFor calls _ execEnvs hext hargs).bind fun _ _ =>
    .modify fun _ h => h

end CGI

namespace HttpResponseBuilder

/-- The file that was checked, and what was started. -/
structure RunsFor (path : Path) (file : Str) (b : HttpResponseBuilder) : Prop where
  filepathPath : b.filepathPath = file
  startedFor : b.cgi.StartedFor path

/-- An error response is built from the body and the header. -/
theorem buildErrorResponse_keeps {γ : Type} {view : HttpResponseBuilder → γ}
    (hheader : ∀ b header, view { b with header := header } = view b)
    (hbody : ∀ b body reads, view { b with resBodyStr := body, reads := reads } = view b)
    (os : Os) (httpStatus : Int) (req : HttpRequestDTO) :
    Method.Keeps view (buildErrorResponse os httpStatus req) := by
  intro b
  rw [buildErrorResponse_run]
  exact (hheader _ _).trans (withErrorPage_keeps view hbody os httpStatus b)

variable {os : Os} {req : HttpRequestDTO} {path : Path} {file : Str}

theorem keeps_runsFor {α : Type} {x : BuilderM α}
    (h : Method.Keeps (fun b => (b.filepathPath, b.cgi)) x) :
    Method.Maintains (RunsFor path file) x fun _ => True :=
  h.maintains fun b b' heq hb => by
    obtain ⟨hpath, hcgi⟩ := Prod.mk.inj heq
    refine ⟨hpath.trans hb.filepathPath, ?_⟩
    rw [hcgi]
    exact hb.startedFor

theorem doCGI_runsFor (hpath : Path.ofPathquery req.path = .ok path) :
    Method.Maintains (RunsFor path file) (doCGI os req) fun _ => True := by
  have hlift : Method.Maintains (RunsFor path file)
      (liftM (Path.ofPathquery req.path) : BuilderM Path) fun p => p = path :=
    .lift fun p hp => by
      rw [hpath] at hp
      exact (Except.ok.inj hp).symm
  refine hlift.bind fun p hp => ?_
  obtain rfl := hp
  refine Method.Maintains.get.bind fun b _ => .seq ?_ fun _ => ?_
  · exact .zoom_member (fun _ h => h.startedFor) (fun _ _ h hcgi => ⟨h.filepathPath, hcgi⟩)
      (CGI.run_startedFor os.cgi req b.conf (Path.rawPath_ne_nil hpath))
  · refine Method.Maintains.get.bind fun b _ => .seq ?_ fun _ => ?_
    · exact .zoom (fun _ _ h => ⟨h.filepathPath, h.startedFor⟩) _
    · refine .seq (.modify fun _ h => ⟨h.filepathPath, h.startedFor⟩) fun _ => .seq ?_ fun _ => ?_
      · exact keeps_runsFor (buildHeader_keeps (fun _ _ => rfl) os req)
      · exact .modify fun _ h => ⟨h.filepathPath, h.startedFor⟩

theorem deliver_runsFor (hpath : Path.ofPathquery req.path = .ok path) :
    Method.Maintains (RunsFor path file) (deliver os req) fun _ => True := by
  have hheader : Method.Maintains (RunsFor path file) (buildHeader os req) fun _ => True :=
    keeps_runsFor (buildHeader_keeps (fun _ _ => rfl) os req)
  refine Method.Maintains.get.bind fun b _ => .ite (doCGI_runsFor hpath) (.ite ?_ ?_)
  · exact .seq (.pure trivial) fun _ => hheader
  · exact .seq (keeps_runsFor (readFile_keeps (fun _ _ _ => rfl) os _ _)) fun _ => hheader

/-- The clauses of `build` start nothing and leave the file alone. -/
theorem build_runsFor {b : HttpResponseBuilder}
    (h : RunsFor path file ((tryBuild os req).run b).2) :
    RunsFor path file ((build os req).run b).2 := by
  have hcaught : ∀ httpStatus, Method.Maintains (RunsFor path file)
      (buildErrorResponse os httpStatus req) fun _ => True := fun httpStatus =>
    keeps_runsFor (buildErrorResponse_keeps (fun _ _ => rfl) (fun _ _ _ => rfl) os httpStatus req)
  rw [build, Method.run_tryCatch]
  rcases hrun : (tryBuild os req).run b with ⟨e | response, b'⟩
  · rw [hrun] at h
    cases e with
    | std e =>
      cases e with
      | response httpStatus msg => exact (hcaught httpStatus b' h).1
      | _ => exact (hcaught 500 b' h).1
    | _ => exact h
  · rw [hrun] at h
    exact h

/-- A script is started for an admitted request only. -/
theorem admits_of_mem_scripts {conf : ConfigDTO} {script : Str × List Str}
    (h : script ∈ ((build os req).run (new conf)).2.cgi.scripts) :
    ∃ cwd path location name, Admits os conf req cwd path location name := by
  by_contra hnot
  obtain ⟨httpStatus, response, b', hrun, -, hsame⟩ := build_not_admitted hnot
  rw [hrun] at h
  change script ∈ b'.cgi.scripts at h
  rw [hsame.cgi] at h
  cases h

theorem build_admitted_runsFor {conf : ConfigDTO} {cwd : Str} {location : LocationConfig}
    {name : Str} (h : Admits os conf req cwd path location name) :
    RunsFor path (locationDir cwd (serverRoot cwd conf) location ++ name)
      ((build os req).run (new conf)).2 := by
  obtain ⟨locIt, htry⟩ := tryBuild_admitted h
  refine build_runsFor ?_
  rw [htry]
  have hrun : Method.Maintains
      (RunsFor path (locationDir cwd (serverRoot cwd conf) location ++ name))
      (deliver os req >>= fun _ => get >>= fun b => (pure b.response : BuilderM HttpResponse))
      fun _ => True :=
    (deliver_runsFor h.parsed).seq fun _ => Method.Maintains.get.bind fun _ _ => .pure trivial
  refine (hrun _ ⟨rfl, fun script hscript => ?_⟩).1
  exact absurd hscript List.not_mem_nil

/-! ## The two paths -/

theorem resolveRoot_nulFree {cwd root base : Str} (hcwd : 0 ∉ cwd) (hroot : 0 ∉ root)
    (hbase : 0 ∉ base) : 0 ∉ resolveRoot cwd root base := by
  have hslash : 0 ∉ SLASH := by decide
  unfold resolveRoot
  split
  · exact hbase
  · split
    · exact hroot
    · simp only [List.mem_append, not_or]
      exact ⟨⟨hcwd, hslash⟩, hroot⟩

theorem resolveRoot_absolute {cwd root base : Str} (hcwd : cwd.head? = some 47)
    (hbase : base.head? = some 47) : (resolveRoot cwd root base).head? = some 47 := by
  unfold resolveRoot
  split
  · exact hbase
  · split
    · next habsolute => exact habsolute
    · simp [hcwd]

/-- The location leads to the directory that the scripts are run from. -/
def ServesScriptDir (cwd : Str) (conf : ConfigDTO) (location : LocationConfig) : Prop :=
  canonical (names cwd) (CGI.SCRIPT_DIR ++ location.location.drop 1) =
    canonical (names cwd) (locationDir cwd (serverRoot cwd conf) location)

/-- Behind `www/cgi-bin/` a path does not come back into the working directory. -/
theorem canonical_scriptDir {cwd : List Str}
    (hplain : ∀ name ∈ cwd, DOT_NAMES.stay name = false ∧ name ≠ DOT_NAMES.up) (rest : Str) :
    canonical cwd (CGI.SCRIPT_DIR ++ rest) =
      (names rest).foldl (FileSystem.shortenStep DOT_NAMES cwd)
        (cwd ++ [lit "www", lit "cgi-bin"]) := by
  have hnames : names (CGI.SCRIPT_DIR ++ rest) = [lit "www", lit "cgi-bin"] ++ names rest :=
    names_append (lit "www/cgi-bin") rest
  have hdirs : ∀ name ∈ [lit "www", lit "cgi-bin"],
      DOT_NAMES.stay name = false ∧ name ≠ DOT_NAMES.up := by decide
  have hfront : ∀ name ∈ cwd ++ [lit "www", lit "cgi-bin"],
      DOT_NAMES.stay name = false ∧ name ≠ DOT_NAMES.up := by
    intro name hname
    rcases List.mem_append.mp hname with hcwd | hdir
    · exact hplain name hcwd
    · exact hdirs name hdir
  have hrelative : (CGI.SCRIPT_DIR ++ rest).head? ≠ some 47 := by
    have hhead : (CGI.SCRIPT_DIR ++ rest).head? = some 119 := rfl
    rw [hhead]
    decide
  rw [canonical, if_neg hrelative, hnames, ← List.append_assoc, FileSystem.shorten_append,
    FileSystem.shorten_plain hfront]

theorem not_prefix_scriptDir (cwd : List Str) :
    ¬ cwd ++ [lit "www", lit "cgi-bin"] <+: cwd := by
  intro h
  have hle := h.length_le
  rw [List.length_append] at hle
  exact absurd hle (by simp)

/-- What is known of a request for which a script was started. -/
structure Starts (os : Os) (conf : ConfigDTO) (req : HttpRequestDTO) (cwd : Str) (path : Path)
    (location : LocationConfig) (args : List Str) (file : Str) : Prop where
  admits : Admits os conf req cwd path location path.pathFile
  dir : IsDirText path.pathDir
  location_eq : location.location = path.pathDir
  mem : location ∈ conf.locations
  notMem_pathFile : 47 ∉ path.pathFile
  args_eq : args[1]? = some (cStr (CGI.SCRIPT_DIR ++ (path.pathDir ++ path.pathFile).drop 1))
  file_eq : file = locationDir cwd (serverRoot cwd conf) location ++ path.pathFile

theorem starts_of_mem_scripts {conf : ConfigDTO} {execPath : Str} {args : List Str}
    (h : (execPath, args) ∈ ((build os req).run (new conf)).2.cgi.scripts) :
    ∃ cwd path location, Starts os conf req cwd path location args
      ((build os req).run (new conf)).2.filepathPath := by
  obtain ⟨cwd, path, location, name, hadmits⟩ := admits_of_mem_scripts h
  obtain ⟨hfile, hstarted⟩ := build_admitted_runsFor hadmits
  obtain ⟨hext, hargs⟩ := hstarted _ h
  obtain ⟨hdir, hslash, hraw⟩ := Path.ofPathquery_parts hadmits.parsed
  have hfound := search_foundIn hadmits.search
  -- an empty name has no extension, so the name is the one that was requested
  have hne : path.pathFile ≠ [] := by
    intro hnil
    rw [extension_eq hadmits.parsed, hnil, mem_EXEC_PATHS_iff] at hext
    exact absurd hext (by decide)
  obtain rfl : name = path.pathFile := by
    obtain ⟨l, -, -, hname⟩ := hfound.name_mem
    rw [candidates, if_pos hne] at hname
    exact List.mem_singleton.mp hname
  refine ⟨cwd, path, location, hadmits, hdir, hfound.location_eq, hfound.mem, hslash, ?_, hfile⟩
  rw [hargs, CGI.scriptPath, hraw]

/-- The paths of the script and of the file, as `c_str()`. -/
theorem Starts.paths {conf : ConfigDTO} {cwd : Str} {location : LocationConfig} {args : List Str}
    (h : Starts os conf req cwd path location args file) (hconf : conf.NulFree)
    (hcwd : 0 ∉ cwd) :
    args[1]? = some (CGI.SCRIPT_DIR ++ location.location.drop 1 ++ cStr path.pathFile) ∧
      cStr file = locationDir cwd (serverRoot cwd conf) location ++ cStr path.pathFile := by
  have hlocation : 0 ∉ path.pathDir := h.location_eq ▸ hconf.location location h.mem
  have hscripts : 0 ∉ CGI.SCRIPT_DIR ++ path.pathDir.drop 1 := by
    rw [List.mem_append, not_or]
    exact ⟨by decide, fun hmem => hlocation (List.mem_of_mem_drop hmem)⟩
  have hdir : 0 ∉ locationDir cwd (serverRoot cwd conf) location := by
    rw [locationDir, List.mem_append, not_or]
    have hserver : 0 ∉ serverRoot cwd conf := resolveRoot_nulFree hcwd hconf.root hcwd
    exact ⟨resolveRoot_nulFree hcwd (hconf.location_root location h.mem) hserver,
      hconf.location location h.mem⟩
  have hdrop : (path.pathDir ++ path.pathFile).drop 1 = path.pathDir.drop 1 ++ path.pathFile := by
    obtain ⟨front, hfront⟩ := h.dir
    rw [hfront]
    cases front <;> rfl
  constructor
  · rw [h.args_eq, hdrop, ← List.append_assoc, cStr_append hscripts, h.location_eq]
  · rw [h.file_eq, cStr_append hdir]

/-- For a location that begins with a slash only the root counts. -/
theorem servesScriptDir_iff {cwd : Str} {conf : ConfigDTO} {location : LocationConfig}
    (hcwd : cwd.head? = some 47)
    (hplain : ∀ name ∈ names cwd, DOT_NAMES.stay name = false ∧ name ≠ DOT_NAMES.up)
    (h : location.location.head? = some 47) :
    ServesScriptDir cwd conf location ↔
      canonical (names cwd) (resolveRoot cwd location.root (serverRoot cwd conf)) =
        names cwd ++ [lit "www", lit "cgi-bin"] := by
  obtain ⟨rest, hrest⟩ : ∃ rest, location.location = 47 :: rest := List.head?_eq_some_iff.mp h
  let root := resolveRoot cwd location.root (serverRoot cwd conf)
  have hroot : root.head? = some 47 :=
    resolveRoot_absolute hcwd (resolveRoot_absolute hcwd hcwd)
  have hlocation : canonical (names cwd) (root ++ 47 :: rest) =
      (names rest).foldl (FileSystem.shortenStep DOT_NAMES (names cwd))
        (canonical (names cwd) root) := by
    have habsolute : (root ++ 47 :: rest).head? = some 47 := by
      rw [List.head?_append, hroot]
      rfl
    rw [canonical, canonical, if_pos habsolute, if_pos hroot, names_append, List.nil_append,
      List.nil_append, FileSystem.shorten_append]
  rw [ServesScriptDir, locationDir, hrest, hlocation, List.drop_one, List.tail_cons,
    canonical_scriptDir hplain, eq_comm,
    FileSystem.foldl_shortenStep_inj (not_prefix_scriptDir (names cwd))]

/-! ## A disk -/

/-- A disk without links, from its directories and its other files. -/
def treeDisk (dirs files : List (List Str)) : Disk (List Str) where
  root := []
  isDir path := path = [] || dirs.contains path
  child path name :=
    if name = lit ".." then some path.dropLast
    else if (dirs ++ files).contains (path ++ [name]) then some (path ++ [name])
    else none
  isDir_root := rfl
  child_up_root := rfl
  entries path := (dirs ++ files).filterMap fun file =>
    if file.dropLast = path then file.getLast? else none
  content _ := []
  modTime _ := lit "Thu Jan  1 00:00:00 1970\n"

/-- One script where the default root leads to, and one of the same name in `www/cgi-bin`. -/
def scriptDisk : Disk (List Str) :=
  treeDisk
    [[lit "srv"], [lit "srv", lit "www"], [lit "srv", lit "www", lit "cgi-bin"]]
    [[lit "srv", lit "a.py"], [lit "srv", lit "www", lit "cgi-bin", lit "a.py"]]

def scriptOs : Os := scriptDisk.os [lit "srv"] (lit "/srv")

theorem scriptOs_on : scriptOs.On scriptDisk [lit "srv"] := by
  refine Disk.os_on (by decide) (by decide) ⟨by decide, by decide, ?_⟩
  intro front name d e hprefix hd he
  obtain ⟨rest, hrest⟩ := hprefix
  cases front with
  | nil =>
    obtain rfl : name = lit "srv" := (List.cons.inj hrest).1
    obtain rfl : [] = d := Option.some.inj hd
    obtain rfl : [lit "srv"] = e := Option.some.inj he
    rfl
  | cons first front =>
    have hlen := congrArg List.length hrest
    have hcwd : (names (lit "/srv")).length = 1 := by decide
    rw [hcwd] at hlen
    simp at hlen

/-- A server that runs Python below this root. -/
def scriptConf (root : Str) : ConfigDTO :=
  { siteConf with locations := [{ scriptLocation [lit ".py"] with root := root }] }

/-- `GET /a.py` -/
def scriptReq : HttpRequestDTO := { siteReq with path := lit "/a.py" }

theorem scriptConf_nulFree {root : Str} (h : 0 ∉ root) : (scriptConf root).NulFree where
  root := List.not_mem_nil
  location_root location hlocation := by
    obtain rfl := List.mem_singleton.mp hlocation
    exact h
  location location hlocation := by
    obtain rfl := List.mem_singleton.mp hlocation
    show 0 ∉ lit "/"
    decide

/-- The interpreter is given the file that was found and checked, on every disk that answers like
the one at hand, if and only if the directory of the location is `www/cgi-bin` and the location
below it.  For a location that begins with a slash this says where its root leads. -/
theorem createArgs_sameFile_iff {Node : Type} {disk : Disk Node} {dir : Node} {conf : ConfigDTO}
    {execPath : Str} {args : List Str} (hconf : conf.NulFree) (hon : os.On disk dir)
    (h : (execPath, args) ∈ ((build os req).run (new conf)).2.cgi.scripts) :
    ∃ cwd path location name script,
      Admits os conf req cwd path location name ∧
      ((build os req).run (new conf)).2.filepathPath =
        locationDir cwd (serverRoot cwd conf) location ++ name ∧
      args[1]? = some script ∧
      (SameFile os script (cStr ((build os req).run (new conf)).2.filepathPath) ↔
        ServesScriptDir cwd conf location) ∧
      (location.location.head? = some 47 → (ServesScriptDir cwd conf location ↔
        canonical (names cwd) (resolveRoot cwd location.root (serverRoot cwd conf)) =
          names cwd ++ [lit "www", lit "cgi-bin"])) := by
  obtain ⟨cwd, path, location, hstarts⟩ := starts_of_mem_scripts h
  obtain ⟨hnul, habsolute, hworking⟩ := hon.getcwd cwd hstarts.admits.getcwd
  obtain ⟨hargs, hfile⟩ := hstarts.paths hconf hnul
  refine ⟨cwd, path, location, path.pathFile, _, hstarts.admits, hstarts.file_eq, hargs, ?_,
    servesScriptDir_iff habsolute hworking.plain⟩
  have hlocation : ∃ front, location.location = front ++ [47] := by
    rw [hstarts.location_eq]
    exact hstarts.dir
  obtain ⟨front, hfront⟩ := hlocation
  have hscripts : IsDirText (CGI.SCRIPT_DIR ++ location.location.drop 1) := by
    cases front with
    | nil => exact ⟨lit "www/cgi-bin", by rw [hfront]; rfl⟩
    | cons c front => exact ⟨CGI.SCRIPT_DIR ++ front, by rw [hfront, List.append_assoc]; rfl⟩
  have hdir : IsDirText (locationDir cwd (serverRoot cwd conf) location) :=
    ⟨resolveRoot cwd location.root (serverRoot cwd conf) ++ front, by
      rw [locationDir, hfront, List.append_assoc]⟩
  have hname : 47 ∉ cStr path.pathFile := fun hmem =>
    hstarts.notMem_pathFile ((List.takeWhile_sublist _).subset hmem)
  have haccess := hstarts.admits.access
  rw [← hstarts.file_eq, hfile] at haccess
  rw [hfile]
  refine sameFile_iff hon hstarts.admits.getcwd hscripts hdir hname haccess ?_
  rw [canonical_scriptDir hworking.plain]
  exact FileSystem.not_prefix_foldl (not_prefix_scriptDir (names cwd)) _

theorem createArgs_sameFile_iff_cgi_bin :
    ∃ cwd path location name script,
      Admits scriptOs (scriptConf (lit "www/cgi-bin")) scriptReq cwd path location name ∧
      ((build scriptOs scriptReq).run (new (scriptConf (lit "www/cgi-bin")))).2.filepathPath =
        locationDir cwd (serverRoot cwd (scriptConf (lit "www/cgi-bin"))) location ++ name ∧
      [lit "python3", lit "www/cgi-bin/a.py", []][1]? = some script ∧
      (SameFile scriptOs script
          (cStr ((build scriptOs scriptReq).run
            (new (scriptConf (lit "www/cgi-bin")))).2.filepathPath) ↔
        ServesScriptDir cwd (scriptConf (lit "www/cgi-bin")) location) ∧
      (location.location.head? = some 47 →
        (ServesScriptDir cwd (scriptConf (lit "www/cgi-bin")) location ↔
          canonical (names cwd) (resolveRoot cwd location.root
            (serverRoot cwd (scriptConf (lit "www/cgi-bin")))) =
            names cwd ++ [lit "www", lit "cgi-bin"])) := by
  have hstarted : (lit "/usr/bin/python3", [lit "python3", lit "www/cgi-bin/a.py", []]) ∈
      ((build scriptOs scriptReq).run
        (new (scriptConf (lit "www/cgi-bin")))).2.cgi.scripts := by decide
  exact createArgs_sameFile_iff (scriptConf_nulFree (by decide)) scriptOs_on hstarted

/-- Without a root, `/srv/a.py` is checked and `/srv/www/cgi-bin/a.py` is run. -/
theorem not_createArgs_sameFile :
    ¬ ∀ (os : Os) (conf : ConfigDTO) (req : HttpRequestDTO) (execPath : Str) (args : List Str),
      conf.NulFree → (∃ (Node : Type) (disk : Disk Node) (cwd : Node), os.On disk cwd) →
        (execPath, args) ∈ ((build os req).run (new conf)).2.cgi.scripts →
          ∃ script, args[1]? = some script ∧
            SameFile os script (cStr ((build os req).run (new conf)).2.filepathPath) := by
  intro h
  obtain ⟨script, hscript, hsame⟩ := h scriptOs (scriptConf []) scriptReq
    (lit "/usr/bin/python3") [lit "python3", lit "www/cgi-bin/a.py", []]
    (scriptConf_nulFree (by decide)) ⟨_, _, _, scriptOs_on⟩ (by decide)
  obtain rfl : lit "www/cgi-bin/a.py" = script := Option.some.inj hscript
  obtain ⟨file, hrun, hchecked⟩ := hsame _ _ _ scriptOs_on
  have hrun' : scriptDisk.lookup [lit "srv"] (lit "www/cgi-bin/a.py") =
    some [lit "srv", lit "www", lit "cgi-bin", lit "a.py"] := by decide
  have hchecked' : scriptDisk.lookup [lit "srv"]
      (cStr ((build scriptOs scriptReq).run (new (scriptConf []))).2.filepathPath) =
        some [lit "srv", lit "a.py"] := by decide
  rw [← Option.some.inj (hrun'.symm.trans hrun)] at hchecked
  exact absurd (hchecked'.symm.trans hchecked) (by decide)

end HttpResponseBuilder

end Webserv
