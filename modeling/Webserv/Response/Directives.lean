import Webserv.Control.Related
import Webserv.Request.HttpRequestConverter
import Webserv.Response.Outcome

/-!
# Directives that no response depends on

`ConfigParser` stores `return`, `autoindex`, `client_body_size_limit` and the host of `listen`,
and nothing reads them.  `used` is a configuration without these.
-/

namespace Webserv

open Text HttpResponseBuilder

/-! ## Configurations -/

/-- A location without `return` and `autoindex`. -/
def LocationConfig.used (location : LocationConfig) : LocationConfig :=
  { location with redirect := ∅, autoindex := false }

/-- A server without `client_body_size_limit` and the host of `listen`. -/
def ServerConfig.used (conf : ServerConfig) : ServerConfig :=
  { conf with
    host := []
    clientBodySizeLimit := 0
    locations := conf.locations.map LocationConfig.used }

def ConfigDTO.used (conf : ConfigDTO) : ConfigDTO :=
  { conf with host := [], locations := conf.locations.map LocationConfig.used }

namespace WebservConfig

def used (config : WebservConfig) : WebservConfig where
  servConfs := config.servConfs.map ServerConfig.used
  ports := config.ports
  ports_spec p := by
    rw [config.ports_spec]
    constructor
    · rintro ⟨c, hc, hport⟩
      exact ⟨c.used, List.mem_map_of_mem hc, hport⟩
    · rintro ⟨c, hc, hport⟩
      obtain ⟨d, hd, rfl⟩ := List.mem_map.mp hc
      exact ⟨d, hd, hport⟩

/-- The ports follow from the servers. -/
theorem used_ofServConfs {confs confs' : List ServerConfig}
    (h : confs.map ServerConfig.used = confs'.map ServerConfig.used) :
    (ofServConfs confs).used = (ofServConfs confs').used := by
  have hports : insertPorts confs = insertPorts confs' := by
    refine Std.ExtTreeSet.ext_mem fun p => ?_
    have hmem : ∀ l : List ServerConfig,
        (∃ c ∈ l, c.port = p) ↔ ∃ c ∈ l.map ServerConfig.used, c.port = p :=
      fun l => ((ofServConfs l).ports_spec p).symm.trans ((ofServConfs l).used.ports_spec p)
    rw [mem_insertPorts, mem_insertPorts, hmem confs, hmem confs', h]
  simp only [used, ofServConfs, h, hports]

theorem find?_used (p : ServerConfig → Bool) (hp : ∀ c : ServerConfig, p c.used = p c)
    (confs : List ServerConfig) :
    (confs.map ServerConfig.used).find? p = (confs.find? p).map ServerConfig.used := by
  rw [List.find?_map]
  have hcomp : p ∘ ServerConfig.used = p := funext hp
  rw [hcomp]

theorem findServerConfig_used (config : WebservConfig) (port : Nat) (host : Str) :
    config.used.findServerConfig port host =
      (config.findServerConfig port host).map ServerConfig.used := by
  have hdefault : config.used.findDefaultServerConfig port =
      (config.findDefaultServerConfig port).map ServerConfig.used := by
    rw [findDefaultServerConfig, findDefaultServerConfig, used,
      find?_used (fun c => c.port = port) (fun _ => rfl)]
    cases config.servConfs.find? (fun c => c.port = port) <;> rfl
  have hnamed := find?_used (fun c => c.port = port && c.server.contains host) (fun _ => rfl)
    config.servConfs
  rw [findServerConfig, findServerConfig, hdefault]
  cases config.findDefaultServerConfig port with
  | error e => rfl
  | ok conf =>
    rw [Except.map, Except.ok_bind, Except.ok_bind, used, hnamed]
    cases config.servConfs.find? (fun c => c.port = port && c.server.contains host) <;> rfl

end WebservConfig

/-- A request without what it was given of the configuration. -/
def HttpRequestDTO.used (req : HttpRequestDTO) : HttpRequestDTO :=
  { req with host := [], port := 0, servernames := [] }

/-! ## Scripts -/

namespace CGI

open Method

def used (cgi : CGI) : CGI := { cgi with req := cgi.req.used, conf := cgi.conf.used }

section

variable {R : CGI → CGI → Prop}

theorem check_related (succeeded : Bool) :
    Related R (· = ·) (check succeeded) (check succeeded) := by
  cases succeeded with
  | false => exact .throw _
  | true => exact .pure rfl

theorem createPipe_related (calls : CgiCalls) :
    Related R (· = ·) (createPipe calls) (createPipe calls) :=
  (check_related calls.pipeP2c).seq fun _ _ => check_related calls.pipeC2p

theorem findSecond_related (map : Std.ExtTreeMap Str Str) (key : Str) :
    Related R (· = ·) (findSecond map key) (findSecond map key) := by
  rw [findSecond]
  cases map[key]? with
  | none => exact .throw _
  | some value => exact .pure rfl

theorem createArgs_related (path : Path) :
    Related R (· = ·) (createArgs path) (createArgs path) := by
  refine (findSecond_related EXEC_COMMANDS path.extension).bind fun command _ h => ?_
  subst h
  refine (Related.lift (.of_eq rfl)).bind fun rawPath _ h => ?_
  subst h
  exact .pure rfl

theorem childProcess_related (calls : CgiCalls) (execCommandPath : Str)
    (execArgs execEnvs : List Str) :
    Related R (· = ·) (childProcess calls execCommandPath execArgs execEnvs)
      (childProcess calls execCommandPath execArgs execEnvs) := by
  refine (check_related (calls.dup2 .p2cRead)).seq fun _ _ => ?_
  refine (check_related (calls.close .p2cRead)).seq fun _ _ => ?_
  refine (check_related (calls.close .p2cWrite)).seq fun _ _ => ?_
  refine (check_related (calls.dup2 .c2pWrite)).seq fun _ _ => ?_
  refine (check_related (calls.close .c2pWrite)).seq fun _ _ => ?_
  refine (check_related (calls.close .c2pRead)).seq fun _ _ => ?_
  exact (check_related calls.execve).seq fun _ _ => .throw _

theorem parentProcess_related (calls : CgiCalls) :
    Related R (· = ·) (parentProcess calls) (parentProcess calls) := by
  have hthrow : Related R (· = ·) (throw .sigpipe : CgiM Unit) (throw .sigpipe) := .throw _
  refine (check_related (calls.close .p2cRead)).seq fun _ _ => ?_
  refine (check_related (calls.close .c2pWrite)).seq fun _ _ => ?_
  refine .ite Iff.rfl (hthrow.seq fun _ _ => ?_) ?_
  all_goals
    refine (check_related (calls.close .p2cWrite)).seq fun _ _ => ?_
    refine (check_related (calls.close .c2pRead)).seq fun _ _ => ?_
    cases calls.read BUF_SIZE with
    | none => exact .throw _
    | some data => exact .ite Iff.rfl (.pure rfl) (.throw _)

end

/-- The object of a script that reads nothing else. -/
def IsUsed (cgi cgi' : CGI) : Prop := cgi' = cgi.used

theorem createEnvs_related (path : Path) :
    Related IsUsed (· = ·) (createEnvs path) (createEnvs path) := by
  refine Related.get.bind fun cgi _ h => ?_
  rw [h]
  exact .pure rfl

theorem buildCGIResponse_related (calls : CgiCalls) (execCommandPath : Str)
    (execArgs execEnvs : List Str) :
    Related IsUsed (· = ·) (buildCGIResponse calls execCommandPath execArgs execEnvs)
      (buildCGIResponse calls execCommandPath execArgs execEnvs) := by
  have hstart : Related IsUsed (· = ·)
      (modify fun cgi => started cgi execCommandPath execArgs : CgiM PUnit)
      (modify fun cgi => started cgi execCommandPath execArgs) :=
    .modify fun cgi _ h => h ▸ rfl
  refine (createPipe_related calls).seq fun _ _ => ?_
  cases calls.fork with
  | failed => exact .throw _
  | child =>
    exact hstart.seq fun _ _ => childProcess_related calls execCommandPath execArgs execEnvs
  | parent => exact hstart.seq fun _ _ => parentProcess_related calls

theorem run_related (calls : CgiCalls) (req : HttpRequestDTO) (conf : ConfigDTO) (path : Path) :
    Related IsUsed (· = ·) (run calls req conf path) (run calls req.used conf.used path) := by
  have hassign : Related IsUsed (· = ·)
      (modify fun cgi => { cgi with req := req, conf := conf } : CgiM PUnit)
      (modify fun cgi => { cgi with req := req.used, conf := conf.used }) :=
    .modify fun cgi _ h => h ▸ rfl
  refine hassign.seq fun _ _ => ?_
  refine (findSecond_related EXEC_PATHS path.extension).bind fun execCommandPath _ h => ?_
  subst h
  refine (createArgs_related path).bind fun execArgs _ h => ?_
  subst h
  refine (createEnvs_related path).bind fun execEnvs _ h => ?_
  subst h
  refine (buildCGIResponse_related calls _ execArgs execEnvs).bind fun cgiResponse _ h => ?_
  subst h
  exact .modify fun cgi _ h => h ▸ rfl

end CGI

/-! ## Outcomes -/

namespace HttpResponseBuilder

theorem search_used (os : Os) (cwd base dir file : Str) (locations : List LocationConfig) :
    search os cwd base dir file (locations.map LocationConfig.used) =
      (search os cwd base dir file locations).map fun found => (found.1.used, found.2) := by
  induction locations generalizing file with
  | nil => rfl
  | cons l rest ih =>
    have hnext : nextFile file l.used = nextFile file l := rfl
    have hcandidates : candidates file l.used = candidates file l := rfl
    have hdir : locationDir cwd base l.used = locationDir cwd base l := rfl
    have hlocation : l.used.location = l.location := rfl
    rw [List.map_cons, search, search, hnext, hcandidates, hdir, hlocation, ih, ih]
    split
    · cases os.opendir (cStr (locationDir cwd base l)) with
      | none => rfl
      | some names =>
        dsimp only
        cases (candidates file l).find? fun name => names.contains (cStr name) <;> rfl
    · rfl

theorem lastFile_used (os : Os) (cwd base dir file : Str) (locations : List LocationConfig) :
    lastFile os cwd base dir file (locations.map LocationConfig.used) =
      lastFile os cwd base dir file locations := by
  induction locations generalizing file with
  | nil => rfl
  | cons l rest ih =>
    have hnext : nextFile file l.used = nextFile file l := rfl
    have hdir : locationDir cwd base l.used = locationDir cwd base l := rfl
    have hlocation : l.used.location = l.location := rfl
    rw [List.map_cons, lastFile, lastFile, hnext, hdir, hlocation, ih, ih]

theorem scriptOutput_used (os : Os) (conf : ConfigDTO) (req : HttpRequestDTO) (path : Path) :
    scriptOutput os conf.used req.used path = scriptOutput os conf req path := by
  obtain ⟨hend, hused⟩ := CGI.run_related os.cgi req conf path .new .new rfl
  rw [scriptOutput, scriptOutput]
  rcases hrun : (CGI.run os.cgi req conf path).run .new with ⟨e | u, cgi⟩
  all_goals
    rcases hrun' : (CGI.run os.cgi req.used conf.used path).run .new with ⟨e' | u', cgi'⟩
    all_goals rw [hrun, hrun'] at hend hused
  · cases hend
    rfl
  · cases hend
  · cases hend
  · have hcgi : cgi' = cgi.used := hused
    have hresponse : cgi'.cgiResponse = cgi.cgiResponse := by rw [hcgi]; rfl
    dsimp only
    rw [hresponse]

theorem outcome_target (os : Os) (conf : ConfigDTO) (req : HttpRequestDTO) (path : Path)
    (location : LocationConfig) (name file : Str) :
    (Target.mk location.used name file).outcome os conf.used req.used path =
      (Target.mk location name file).outcome os conf req path := by
  rw [Target.outcome, Target.outcome, scriptOutput_used]
  rfl

theorem pathOutcome_used (os : Os) (conf : ConfigDTO) (req : HttpRequestDTO) (cwd : Str)
    (path : Path) :
    pathOutcome os conf.used req.used cwd path = pathOutcome os conf req cwd path := by
  have hstatus : req.used.responseStatusCode = req.responseStatusCode := rfl
  have hroot : serverRoot cwd conf.used = serverRoot cwd conf := rfl
  have hlocations : conf.used.locations = conf.locations.map LocationConfig.used := rfl
  rw [pathOutcome, pathOutcome, hstatus, hroot, hlocations, search_used, lastFile_used]
  split
  · rfl
  · cases search os cwd (serverRoot cwd conf) path.pathDir path.pathFile conf.locations with
    | none => rfl
    | some found =>
      dsimp only [Option.map_some]
      rw [outcome_target]
      rfl

theorem outcome_used (os : Os) (conf : ConfigDTO) (req : HttpRequestDTO) :
    outcome os conf.used req.used = outcome os conf req := by
  have hpath : req.used.path = req.path := rfl
  rw [outcome, outcome, hpath]
  cases os.getcwd with
  | none => rfl
  | some cwd =>
    dsimp only
    cases Path.ofPathquery req.path with
    | error e => rfl
    | ok path => exact pathOutcome_used os conf req cwd path

theorem build_used (os : Os) (conf : ConfigDTO) (req : HttpRequestDTO) :
    ((build os req.used).run (new conf.used)).1 = ((build os req).run (new conf)).1 := by
  rw [build_eq, build_eq, outcome_used]
  cases outcome os conf req <;> rfl

end HttpResponseBuilder

end Webserv
