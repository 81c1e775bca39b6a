import Webserv.Response.Outcome

/-!
# What a response can tell

The files that a response depends on, but for the programs that are run for it: those that are
listed in the directory of a location, and the configured error pages.  Two systems that agree on
these, and in which the programs answer the same, give the same response to every request.
-/

namespace Webserv

open Text

namespace HttpResponseBuilder

/-! ## Published files -/

/-- The directories in which an error page is looked for. -/
inductive PageRoot (os : Os) (conf : ConfigDTO) : Str → Prop
  | none : os.getcwd = none → PageRoot os conf []
  | server (cwd : Str) : os.getcwd = some cwd → PageRoot os conf (serverRoot cwd conf)
  | location (l : LocationConfig) : l ∈ conf.locations → PageRoot os conf l.root

/-- The paths of the files that a response may be made from. -/
inductive Published (os : Os) (conf : ConfigDTO) : Str → Prop
  | file (cwd name : Str) (l : LocationConfig) (names : List Str) : os.getcwd = some cwd →
    l ∈ conf.locations →
    os.opendir (cStr (locationDir cwd (serverRoot cwd conf) l)) = some names →
    cStr name ∈ names →
    Published os conf (cStr (locationDir cwd (serverRoot cwd conf) l ++ name))
  | page (root : Str) (httpStatus : Int) (page : Str) : PageRoot os conf root →
    conf.errorPages[httpStatus]? = some page → Published os conf (cStr (root ++ page))

/-- The two systems differ at most in files that are not published.  A program that is run for a
request is such a file, too, and answers the same. -/
structure AgreesWith (conf : ConfigDTO) (os os' : Os) : Prop where
  getcwd : os'.getcwd = os.getcwd
  now : os'.now = os.now
  cgi : os'.cgi = os.cgi
  opendir : ∀ cwd, os.getcwd = some cwd → ∀ l ∈ conf.locations,
    os'.opendir (cStr (locationDir cwd (serverRoot cwd conf) l)) =
      os.opendir (cStr (locationDir cwd (serverRoot cwd conf) l))
  files : ∀ path, Published os conf path → os'.access path = os.access path ∧
    os'.ifstream path = os.ifstream path ∧ os'.stat path = os.stat path

/-! ## The search -/

section

variable {os os' : Os} {cwd base dir : Str}

theorem search_congr {locations : List LocationConfig}
    (h : ∀ l ∈ locations, os'.opendir (cStr (locationDir cwd base l)) =
      os.opendir (cStr (locationDir cwd base l))) (file : Str) :
    search os' cwd base dir file locations = search os cwd base dir file locations := by
  induction locations generalizing file with
  | nil => rfl
  | cons l rest ih =>
    rw [List.forall_mem_cons] at h
    rw [search, search, h.1, ih h.2, ih h.2]

theorem lastFile_congr {locations : List LocationConfig}
    (h : ∀ l ∈ locations, os'.opendir (cStr (locationDir cwd base l)) =
      os.opendir (cStr (locationDir cwd base l))) (file : Str) :
    lastFile os' cwd base dir file locations = lastFile os cwd base dir file locations := by
  induction locations generalizing file with
  | nil => rfl
  | cons l rest ih =>
    rw [List.forall_mem_cons] at h
    rw [lastFile, lastFile, h.1, ih h.2, ih h.2]

end

/-! ## Error pages -/

/-- The page of a failure is looked for in one of the directories for this. -/
def Outcome.PageRooted (os : Os) (conf : ConfigDTO) : Outcome → Prop
  | .failed f => ∀ root, f.pageRoot = some root → PageRoot os conf root
  | _ => True

section

variable {os os' : Os} {conf : ConfigDTO} {req : HttpRequestDTO}

theorem AgreesWith.failure (h : AgreesWith conf os os') {f : Failure}
    (hf : ∀ root, f.pageRoot = some root → PageRoot os conf root) :
    f.response os' conf req = f.response os conf req := by
  have hbody : f.body os' conf = f.body os conf := by
    rw [Failure.body, Failure.body]
    dsimp only
    cases hpage : conf.errorPages[f.httpStatus]? with
    | none => rfl
    | some page =>
      rw [Option.getD_some]
      split
      · rfl
      · cases hroot : f.pageRoot with
        | none => rfl
        | some root =>
          have hpublished := Published.page root f.httpStatus page (hf root hroot) hpage
          dsimp only
          rw [(h.files _ hpublished).2.1]
  rw [Failure.response, Failure.response, hbody, buildDate, buildDate, h.now]

theorem AgreesWith.answer (h : AgreesWith conf os os') {o : Outcome} (ho : o.PageRooted os conf) :
    o.answer os' conf req = o.answer os conf req := by
  cases o with
  | failed f => rw [Outcome.answer, Outcome.answer, h.failure ho]
  | _ => rfl

variable {t : Target}

theorem Target.fails_pageRooted (hl : t.location ∈ conf.locations) (httpStatus : Int)
    (written server : Str) : (t.fails httpStatus written server).PageRooted os conf := by
  intro root hroot
  dsimp only at hroot
  split at hroot
  · rw [← Option.some.inj hroot]
    exact .location _ hl
  · cases hroot

theorem Target.serves_pageRooted (hl : t.location ∈ conf.locations) (contentType body : Str) :
    (t.serves os conf req contentType body).PageRooted os conf := by
  rw [Target.serves]
  split
  · exact fails_pageRooted hl 500 body conf.server
  · trivial

theorem Target.outcome_pageRooted (hl : t.location ∈ conf.locations) (path : Path) :
    (t.outcome os conf req path).PageRooted os conf := by
  rw [Target.outcome]
  split
  · split
    · exact fails_pageRooted hl _ [] []
    · trivial
    · exact serves_pageRooted hl _ _
  · split
    · exact serves_pageRooted hl _ _
    · split
      · exact fails_pageRooted hl 500 [] []
      · exact serves_pageRooted hl _ _

theorem outcome_pageRooted (os : Os) (conf : ConfigDTO) (req : HttpRequestDTO) :
    (outcome os conf req).PageRooted os conf := by
  rw [outcome]
  cases hcwd : os.getcwd with
  | none =>
    intro root hroot
    rw [← Option.some.inj hroot]
    exact .none hcwd
  | some cwd =>
    have hserver : ∀ (httpStatus : Int) (file : Str), (Outcome.failed
        ⟨httpStatus, some (serverRoot cwd conf), file, [], []⟩).PageRooted os conf := by
      intro httpStatus file root hroot
      rw [← Option.some.inj hroot]
      exact .server cwd hcwd
    dsimp only
    cases Path.ofPathquery req.path with
    | error e => exact hserver 500 []
    | ok path =>
      dsimp only
      rw [pathOutcome]
      dsimp only
      split
      · exact hserver _ _
      · cases hsearch : search os cwd (serverRoot cwd conf) path.pathDir path.pathFile
            conf.locations with
        | none => exact hserver 404 _
        | some found =>
          have hl : found.1 ∈ conf.locations := (search_foundIn hsearch).mem
          dsimp only
          split
          · exact Target.outcome_pageRooted hl path
          · exact Target.fails_pageRooted hl 403 [] []

/-! ## Outcomes -/

theorem AgreesWith.serves (h : AgreesWith conf os os') (ht : Published os conf (cStr t.file))
    (contentType body : Str) :
    t.serves os' conf req contentType body = t.serves os conf req contentType body := by
  rw [Target.serves, Target.serves, (h.files _ ht).2.2, buildDate, buildDate, h.now]

theorem AgreesWith.target (h : AgreesWith conf os os') (ht : Published os conf (cStr t.file))
    (path : Path) : t.outcome os' conf req path = t.outcome os conf req path := by
  rw [Target.outcome, Target.outcome, scriptOutput, scriptOutput, h.cgi, (h.files _ ht).2.1]
  simp only [h.serves ht]

theorem AgreesWith.outcome (h : AgreesWith conf os os') :
    outcome os' conf req = outcome os conf req := by
  rw [HttpResponseBuilder.outcome, HttpResponseBuilder.outcome, h.getcwd]
  cases hcwd : os.getcwd with
  | none => rfl
  | some cwd =>
    dsimp only
    cases Path.ofPathquery req.path with
    | error e => rfl
    | ok path =>
      dsimp only
      rw [pathOutcome, pathOutcome, search_congr (h.opendir cwd hcwd),
        lastFile_congr (h.opendir cwd hcwd)]
      dsimp only
      cases hsearch : search os cwd (serverRoot cwd conf) path.pathDir path.pathFile
          conf.locations with
      | none => rfl
      | some found =>
        obtain ⟨names, hnames, hname⟩ := (search_foundIn hsearch).present
        have hpublished : Published os conf
            (cStr (locationDir cwd (serverRoot cwd conf) found.1 ++ found.2)) :=
          .file cwd found.2 found.1 names hcwd (search_foundIn hsearch).mem hnames hname
        dsimp only
        rw [(h.files _ hpublished).1, h.target hpublished]

/-- The response is the same, whatever is in the other files. -/
theorem AgreesWith.build (h : AgreesWith conf os os') :
    ((build os' req).run (new conf)).1 = ((build os req).run (new conf)).1 := by
  rw [build_eq, build_eq, h.outcome, h.answer (outcome_pageRooted os conf req)]

end

end HttpResponseBuilder

end Webserv
