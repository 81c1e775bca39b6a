import Webserv.Response.SystemCalls

/-!
# The search, call by call

What the timed methods find, without their members: one `getcwd` for each location that is looked
at, then one `opendir` for each name.
-/

namespace Webserv

open Text

namespace HttpResponseBuilder

namespace Timed

open Method (call still)

/-! ## The names of a directory -/

/-- How the search for some names ends, with the number of calls made by then. -/
inductive Look
  | noDir (calls : Nat)
  | absent (calls : Nat)
  | present (name : Str) (calls : Nat)

/-- Every name is looked for in a listing of its own. -/
def lookUp (os : Nat → Os) (dir : Str) : List Str → Nat → Look
  | [], n => .absent n
  | name :: rest, n =>
    match (os n).opendir (cStr dir) with
    | none => .noDir (n + 1)
    | some names =>
      if names.contains (cStr name) then .present name (n + 1) else lookUp os dir rest (n + 1)

/-- The builder when the names were looked for, with the name that is left behind if none of them
is there. -/
def Look.ends (dir file : Str) (b : HttpResponseBuilder) :
    Look → Except Raised Unit × (HttpResponseBuilder × Nat)
  | .noDir n =>
    (.error (.std (.response 404 "directory not found")), { b with pathFile := file }, n)
  | .absent n => (.ok (), { b with pathFile := file }, n)
  | .present name n =>
    (.ok (),
      { b with filepathPath := dir ++ name, filepathExists := true, pathFile := name }, n)

section

variable (os : Nat → Os) {dir : Str} {n : Nat} {b : HttpResponseBuilder}

theorem findActualFilepath_look (b : HttpResponseBuilder) :
    (call os fun os => findActualFilepath os dir b.pathFile).run (b, n) =
      (lookUp os dir [b.pathFile] n).ends dir b.pathFile b := by
  rw [Method.run_call, lookUp]
  cases hdir : (os n).opendir (cStr dir) with
  | none =>
    rw [findActualFilepath_noDir hdir]
    rfl
  | some names =>
    dsimp only
    cases hname : names.contains (cStr b.pathFile) with
    | true =>
      rw [findActualFilepath_present hdir hname]
      rfl
    | false =>
      rw [findActualFilepath_absent hdir hname]
      rfl

theorem tryIndexes_look (hb : b.filepathExists = false) (indexes : List Str) (n : Nat) :
    (tryIndexes os dir indexes).run (b, n) =
      (lookUp os dir indexes n).ends dir b.pathFile b := by
  induction indexes generalizing n with
  | nil => rfl
  | cons index rest ih =>
    have hcall := Method.run_call os (fun os => findActualFilepath os dir index) (b, n)
    rw [tryIndexes, lookUp]
    cases hdir : (os n).opendir (cStr dir) with
    | none =>
      rw [findActualFilepath_noDir hdir] at hcall
      rw [Method.run_bind_error hcall]
      rfl
    | some names =>
      dsimp only
      cases hname : names.contains (cStr index) with
      | true =>
        rw [findActualFilepath_present hdir hname] at hcall
        rw [Method.run_bind_ok hcall]
        rfl
      | false =>
        rw [findActualFilepath_absent hdir hname] at hcall
        rw [Method.run_bind_ok hcall, Method.run_get_bind, if_neg (by rw [hb]; decide),
          if_neg (by decide)]
        exact ih (n + 1)

/-- The search in the directory of one matching location. -/
def lookIn (dir : Str) (location : LocationConfig) (pathFile : Str) : TimedM Unit :=
  if pathFile = [] then findIndexFilepath os dir location
  else call os fun os => findActualFilepath os dir pathFile

theorem lookIn_run (dir : Str) (hb : b.filepathExists = false) (location : LocationConfig)
    (n : Nat) :
    (lookIn os dir location b.pathFile).run (b, n) =
      (lookUp os dir (candidates b.pathFile location) n).ends dir (nextFile b.pathFile location)
        b := by
  rw [lookIn, candidates, nextFile]
  by_cases hfile : b.pathFile = []
  · rw [if_pos hfile, if_neg (not_not.mpr hfile), findIndexFilepath]
    by_cases hindexes : location.indexes = []
    · rw [if_pos hindexes, if_pos hindexes, if_pos ⟨hfile, hindexes⟩]
      exact findActualFilepath_look os { b with pathFile := lit "index.html" }
    · rw [if_neg hindexes, if_neg hindexes, if_neg fun h => hindexes h.2]
      exact tryIndexes_look os hb location.indexes n
  · rw [if_neg hfile, if_pos hfile, if_neg fun h => hfile h.1]
    exact findActualFilepath_look os b

end

/-! ## The locations -/

/-- A file that was found in the directory of a location, after this number of calls. -/
structure Find where
  location : LocationConfig
  dir : Str
  name : Str
  calls : Nat

namespace Find

def file (f : Find) : Str := f.dir ++ f.name

def isScript (f : Find) : Bool := isCGI f.location f.name

def isDelete (f : Find) (method : Str) : Bool :=
  method ∈ f.location.allowedMethods ∧ method = lit "DELETE"

end Find

/-- The first file found.  The first call that fails ends the search. -/
def search (os : Nat → Os) (base dir : Str) : Str → List LocationConfig → Nat → Option Find
  | _, [], _ => none
  | file, location :: rest, n =>
    if location.location = dir then
      match (os n).getcwd with
      | none => none
      | some cwd =>
        match lookUp os (locationDir cwd base location) (candidates file location) (n + 1) with
        | .noDir _ => none
        | .absent n => search os base dir (nextFile file location) rest n
        | .present name n => some ⟨location, locationDir cwd base location, name, n⟩
    else search os base dir file rest n

/-- The file that is found for a request. -/
def findFor (os : Nat → Os) (conf : ConfigDTO) (req : HttpRequestDTO) : Option Find :=
  match (os 0).getcwd with
  | none => none
  | some cwd =>
    match Path.ofPathquery req.path with
    | .error _ => none
    | .ok path =>
      if req.responseStatusCode ≠ HttpStatus.ok then none
      else search os (serverRoot cwd conf) path.pathDir path.pathFile conf.locations 1

section

variable {os : Nat → Os} {b : HttpResponseBuilder} {n : Nat}

theorem findLoop_skip {location : LocationConfig} (h : location.location ≠ b.pathDir)
    (rest : List LocationConfig) :
    (findLoop os (location :: rest)).run (b, n) =
      (findLoop os rest).run ({ b with locIt := rest }, n) := by
  rw [findLoop, Method.run_get_bind, if_neg h]
  rfl

theorem findLoop_noCwd (hcwd : (os n).getcwd = none) {location : LocationConfig}
    (h : location.location = b.pathDir) (rest : List LocationConfig) :
    (findLoop os (location :: rest)).run (b, n) =
      (.error (.std (.response 500 "getcwd")), b, n + 1) := by
  have hroot : (call os fun os => getActualRoot os location).run (b, n) =
      (.error (.std (.response 500 "getcwd")), b, n + 1) := by
    rw [Method.run_call, getActualRoot, getCurrentPath, hcwd]
    rfl
  rw [findLoop, Method.run_get_bind, if_pos h, Method.run_bind_error hroot]

theorem findLoop_match {cwd : Str} (hcwd : (os n).getcwd = some cwd) {location : LocationConfig}
    (h : location.location = b.pathDir) (rest : List LocationConfig) :
    (findLoop os (location :: rest)).run (b, n) =
      (lookIn os (locationDir cwd b.defaultRoot location) location b.pathFile >>= fun _ => do
        let s ← get
        if s.1.filepathExists then
          still (modify fun b => { b with foundLocation := location })
        else do
          still (modify fun b => { b with locIt := rest })
          findLoop os rest).run (b, n + 1) := by
  have hroot : (call os fun os => getActualRoot os location).run (b, n) =
      (.ok (resolveRoot cwd location.root b.defaultRoot), b, n + 1) := by
    rw [Method.run_call, getActualRoot_run hcwd]
  rw [findLoop, Method.run_get_bind, if_pos h, Method.run_bind_ok hroot]
  unfold lookIn locationDir
  dsimp only
  split <;> rfl

/-- How the loop ends when the search has this outcome. -/
inductive LoopEnds (b : HttpResponseBuilder) :
    Option Find → Except Raised Unit × (HttpResponseBuilder × Nat) → Prop
  | present (f : Find) (locIt : List LocationConfig) :
    LoopEnds b (some f)
      (.ok (), { found b f.location f.dir f.name with locIt := locIt }, f.calls)
  | absent (file : Str) (locIt : List LocationConfig) (calls : Nat) :
    LoopEnds b none (.ok (), missed b file locIt, calls)
  | stopped (e : Exn) (file : Str) (locIt : List LocationConfig) (calls : Nat) :
    LoopEnds b none (.error (.std e), missed b file locIt, calls)

theorem LoopEnds.of_missed {file : Str} {locIt : List LocationConfig} {o : Option Find}
    {r : Except Raised Unit × (HttpResponseBuilder × Nat)}
    (h : LoopEnds (missed b file locIt) o r) : LoopEnds b o r := by
  cases h with
  | present f locIt => exact .present f locIt
  | absent file locIt calls => exact .absent file locIt calls
  | stopped e file locIt calls => exact .stopped e file locIt calls

theorem findLoop_run (os : Nat → Os) (locations : List LocationConfig)
    (hb : b.filepathExists = false) (n : Nat) :
    LoopEnds b (search os b.defaultRoot b.pathDir b.pathFile locations n)
      ((findLoop os locations).run (b, n)) := by
  induction locations generalizing b n with
  | nil => exact .absent b.pathFile b.locIt n
  | cons location rest ih =>
    rw [search]
    by_cases hlocation : location.location = b.pathDir
    · rw [if_pos hlocation]
      cases hcwd : (os n).getcwd with
      | none =>
        rw [findLoop_noCwd hcwd hlocation]
        exact .stopped _ b.pathFile b.locIt (n + 1)
      | some cwd =>
        have hlook := lookIn_run os (locationDir cwd b.defaultRoot location) hb location (n + 1)
        rw [findLoop_match hcwd hlocation]
        dsimp only
        cases houtcome : lookUp os (locationDir cwd b.defaultRoot location)
            (candidates b.pathFile location) (n + 1) with
        | noDir calls =>
          rw [houtcome] at hlook
          rw [Method.run_bind_error hlook]
          exact .stopped _ _ b.locIt calls
        | absent calls =>
          rw [houtcome] at hlook
          rw [Method.run_bind_ok hlook, Method.run_get_bind, if_neg (by rw [hb]; decide)]
          exact .of_missed (ih (b := missed b (nextFile b.pathFile location) rest) hb calls)
        | present name calls =>
          rw [houtcome] at hlook
          rw [Method.run_bind_ok hlook]
          exact .present ⟨location, _, name, calls⟩ b.locIt
    · rw [if_neg hlocation, findLoop_skip hlocation]
      exact .of_missed (ih (b := missed b b.pathFile rest) hb n)

/-! ## The same answers every time -/

theorem candidates_ne_nil (file : Str) (location : LocationConfig) :
    candidates file location ≠ [] := by
  unfold candidates
  split
  · exact List.cons_ne_nil file []
  · split
    · exact List.cons_ne_nil _ []
    · next h => exact h

theorem lookUp_noDir {os : Os} {dir : Str} (h : os.opendir (cStr dir) = none) {names : List Str}
    (hne : names ≠ []) (n : Nat) : lookUp (fun _ => os) dir names n = .noDir (n + 1) := by
  cases names with
  | nil => exact absurd rfl hne
  | cons name rest => rw [lookUp, h]

theorem lookUp_absent {os : Os} {dir : Str} {listing : List Str}
    (h : os.opendir (cStr dir) = some listing) {names : List Str}
    (hnames : names.find? (fun name => listing.contains (cStr name)) = none) (n : Nat) :
    lookUp (fun _ => os) dir names n = .absent (n + names.length) := by
  induction names generalizing n with
  | nil => rfl
  | cons name rest ih =>
    rw [List.find?_cons] at hnames
    rw [lookUp, h]
    dsimp only
    cases hname : listing.contains (cStr name) with
    | true =>
      rw [hname] at hnames
      cases hnames
    | false =>
      rw [hname] at hnames
      rw [if_neg (by decide), ih hnames, List.length_cons, Nat.add_assoc, Nat.add_comm 1]

theorem lookUp_present {os : Os} {dir : Str} {listing : List Str}
    (h : os.opendir (cStr dir) = some listing) {names : List Str} {name : Str}
    (hnames : names.find? (fun name => listing.contains (cStr name)) = some name) (n : Nat) :
    ∃ calls, lookUp (fun _ => os) dir names n = .present name calls := by
  induction names generalizing n with
  | nil => cases hnames
  | cons first rest ih =>
    rw [List.find?_cons] at hnames
    rw [lookUp, h]
    dsimp only
    cases hfirst : listing.contains (cStr first) with
    | true =>
      rw [hfirst] at hnames
      obtain rfl := Option.some.inj hnames
      exact ⟨n + 1, if_pos rfl⟩
    | false =>
      rw [hfirst] at hnames
      rw [if_neg (by decide)]
      exact ih hnames (n + 1)

/-- With the same answers every time it is the search from before. -/
theorem search_same {os : Os} {cwd : Str} (hcwd : os.getcwd = some cwd) (base dir file : Str)
    (locations : List LocationConfig) (n : Nat) :
    (search (fun _ => os) base dir file locations n).map (fun f => (f.location, f.name)) =
      HttpResponseBuilder.search os cwd base dir file locations := by
  induction locations generalizing file n with
  | nil => rfl
  | cons location rest ih =>
    rw [search, HttpResponseBuilder.search]
    split
    · rw [hcwd]
      dsimp only
      cases hdir : os.opendir (cStr (locationDir cwd base location)) with
      | none => rw [lookUp_noDir hdir (candidates_ne_nil file location), Option.map_none]
      | some listing =>
        dsimp only
        cases hname : (candidates file location).find? fun name =>
            listing.contains (cStr name) with
        | none =>
          rw [lookUp_absent hdir hname]
          exact ih (nextFile file location) _
        | some name =>
          obtain ⟨calls, hlook⟩ := lookUp_present hdir hname (n + 1)
          rw [hlook]
          rfl
    · exact ih file n

/-! ## Admission -/

theorem findAllowed_found {f : Find} (hb : b.filepathExists = false) (hcgi : b.isFileCgi = false)
    (hdelete : b.isDelete = false)
    (h : search os b.defaultRoot b.pathDir b.pathFile b.locIt n = some f) (req : HttpRequestDTO) :
    ∃ locIt, (findAllowed os req).run (b, n) =
      (if ¬ allowed f.location f.name req.method then
          .error (.std (.response 403 "not allowed method"))
        else if (os f.calls).access (cStr f.file) = false then
          .error (.std (.response 403 "file does not have permission"))
        else .ok (),
        admitted { found b f.location f.dir f.name with locIt := locIt } req.method,
        f.calls + 1) := by
  have hends := findLoop_run os b.locIt hb n
  rw [h] at hends
  generalize hrun : (findLoop os b.locIt).run (b, n) = r at hends
  cases hends with
  | present _ locIt =>
    have hfind : (findFileInServer os).run (b, n) =
        (.ok (), { found b f.location f.dir f.name with locIt := locIt }, f.calls) := by
      rw [findFileInServer, Method.run_get_bind, Method.run_bind_ok hrun]
      rfl
    refine ⟨locIt, ?_⟩
    rw [findAllowed, Method.run_bind_ok hfind, Method.run_call,
      checkOptions_run (os f.calls) (by exact hcgi) (by exact hdelete)]
    rfl

theorem findAllowed_missed (hb : b.filepathExists = false)
    (h : search os b.defaultRoot b.pathDir b.pathFile b.locIt n = none) (req : HttpRequestDTO) :
    ∃ e file locIt calls, (findAllowed os req).run (b, n) =
      (.error (.std e), missed b file locIt, calls) := by
  have hends := findLoop_run os b.locIt hb n
  rw [h] at hends
  generalize hrun : (findLoop os b.locIt).run (b, n) = r at hends
  suffices hfind : ∃ e file locIt calls, (findFileInServer os).run (b, n) =
      (.error (.std e), missed b file locIt, calls) by
    obtain ⟨e, file, locIt, calls, hfind⟩ := hfind
    exact ⟨e, file, locIt, calls, Method.run_bind_error hfind _⟩
  cases hends with
  | absent file locIt calls =>
    refine ⟨.response 404 "file not found", file, locIt, calls, ?_⟩
    rw [findFileInServer, Method.run_get_bind, Method.run_bind_ok hrun, Method.run_get_bind,
      if_pos (by simp [missed, hb])]
    rfl
  | stopped e file locIt calls =>
    refine ⟨e, file, locIt, calls, ?_⟩
    rw [findFileInServer, Method.run_get_bind, Method.run_bind_error hrun]

end

end Timed

end HttpResponseBuilder

end Webserv
