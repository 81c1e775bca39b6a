import Webserv.Response.HttpResponseBuilder

/-!
# Finding and admitting the requested file

The search without its mutable members: which location and which file name `findFileInServer`
settles on, and whether `checkOptions` admits them.
-/

namespace Webserv

open Text

namespace HttpResponseBuilder

/-- A configured root: a default when there is none, and relative to `cwd` when it is not
absolute. -/
def resolveRoot (cwd root base : Str) : Str :=
  if root = [] then base else if root.head? = some 47 then root else cwd ++ SLASH ++ root

/-- The root of the server. -/
def serverRoot (cwd : Str) (conf : ConfigDTO) : Str := resolveRoot cwd conf.root cwd

/-- The directory of a location. -/
def locationDir (cwd base : Str) (location : LocationConfig) : Str :=
  resolveRoot cwd location.root base ++ location.location

/-- The names that are looked for in the directory of a location. -/
def candidates (file : Str) (location : LocationConfig) : List Str :=
  if file ≠ [] then [file]
  else if location.indexes = [] then [lit "index.html"]
  else location.indexes

/-- What a location without a list of indexes leaves behind for the locations after it. -/
def nextFile (file : Str) (location : LocationConfig) : Str :=
  if file = [] ∧ location.indexes = [] then lit "index.html" else file

/-- The location and the name of the first file found.  A directory that cannot be opened ends
the search. -/
def search (os : Os) (cwd base dir : Str) :
    Str → List LocationConfig → Option (LocationConfig × Str)
  | _, [] => none
  | file, location :: rest =>
    if location.location = dir then
      match os.opendir (cStr (locationDir cwd base location)) with
      | none => none
      | some names =>
        match (candidates file location).find? fun name => names.contains (cStr name) with
        | some name => some (location, name)
        | none => search os cwd base dir (nextFile file location) rest
    else search os cwd base dir file rest

/-- The name that a search without success leaves behind. -/
def lastFile (os : Os) (cwd base dir : Str) : Str → List LocationConfig → Str
  | file, [] => file
  | file, location :: rest =>
    if location.location = dir then
      match os.opendir (cStr (locationDir cwd base location)) with
      | none => nextFile file location
      | some _ => lastFile os cwd base dir (nextFile file location) rest
    else lastFile os cwd base dir file rest

/-- The builder once the file is found. -/
def found (b : HttpResponseBuilder) (location : LocationConfig) (dir name : Str) :
    HttpResponseBuilder :=
  { b with
    filepathPath := dir ++ name
    filepathExists := true
    pathFile := name
    foundLocation := location }

/-! ## The search in one directory -/

theorem findActualFilepath_noDir {os : Os} {dir : Str} (h : os.opendir (cStr dir) = none)
    (file : Str) (b : HttpResponseBuilder) :
    (findActualFilepath os dir file).run b =
      (.error (.std (.response 404 "directory not found")), b) := by
  rw [findActualFilepath, h]
  rfl

theorem findActualFilepath_present {os : Os} {dir file : Str} {names : List Str}
    (h : os.opendir (cStr dir) = some names) (hfile : names.contains (cStr file) = true)
    (b : HttpResponseBuilder) :
    (findActualFilepath os dir file).run b =
      (.ok (), { b with filepathPath := dir ++ file, filepathExists := true }) := by
  rw [findActualFilepath, h]
  dsimp only
  rw [if_pos hfile]
  rfl

theorem findActualFilepath_absent {os : Os} {dir file : Str} {names : List Str}
    (h : os.opendir (cStr dir) = some names) (hfile : names.contains (cStr file) = false)
    (b : HttpResponseBuilder) : (findActualFilepath os dir file).run b = (.ok (), b) := by
  rw [findActualFilepath, h]
  dsimp only
  rw [if_neg (by simp only [hfile]; decide)]
  rfl

theorem tryIndexes_noDir {os : Os} {dir : Str} (h : os.opendir (cStr dir) = none)
    {indexes : List Str} (hne : indexes ≠ []) (b : HttpResponseBuilder) :
    (tryIndexes os dir indexes).run b =
      (.error (.std (.response 404 "directory not found")), b) := by
  cases indexes with
  | nil => exact absurd rfl hne
  | cons index rest => rw [tryIndexes, Method.run_bind_error (findActualFilepath_noDir h index b)]

/-- An index that is not there is passed over. -/
theorem tryIndexes_cons_absent {os : Os} {dir index : Str} {names : List Str}
    (h : os.opendir (cStr dir) = some names) {b : HttpResponseBuilder}
    (hb : b.filepathExists = false) (hindex : names.contains (cStr index) = false)
    (rest : List Str) :
    (tryIndexes os dir (index :: rest)).run b = (tryIndexes os dir rest).run b := by
  rw [tryIndexes, Method.run_bind_ok (findActualFilepath_absent h hindex b),
    Method.run_get_bind, if_neg (by rw [hb]; decide)]

theorem tryIndexes_present {os : Os} {dir name : Str} {names indexes : List Str}
    (h : os.opendir (cStr dir) = some names) {b : HttpResponseBuilder}
    (hb : b.filepathExists = false)
    (hname : indexes.find? (fun name => names.contains (cStr name)) = some name) :
    (tryIndexes os dir indexes).run b =
      (.ok (),
        { b with filepathPath := dir ++ name, filepathExists := true, pathFile := name }) := by
  induction indexes with
  | nil => cases hname
  | cons index rest ih =>
    rw [List.find?_cons] at hname
    cases hindex : names.contains (cStr index) with
    | true =>
      rw [hindex] at hname
      obtain rfl := Option.some.inj hname
      rw [tryIndexes, Method.run_bind_ok (findActualFilepath_present h hindex b)]
      rfl
    | false =>
      rw [hindex] at hname
      rw [tryIndexes_cons_absent h hb hindex]
      exact ih hname

theorem tryIndexes_absent {os : Os} {dir : Str} {names indexes : List Str}
    (h : os.opendir (cStr dir) = some names) {b : HttpResponseBuilder}
    (hb : b.filepathExists = false)
    (hname : indexes.find? (fun name => names.contains (cStr name)) = none) :
    (tryIndexes os dir indexes).run b = (.ok (), b) := by
  induction indexes with
  | nil => rfl
  | cons index rest ih =>
    rw [List.find?_cons] at hname
    cases hindex : names.contains (cStr index) with
    | true =>
      rw [hindex] at hname
      cases hname
    | false =>
      rw [hindex] at hname
      rw [tryIndexes_cons_absent h hb hindex]
      exact ih hname

/-- The search in the directory of one matching location. -/
def lookIn (os : Os) (dir : Str) (location : LocationConfig) (pathFile : Str) : BuilderM Unit :=
  if pathFile = [] then findIndexFilepath os dir location
  else findActualFilepath os dir pathFile

theorem lookIn_noDir {os : Os} {dir : Str} (h : os.opendir (cStr dir) = none)
    (location : LocationConfig) (b : HttpResponseBuilder) :
    (lookIn os dir location b.pathFile).run b =
      (.error (.std (.response 404 "directory not found")),
        { b with pathFile := nextFile b.pathFile location }) := by
  unfold lookIn findIndexFilepath nextFile
  split
  · next hfile =>
    split
    · next hindexes =>
      rw [Method.run_modify_bind, findActualFilepath_noDir h, if_pos ⟨hfile, hindexes⟩]
    · next hindexes =>
      rw [if_neg fun h => hindexes h.2]
      exact tryIndexes_noDir h hindexes b
  · next hfile =>
    rw [if_neg fun h => hfile h.1]
    exact findActualFilepath_noDir h b.pathFile b

theorem lookIn_present {os : Os} {dir name : Str} {names : List Str}
    (h : os.opendir (cStr dir) = some names) {location : LocationConfig} {b : HttpResponseBuilder}
    (hb : b.filepathExists = false)
    (hname : (candidates b.pathFile location).find? (fun name => names.contains (cStr name)) =
      some name) :
    (lookIn os dir location b.pathFile).run b =
      (.ok (),
        { b with filepathPath := dir ++ name, filepathExists := true, pathFile := name }) := by
  unfold lookIn findIndexFilepath
  unfold candidates at hname
  split
  · next hfile =>
    rw [if_neg (not_not.mpr hfile)] at hname
    split
    · next hindexes =>
      rw [if_pos hindexes, List.find?_singleton] at hname
      split at hname
      · next hpresent =>
        obtain rfl := Option.some.inj hname
        rw [Method.run_modify_bind, findActualFilepath_present h hpresent]
      · cases hname
    · next hindexes =>
      rw [if_neg hindexes] at hname
      exact tryIndexes_present h hb hname
  · next hfile =>
    rw [if_pos hfile, List.find?_singleton] at hname
    split at hname
    · next hpresent =>
      obtain rfl := Option.some.inj hname
      exact findActualFilepath_present h hpresent b
    · cases hname

theorem lookIn_absent {os : Os} {dir : Str} {names : List Str}
    (h : os.opendir (cStr dir) = some names) {location : LocationConfig} {b : HttpResponseBuilder}
    (hb : b.filepathExists = false)
    (hname : (candidates b.pathFile location).find? (fun name => names.contains (cStr name)) =
      none) :
    (lookIn os dir location b.pathFile).run b =
      (.ok (), { b with pathFile := nextFile b.pathFile location }) := by
  unfold lookIn findIndexFilepath nextFile
  unfold candidates at hname
  split
  · next hfile =>
    rw [if_neg (not_not.mpr hfile)] at hname
    split
    · next hindexes =>
      rw [if_pos hindexes, List.find?_singleton] at hname
      split at hname
      · cases hname
      · next habsent =>
        rw [Method.run_modify_bind,
          findActualFilepath_absent h (Bool.eq_false_iff.mpr habsent), if_pos ⟨hfile, hindexes⟩]
    · next hindexes =>
      rw [if_neg hindexes] at hname
      rw [tryIndexes_absent h hb hname, if_neg fun h => hindexes h.2]
  · next hfile =>
    rw [if_pos hfile, List.find?_singleton] at hname
    split at hname
    · cases hname
    · next habsent =>
      rw [findActualFilepath_absent h (Bool.eq_false_iff.mpr habsent), if_neg fun h => hfile h.1]

/-! ## The search over the locations -/

theorem getCurrentPath_run {os : Os} {cwd : Str} (h : os.getcwd = some cwd)
    (b : HttpResponseBuilder) : (getCurrentPath os).run b = (.ok cwd, b) := by
  rw [getCurrentPath, h]
  rfl

theorem getActualRoot_run {os : Os} {cwd : Str} (h : os.getcwd = some cwd)
    (location : LocationConfig) (b : HttpResponseBuilder) :
    (getActualRoot os location).run b =
      (.ok (resolveRoot cwd location.root b.defaultRoot), b) := by
  rw [getActualRoot, Method.run_bind_ok (getCurrentPath_run h b)]
  rfl

theorem findLoop_skip {os : Os} {location : LocationConfig} {b : HttpResponseBuilder}
    (h : location.location ≠ b.pathDir) (rest : List LocationConfig) :
    (findLoop os (location :: rest)).run b = (findLoop os rest).run { b with locIt := rest } := by
  rw [findLoop, Method.run_get_bind, if_neg h, Method.run_modify_bind]

theorem findLoop_match {os : Os} {cwd : Str} (hcwd : os.getcwd = some cwd)
    {location : LocationConfig} {b : HttpResponseBuilder} (h : location.location = b.pathDir)
    (rest : List LocationConfig) :
    (findLoop os (location :: rest)).run b =
      (lookIn os (locationDir cwd b.defaultRoot location) location b.pathFile >>= fun _ => do
        let b ← get
        if b.filepathExists then
          modify fun b => { b with foundLocation := location }
        else do
          modify fun b => { b with locIt := rest }
          findLoop os rest).run b := by
  rw [findLoop, Method.run_get_bind, if_pos h,
    Method.run_bind_ok (getActualRoot_run hcwd location b)]
  unfold lookIn locationDir
  dsimp only
  split <;> rfl

/-- The state in which the search ends without a file. -/
def missed (b : HttpResponseBuilder) (file : Str) (locIt : List LocationConfig) :
    HttpResponseBuilder :=
  { b with pathFile := file, locIt := locIt }

/-- How the loop ends when the search has this outcome. -/
inductive LoopEnds (b : HttpResponseBuilder) (dirOf : LocationConfig → Str) :
    Option (LocationConfig × Str) → Except Raised Unit × HttpResponseBuilder → Prop
  | present (location : LocationConfig) (name : Str) (locIt : List LocationConfig) :
    LoopEnds b dirOf (some (location, name))
      (.ok (), { found b location (dirOf location) name with locIt := locIt })
  | absent (file : Str) (locIt : List LocationConfig) :
    LoopEnds b dirOf none (.ok (), missed b file locIt)
  | noDir (file : Str) (locIt : List LocationConfig) :
    LoopEnds b dirOf none
      (.error (.std (.response 404 "directory not found")), missed b file locIt)

theorem LoopEnds.of_missed {b : HttpResponseBuilder} {dirOf : LocationConfig → Str} {file : Str}
    {locIt : List LocationConfig} {o : Option (LocationConfig × Str)}
    {r : Except Raised Unit × HttpResponseBuilder} (h : LoopEnds (missed b file locIt) dirOf o r) :
    LoopEnds b dirOf o r := by
  cases h with
  | present location name locIt => exact .present location name locIt
  | absent file locIt => exact .absent file locIt
  | noDir file locIt => exact .noDir file locIt

theorem findLoop_run {os : Os} {cwd : Str} (hcwd : os.getcwd = some cwd)
    (locations : List LocationConfig) {b : HttpResponseBuilder} (hb : b.filepathExists = false) :
    LoopEnds b (locationDir cwd b.defaultRoot)
      (search os cwd b.defaultRoot b.pathDir b.pathFile locations)
      ((findLoop os locations).run b) := by
  induction locations generalizing b with
  | nil => exact .absent b.pathFile b.locIt
  | cons location rest ih =>
    rw [search]
    by_cases hlocation : location.location = b.pathDir
    · rw [if_pos hlocation, findLoop_match hcwd hlocation]
      cases hdir : os.opendir (cStr (locationDir cwd b.defaultRoot location)) with
      | none =>
        rw [Method.run_bind_error (lookIn_noDir hdir location b)]
        exact .noDir _ b.locIt
      | some names =>
        dsimp only
        cases hname : (candidates b.pathFile location).find? fun name =>
            names.contains (cStr name) with
        | some name =>
          rw [Method.run_bind_ok (lookIn_present hdir hb hname)]
          exact .present location name b.locIt
        | none =>
          rw [Method.run_bind_ok (lookIn_absent hdir hb hname), Method.run_get_bind,
            if_neg (by rw [hb]; decide), Method.run_modify_bind]
          exact .of_missed (ih (b := missed b (nextFile b.pathFile location) rest) hb)
    · rw [if_neg hlocation, findLoop_skip hlocation]
      exact .of_missed (ih (b := missed b b.pathFile rest) hb)

theorem findLoop_lastFile {os : Os} {cwd : Str} (hcwd : os.getcwd = some cwd)
    (locations : List LocationConfig) {b : HttpResponseBuilder} (hb : b.filepathExists = false)
    (h : search os cwd b.defaultRoot b.pathDir b.pathFile locations = none) :
    ((findLoop os locations).run b).2.pathFile =
      lastFile os cwd b.defaultRoot b.pathDir b.pathFile locations := by
  induction locations generalizing b with
  | nil => rfl
  | cons location rest ih =>
    rw [search] at h
    rw [lastFile]
    by_cases hlocation : location.location = b.pathDir
    · rw [if_pos hlocation] at h ⊢
      rw [findLoop_match hcwd hlocation]
      cases hdir : os.opendir (cStr (locationDir cwd b.defaultRoot location)) with
      | none => rw [Method.run_bind_error (lookIn_noDir hdir location b)]
      | some names =>
        rw [hdir] at h
        dsimp only at h ⊢
        cases hname : (candidates b.pathFile location).find? fun name =>
            names.contains (cStr name) with
        | some name =>
          rw [hname] at h
          cases h
        | none =>
          rw [hname] at h
          rw [Method.run_bind_ok (lookIn_absent hdir hb hname), Method.run_get_bind,
            if_neg (by rw [hb]; decide), Method.run_modify_bind]
          exact ih (b := missed b (nextFile b.pathFile location) rest) hb h
    · rw [if_neg hlocation] at h ⊢
      rw [findLoop_skip hlocation]
      exact ih (b := missed b b.pathFile rest) hb h

theorem findFileInServer_present {os : Os} {cwd : Str} (hcwd : os.getcwd = some cwd)
    {b : HttpResponseBuilder} (hb : b.filepathExists = false) {location : LocationConfig}
    {name : Str}
    (h : search os cwd b.defaultRoot b.pathDir b.pathFile b.locIt = some (location, name)) :
    ∃ locIt, (findFileInServer os).run b =
      (.ok (),
        { found b location (locationDir cwd b.defaultRoot location) name with
          locIt := locIt }) := by
  have hends := findLoop_run hcwd b.locIt hb
  rw [h] at hends
  generalize hrun : (findLoop os b.locIt).run b = r at hends
  cases hends with
  | present _ _ locIt =>
    refine ⟨locIt, ?_⟩
    rw [findFileInServer, Method.run_get_bind, Method.run_bind_ok hrun]
    rfl

theorem findFileInServer_absent {os : Os} {cwd : Str} (hcwd : os.getcwd = some cwd)
    {b : HttpResponseBuilder} (hb : b.filepathExists = false)
    (h : search os cwd b.defaultRoot b.pathDir b.pathFile b.locIt = none) :
    ∃ msg locIt, (findFileInServer os).run b =
      (.error (.std (.response 404 msg)),
        missed b (lastFile os cwd b.defaultRoot b.pathDir b.pathFile b.locIt) locIt) := by
  have hends := findLoop_run hcwd b.locIt hb
  rw [h] at hends
  have hlast := findLoop_lastFile hcwd b.locIt hb h
  generalize hrun : (findLoop os b.locIt).run b = r at hends hlast
  cases hends with
  | absent file locIt =>
    refine ⟨"file not found", locIt, ?_⟩
    rw [findFileInServer, Method.run_get_bind, Method.run_bind_ok hrun, Method.run_get_bind,
      if_pos (by simp [missed, hb]), ← hlast]
    rfl
  | noDir file locIt =>
    refine ⟨"directory not found", locIt, ?_⟩
    rw [findFileInServer, Method.run_get_bind, Method.run_bind_error hrun, ← hlast]
    rfl

/-! ## Admission -/

/-- The method is allowed at the location, for a file of this name. -/
def allowed (location : LocationConfig) (name method : Str) : Prop :=
  (location.allowedMethods = [] ∧ method = lit "GET") ∨
    (method ∈ location.allowedMethods ∧
      (method = lit "POST" → isCGI location name = true))

instance (location : LocationConfig) (name method : Str) :
    Decidable (allowed location name method) := by
  unfold allowed
  infer_instance

/-- The builder once the options are checked. -/
def admitted (b : HttpResponseBuilder) (method : Str) : HttpResponseBuilder :=
  { b with
    isFileCgi := isCGI b.foundLocation b.pathFile
    isDelete := method ∈ b.foundLocation.allowedMethods ∧ method = lit "DELETE" }

theorem admitted_eq_self {b : HttpResponseBuilder} {method : Str}
    (hcgi : b.isFileCgi = isCGI b.foundLocation b.pathFile) (hdelete : b.isDelete = false)
    (h : ¬ (method ∈ b.foundLocation.allowedMethods ∧ method = lit "DELETE")) :
    admitted b method = b := by
  rw [admitted, ← hcgi, decide_eq_false h, ← hdelete]

theorem admitted_delete {b : HttpResponseBuilder} {method : Str}
    (hcgi : b.isFileCgi = isCGI b.foundLocation b.pathFile)
    (h : method ∈ b.foundLocation.allowedMethods ∧ method = lit "DELETE") :
    admitted b method = { b with isDelete := true } := by
  rw [admitted, ← hcgi, decide_eq_true h]

/-- What `isAllowedMethod` answers, once it is known whether the file is a script. -/
theorem isAllowedMethod_run {req : HttpRequestDTO} {b : HttpResponseBuilder}
    (hcgi : b.isFileCgi = isCGI b.foundLocation b.pathFile) (hdelete : b.isDelete = false) :
    (isAllowedMethod req).run b =
      (.ok (decide (allowed b.foundLocation b.pathFile req.method)), admitted b req.method) := by
  rw [isAllowedMethod, Method.run_get_bind]
  by_cases hnil : b.foundLocation.allowedMethods = []
  · rw [if_pos hnil, admitted_eq_self hcgi hdelete (by simp [hnil])]
    simp [allowed, hnil]
  · rw [if_neg hnil]
    by_cases hmem : req.method ∈ b.foundLocation.allowedMethods
    · rw [if_pos (List.contains_iff_mem.mpr hmem)]
      have hallowed : decide (allowed b.foundLocation b.pathFile req.method) =
          !(decide (req.method = lit "POST") && !b.isFileCgi) := by
        rw [Bool.eq_iff_iff]
        simp [allowed, hnil, hmem, hcgi, imp_iff_not_or]
      rw [hallowed]
      by_cases hdel : req.method = lit "DELETE"
      · rw [if_pos hdel, admitted_delete hcgi ⟨hmem, hdel⟩]
        rfl
      · rw [if_neg hdel, admitted_eq_self hcgi hdelete fun h => hdel h.2]
        rfl
    · rw [if_neg (by simp [hmem]), admitted_eq_self hcgi hdelete fun h => hmem h.1]
      simp [allowed, hnil, hmem]

theorem checkOptions_run (os : Os) {req : HttpRequestDTO} {b : HttpResponseBuilder}
    (hcgi : b.isFileCgi = false) (hdelete : b.isDelete = false) :
    (checkOptions os req).run b =
      (if ¬ allowed b.foundLocation b.pathFile req.method then
          .error (.std (.response 403 "not allowed method"))
        else if os.access (cStr b.filepathPath) = false then
          .error (.std (.response 403 "file does not have permission"))
        else .ok (),
        admitted b req.method) := by
  have hset : (if isCGI b.foundLocation b.pathFile then { b with isFileCgi := true } else b) =
      { b with isFileCgi := isCGI b.foundLocation b.pathFile } := by
    cases h : isCGI b.foundLocation b.pathFile with
    | true => rfl
    | false => exact (if_neg (by decide)).trans (by rw [← hcgi])
  have hallowed : (isAllowedMethod req).run
      { b with isFileCgi := isCGI b.foundLocation b.pathFile } =
        (.ok (decide (allowed b.foundLocation b.pathFile req.method)), admitted b req.method) :=
    isAllowedMethod_run rfl hdelete
  have hreadable : (isFileReadable os).run (admitted b req.method) =
      (.ok (os.access (cStr b.filepathPath)), admitted b req.method) := rfl
  rw [checkOptions, Method.run_modify_bind, hset, Method.run_bind_ok hallowed]
  by_cases hmethod : allowed b.foundLocation b.pathFile req.method
  · rw [decide_eq_true hmethod, if_neg (by decide), if_neg (not_not.mpr hmethod)]
    rw [Method.run_bind_ok hreadable]
    cases os.access (cStr b.filepathPath) <;> rfl
  · rw [decide_eq_false hmethod, if_pos (by decide), if_pos hmethod]
    rfl

end HttpResponseBuilder

end Webserv
