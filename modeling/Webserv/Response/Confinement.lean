import Webserv.Response.Access
import Webserv.Response.Dispatch
import Webserv.Response.PathParts

/-!
# The directory of the file that is found

The search compares the directory of the request with the configured locations, and the names it
looks for with what `readdir` returns.  That keeps it inside the directory of a location, but for
the two entries that every directory has besides its files.
-/

namespace Webserv

open Text

/-- The entry of a directory itself, or of its parent. -/
def IsDotName (name : Str) : Prop := cStr name = lit "." ∨ cStr name = lit ".."

instance (name : Str) : Decidable (IsDotName name) := by
  unfold IsDotName
  infer_instance

theorem isDotName_iff {name : Str} : IsDotName name ↔ cStr name ∈ [lit ".", lit ".."] := by
  simp [IsDotName]

theorem IsDotName.slash_free {name : Str} (h : IsDotName name) (hname : cStr name = name) :
    47 ∉ name := by
  rw [← hname]
  rcases h with h | h
  · rw [h]
    decide
  · rw [h]
    decide

/-- `readdir` returns names of entries: they are not empty, and have no slash. -/
def Os.EntryNames (os : Os) : Prop :=
  ∀ dir names, os.opendir dir = some names → ∀ name ∈ names, name ≠ [] ∧ 47 ∉ name

/-- The index names are texts without NUL. -/
def ConfigDTO.IndexesNulFree (conf : ConfigDTO) : Prop :=
  ∀ location ∈ conf.locations, ∀ index ∈ location.indexes, 0 ∉ index

namespace HttpResponseBuilder

/-- A file in the directory of a configured location, which is that of the request. -/
def InLocation (conf : ConfigDTO) (cwd : Str) (path : Path) (file : Str) : Prop :=
  ∃ location ∈ conf.locations, ∃ name, location.location = path.pathDir ∧
    file = locationDir cwd (serverRoot cwd conf) location ++ name ∧
    name ≠ [] ∧ 47 ∉ name ∧ ¬ IsDotName name

/-- What is found for the request is such a file, whatever is on the disk. -/
def Confined (conf : ConfigDTO) (path : Path) : Prop :=
  ∀ (os : Os) (cwd : Str) (b : HttpResponseBuilder), os.getcwd = some cwd → os.EntryNames →
    (findFileInServer os).run ((new conf).located cwd path) = (.ok (), b) →
    InLocation conf cwd path b.filepathPath

/-- The names that the search looks for, as long as it finds none of them. -/
def lookedFor (dir : Str) : Str → List LocationConfig → List Str
  | _, [] => []
  | file, location :: rest =>
    if location.location = dir then
      candidates file location ++ lookedFor dir (nextFile file location) rest
    else lookedFor dir file rest

/-! ## The names -/

theorem mem_candidates {file name : Str} {location : LocationConfig}
    (h : name ∈ candidates file location) :
    name = file ∧ file ≠ [] ∨ name = lit "index.html" ∨ name ∈ location.indexes := by
  unfold candidates at h
  split at h
  · next hfile => exact Or.inl ⟨List.mem_singleton.mp h, hfile⟩
  · split at h
    · exact Or.inr (Or.inl (List.mem_singleton.mp h))
    · exact Or.inr (Or.inr h)

theorem mem_lookedFor {dir file name : Str} {locations : List LocationConfig}
    (h : name ∈ lookedFor dir file locations) :
    name = file ∧ file ≠ [] ∨ name = lit "index.html" ∨
      ∃ location ∈ locations, name ∈ location.indexes := by
  induction locations generalizing file with
  | nil => cases h
  | cons location rest ih =>
    rw [lookedFor] at h
    have hlater {f : Str} (hf : name ∈ lookedFor dir f rest) :
        name = f ∧ f ≠ [] ∨ name = lit "index.html" ∨
          ∃ l ∈ location :: rest, name ∈ l.indexes := by
      refine (ih hf).imp_right (Or.imp_right ?_)
      rintro ⟨l, hl, hindex⟩
      exact ⟨l, List.mem_cons_of_mem _ hl, hindex⟩
    split at h
    · rcases List.mem_append.mp h with hhere | hrest
      · refine (mem_candidates hhere).imp_right (Or.imp_right fun hindex => ?_)
        exact ⟨location, List.mem_cons_self .., hindex⟩
      · unfold nextFile at hrest
        split at hrest
        · rcases hlater hrest with ⟨hdefault, -⟩ | hother
          · exact Or.inr (Or.inl hdefault)
          · exact Or.inr hother
        · exact hlater hrest
    · exact hlater h

/-- What the search finds is one of the names. -/
theorem search_lookedFor {os : Os} {cwd base dir file name : Str}
    {locations : List LocationConfig} {location : LocationConfig}
    (h : search os cwd base dir file locations = some (location, name)) :
    name ∈ lookedFor dir file locations := by
  induction locations generalizing file with
  | nil => cases h
  | cons l rest ih =>
    rw [lookedFor]
    rcases search_cons h with ⟨hl, rfl, hname, -⟩ | ⟨hl, hsearch⟩ | ⟨hl, hsearch⟩
    · rw [if_pos hl]
      exact List.mem_append_left _ hname
    · rw [if_pos hl]
      exact List.mem_append_right _ (ih hsearch)
    · rw [if_neg hl]
      exact ih hsearch

/-- When every directory has the same entries, the search finds one of the names that are among
them. -/
theorem exists_search {os : Os} {names : List Str} (hdir : ∀ dir, os.opendir dir = some names)
    (cwd base : Str) {dir file : Str} {locations : List LocationConfig}
    (h : ∃ name ∈ lookedFor dir file locations, cStr name ∈ names) :
    ∃ location name, search os cwd base dir file locations = some (location, name) ∧
      cStr name ∈ names := by
  induction locations generalizing file with
  | nil =>
    obtain ⟨name, hname, -⟩ := h
    cases hname
  | cons l rest ih =>
    obtain ⟨name, hname, hin⟩ := h
    rw [search]
    rw [lookedFor] at hname
    split at hname
    · next hl =>
      rw [if_pos hl, hdir]
      dsimp only
      cases hfind : (candidates file l).find? fun name => names.contains (cStr name) with
      | some found =>
        refine ⟨l, found, rfl, List.contains_iff_mem.mp ?_⟩
        simpa only using List.find?_some hfind
      | none =>
        rcases List.mem_append.mp hname with hhere | hrest
        · exact absurd (List.contains_iff_mem.mpr hin) (List.find?_eq_none.mp hfind name hhere)
        · exact ih ⟨name, hrest, hin⟩
    · next hl =>
      rw [if_neg hl]
      exact ih ⟨name, hname, hin⟩

/-! ## The file -/

/-- What the search is called with for a request. -/
def requestedNames (conf : ConfigDTO) (path : Path) : List Str :=
  lookedFor path.pathDir path.pathFile conf.locations

section

variable {conf : ConfigDTO} {pathquery : Str} {path : Path}

/-- A name with a slash comes from a list of indexes and has no NUL. -/
theorem requestedNames_slash (hindexes : conf.IndexesNulFree)
    (hpath : Path.ofPathquery pathquery = .ok path) {name : Str}
    (h : name ∈ requestedNames conf path) (hslash : 47 ∈ name) : cStr name = name := by
  rcases mem_lookedFor h with ⟨rfl, -⟩ | rfl | ⟨location, hlocation, hindex⟩
  · exact absurd hslash (Path.ofPathquery_parts hpath).2.1
  · exact absurd hslash (by decide)
  · exact cStr_eq_self (hindexes location hlocation name hindex)

/-- A directory and the name of an entry are told apart by the last slash. -/
theorem name_eq_of_append {dir dir' name name' : Str} (hdir : IsDirText dir)
    (hdir' : IsDirText dir') (hname : 47 ∉ name) (hname' : 47 ∉ name')
    (h : dir ++ name = dir' ++ name') : name = name' := by
  obtain ⟨front, rfl⟩ := hdir
  obtain ⟨front', rfl⟩ := hdir'
  have hcomponents := congrArg components h
  rw [List.append_assoc, List.append_assoc, List.singleton_append, List.singleton_append,
    components_append, components_append, components_of_not_mem hname,
    components_of_not_mem hname'] at hcomponents
  exact List.singleton_inj.mp (List.append_inj' hcomponents rfl).2

theorem locationDir_isDirText (hpath : Path.ofPathquery pathquery = .ok path)
    {location : LocationConfig} (h : location.location = path.pathDir) (cwd base : Str) :
    IsDirText (locationDir cwd base location) := by
  obtain ⟨front, hfront⟩ := (Path.ofPathquery_parts hpath).1
  refine ⟨resolveRoot cwd location.root base ++ front, ?_⟩
  rw [locationDir, h, hfront, List.append_assoc]

/-- What `findFileInServer` does when it succeeds. -/
theorem findFileInServer_search {os : Os} {cwd : Str} {b : HttpResponseBuilder}
    (hcwd : os.getcwd = some cwd)
    (h : (findFileInServer os).run ((new conf).located cwd path) = (.ok (), b)) :
    ∃ location name,
      search os cwd (serverRoot cwd conf) path.pathDir path.pathFile conf.locations =
        some (location, name) ∧
      b.filepathPath = locationDir cwd (serverRoot cwd conf) location ++ name := by
  cases hsearch : search os cwd (serverRoot cwd conf) path.pathDir path.pathFile
      conf.locations with
  | none =>
    obtain ⟨msg, locIt, hrun⟩ :=
      findFileInServer_absent (b := (new conf).located cwd path) hcwd rfl hsearch
    rw [hrun] at h
    cases h
  | some p =>
    obtain ⟨location, name⟩ := p
    obtain ⟨locIt, hrun⟩ := findFileInServer_searched hcwd hsearch
    rw [hrun] at h
    obtain ⟨-, rfl⟩ := Prod.mk.inj h
    exact ⟨location, name, rfl, rfl⟩

/-- A directory with nothing in it. -/
def emptyDirOs : Os where
  getcwd := some (lit "/srv")
  opendir := fun _ => some [lit ".", lit ".."]
  access := fun _ => true
  ifstream := fun _ => none
  stat := fun _ => none
  now := []
  cgi := .silent

theorem emptyDirOs_entryNames : emptyDirOs.EntryNames := by
  intro dir names hnames name hname
  obtain rfl := Option.some.inj hnames
  simp only [List.mem_cons, List.not_mem_nil, or_false] at hname
  rcases hname with rfl | rfl
  · decide
  · decide

/-- The directory itself is found when it is looked for. -/
theorem not_confined_of_isDotName (hindexes : conf.IndexesNulFree)
    (hpath : Path.ofPathquery pathquery = .ok path) {name : Str}
    (hname : name ∈ requestedNames conf path) (hdot : IsDotName name) : ¬ Confined conf path := by
  intro hconfined
  obtain ⟨location, found, hsearch, hfound⟩ := exists_search
    (show ∀ dir, emptyDirOs.opendir dir = some _ from fun _ => rfl)
    (lit "/srv") (serverRoot (lit "/srv") conf) ⟨name, hname, isDotName_iff.mp hdot⟩
  obtain ⟨locIt, hrun⟩ := findFileInServer_searched rfl hsearch
  obtain ⟨location', -, name', hlocation', hfile, -, hslash', hnot⟩ :=
    hconfined emptyDirOs (lit "/srv") _ rfl emptyDirOs_entryNames hrun
  have hdotFound := isDotName_iff.mpr hfound
  have hslash : 47 ∉ found := by
    intro hmem
    have hself := requestedNames_slash hindexes hpath (search_lookedFor hsearch) hmem
    exact hdotFound.slash_free hself hmem
  have heq : found = name' := name_eq_of_append
    (locationDir_isDirText hpath (search_foundIn hsearch).location_eq _ _)
    (locationDir_isDirText hpath hlocation' _ _) hslash hslash' hfile
  exact hnot (heq ▸ hdotFound)

/-- The file that is found is one of the directory of a configured location exactly when the
names that are looked for are not those of the directory itself and its parent. -/
theorem confined_iff (conf : ConfigDTO) (hindexes : conf.IndexesNulFree) (pathquery : Str)
    (path : Path) (hpath : Path.ofPathquery pathquery = .ok path) :
    Confined conf path ↔ ∀ name ∈ requestedNames conf path, ¬ IsDotName name := by
  constructor
  · intro hconfined name hname hdot
    exact not_confined_of_isDotName hindexes hpath hname hdot hconfined
  · intro hnames os cwd b hcwd hentries hrun
    obtain ⟨location, name, hsearch, hfile⟩ := findFileInServer_search hcwd hrun
    have hfound := search_foundIn hsearch
    have hrequested : name ∈ requestedNames conf path := search_lookedFor hsearch
    obtain ⟨names, hnames', hin⟩ := hfound.present
    obtain ⟨hne, hslash⟩ := hentries _ names hnames' _ hin
    refine ⟨location, hfound.mem, name, hfound.location_eq, hfile, ?_, ?_, hnames name hrequested⟩
    · rintro rfl
      exact hne rfl
    · intro hmem
      rw [requestedNames_slash hindexes hpath hrequested hmem] at hslash
      exact hslash hmem

end

theorem siteConf_indexesNulFree : siteConf.IndexesNulFree := by
  intro location hlocation
  obtain rfl := List.mem_singleton.mp hlocation
  exact List.forall_mem_nil _

theorem confined_iff_index :
    Confined siteConf (filePath (lit "index.html")) ↔
      ∀ name ∈ requestedNames siteConf (filePath (lit "index.html")), ¬ IsDotName name :=
  confined_iff siteConf siteConf_indexesNulFree (lit "/index.html") _ (by decide)

/-- No segment of the text is one of the two entries. -/
def NoDotSegment (text : Str) : Prop :=
  ∀ segment ∈ components text, segment ≠ lit "." ∧ segment ≠ lit ".."

/-- `GET /..` finds the parent of the directory. -/
theorem not_confined : ¬ ∀ conf pathquery path,
    (∀ location ∈ conf.locations, NoDotSegment location.location) → conf.IndexesNulFree →
    Path.ofPathquery pathquery = .ok path → Confined conf path := by
  intro h
  have hpath : Path.ofPathquery (lit "/..") = .ok (filePath (lit "..")) := by decide
  have hsegments : ∀ location ∈ siteConf.locations, NoDotSegment location.location := by
    intro location hlocation
    obtain rfl := List.mem_singleton.mp hlocation
    unfold NoDotSegment
    decide
  exact not_confined_of_isDotName siteConf_indexesNulFree hpath (List.mem_singleton_self (lit ".."))
    (by decide) (h siteConf (lit "/..") _ hsegments siteConf_indexesNulFree hpath)

end HttpResponseBuilder

end Webserv
