import Webserv.Response.CGIRun
import Webserv.Response.HttpResponseBuilder

/-!
# Which file is a script, and for which interpreter

`isCGI` looks for the configured extensions anywhere in the name of the file that was found,
`Path` looks for two extensions of its own anywhere in the name that was requested, and `run`
looks the one that `Path` found up in two tables.  The three agree if and only if no configured
extension stands in the name, or the one that `Path` finds is configured and ends the name.
-/

namespace Webserv

open Text

namespace HttpResponseBuilder

open CGI (EXEC_PATHS EXEC_COMMANDS)

def ProperSuffix (extension name : Str) : Prop := extension <:+ name ∧ extension ≠ name

/-- A file is a script exactly when its name ends in a configured extension, and is then run by
the interpreter of that extension. -/
structure Dispatches (location : LocationConfig) (name : Str) (path : Path) : Prop where
  script : isCGI location name = true ↔
    ∃ extension ∈ location.cgiExtensions, ProperSuffix extension name
  interpreter : isCGI location name = true →
    ∃ extension ∈ location.cgiExtensions, ProperSuffix extension name ∧
      ∃ execPath command,
        EXEC_PATHS[path.extension]? = some execPath ∧
        EXEC_COMMANDS[path.extension]? = some command ∧
        EXEC_PATHS[extension]? = some execPath ∧ EXEC_COMMANDS[extension]? = some command

/-- The extension that stands in the requested name is configured and ends the name found. -/
inductive ScriptOf (location : LocationConfig) (pathFile name : Str) : Prop
  | python (occurs : lit ".py" <:+: pathFile) (configured : lit ".py" ∈ location.cgiExtensions)
      (suffix : ProperSuffix (lit ".py") name)
  | perl (noPython : ¬ lit ".py" <:+: pathFile) (occurs : lit ".pl" <:+: pathFile)
      (configured : lit ".pl" ∈ location.cgiExtensions) (suffix : ProperSuffix (lit ".pl") name)

theorem isCGI_iff {location : LocationConfig} {name : Str} :
    isCGI location name = true ↔
      ∃ extension ∈ location.cgiExtensions, extension <:+: name ∧ extension ≠ name := by
  rw [isCGI, List.any_eq_true]
  refine exists_congr fun extension => and_congr_right fun _ => ?_
  rw [Bool.and_eq_true, find_isSome_iff, decide_eq_true_eq]
  refine and_congr_right fun hinfix => not_congr ?_
  constructor
  · intro hlen
    exact hinfix.eq_of_length hlen.symm
  · intro heq
    rw [heq]

/-! ## The tables -/

theorem mem_EXEC_PATHS_iff {extension : Str} :
    extension ∈ EXEC_PATHS ↔ extension = lit ".py" ∨ extension = lit ".pl" := by
  rw [EXEC_PATHS, Std.ExtTreeMap.mem_ofList]
  simp

/-- Different extensions have different interpreters. -/
theorem eq_of_EXEC_PATHS {e f execPath : Str} (he : EXEC_PATHS[e]? = some execPath)
    (hf : EXEC_PATHS[f]? = some execPath) : e = f := by
  have hmem : ∀ {g : Str}, EXEC_PATHS[g]? = some execPath → g = lit ".py" ∨ g = lit ".pl" := by
    intro g hg
    rw [← mem_EXEC_PATHS_iff, Std.ExtTreeMap.mem_iff_isSome_getElem?, hg]
    rfl
  have hne : EXEC_PATHS[lit ".py"]? ≠ EXEC_PATHS[lit ".pl"]? := by decide
  rcases hmem he with rfl | rfl <;> rcases hmem hf with rfl | rfl
  · rfl
  · exact absurd (he.trans hf.symm) hne
  · exact absurd (hf.trans he.symm) hne
  · rfl

theorem exists_interpreter {extension : Str} (h : extension = lit ".py" ∨ extension = lit ".pl") :
    ∃ execPath command, EXEC_PATHS[extension]? = some execPath ∧
      EXEC_COMMANDS[extension]? = some command := by
  rcases h with rfl | rfl
  · exact ⟨_, _, rfl, rfl⟩
  · exact ⟨_, _, rfl, rfl⟩

/-! ## The extension of a path -/

theorem extension_eq {pathquery : Str} {path : Path} (h : Path.ofPathquery pathquery = .ok path) :
    path.extension = Path.setExtension path.pathFile := by
  obtain ⟨⟨pathDir, pathFile⟩, -, h⟩ := Except.bind_eq_ok_iff.mp h
  rw [← Except.ok.inj h]

theorem setExtension_cases (pathFile : Str) :
    (lit ".py" <:+: pathFile ∧ Path.setExtension pathFile = lit ".py") ∨
      (¬ lit ".py" <:+: pathFile ∧ lit ".pl" <:+: pathFile ∧
        Path.setExtension pathFile = lit ".pl") ∨
      (¬ lit ".py" <:+: pathFile ∧ ¬ lit ".pl" <:+: pathFile ∧
        Path.setExtension pathFile = []) := by
  unfold Path.setExtension
  simp only [find_isSome_iff]
  by_cases hpy : lit ".py" <:+: pathFile
  · exact Or.inl ⟨hpy, if_pos hpy⟩
  · rw [if_neg hpy]
    by_cases hpl : lit ".pl" <:+: pathFile
    · exact Or.inr (Or.inl ⟨hpy, hpl, if_pos hpl⟩)
    · exact Or.inr (Or.inr ⟨hpy, hpl, if_neg hpl⟩)

theorem scriptOf_iff {location : LocationConfig} {pathFile name : Str} :
    ScriptOf location pathFile name ↔
      (Path.setExtension pathFile = lit ".py" ∨ Path.setExtension pathFile = lit ".pl") ∧
        Path.setExtension pathFile ∈ location.cgiExtensions ∧
        ProperSuffix (Path.setExtension pathFile) name := by
  have hne : lit ".pl" ≠ lit ".py" := by decide
  rcases setExtension_cases pathFile with ⟨hpy, hext⟩ | ⟨hpy, hpl, hext⟩ | ⟨hpy, hpl, hext⟩
  · rw [hext]
    constructor
    · rintro (⟨-, hmem, hsuffix⟩ | ⟨hno, -, -, -⟩)
      · exact ⟨Or.inl rfl, hmem, hsuffix⟩
      · exact absurd hpy hno
    · rintro ⟨-, hmem, hsuffix⟩
      exact .python hpy hmem hsuffix
  · rw [hext]
    constructor
    · rintro (⟨hpy', -, -⟩ | ⟨-, -, hmem, hsuffix⟩)
      · exact absurd hpy' hpy
      · exact ⟨Or.inr rfl, hmem, hsuffix⟩
    · rintro ⟨-, hmem, hsuffix⟩
      exact .perl hpy hpl hmem hsuffix
  · rw [hext]
    constructor
    · rintro (⟨hpy', -, -⟩ | ⟨-, hpl', -, -⟩)
      · exact absurd hpy' hpy
      · exact absurd hpl' hpl
    · rintro ⟨hnil | hnil, -, -⟩
      · exact absurd hnil (by decide)
      · exact absurd hnil (by decide)

/-- Dispatch and interpreter agree if and only if no configured extension stands in the name, or
the one that `Path` takes from the requested name is the right one. -/
theorem dispatches_iff {pathquery : Str} {path : Path} (h : Path.ofPathquery pathquery = .ok path)
    (location : LocationConfig) (name : Str) :
    Dispatches location name path ↔
      (∀ extension ∈ location.cgiExtensions, extension <:+: name → extension = name) ∨
        ScriptOf location path.pathFile name := by
  rw [scriptOf_iff, ← extension_eq h]
  by_cases hcgi : isCGI location name = true
  · constructor
    · intro hdispatches
      obtain ⟨extension, hmem, hsuffix, execPath, command, hpath, -, hexec, -⟩ :=
        hdispatches.interpreter hcgi
      obtain rfl := eq_of_EXEC_PATHS hpath hexec
      refine Or.inr ⟨?_, hmem, hsuffix⟩
      rw [← mem_EXEC_PATHS_iff, Std.ExtTreeMap.mem_iff_isSome_getElem?, hpath]
      rfl
    · rintro (hnone | ⟨hext, hmem, hsuffix⟩)
      · obtain ⟨extension, hmem, hinfix, hne⟩ := isCGI_iff.mp hcgi
        exact absurd (hnone extension hmem hinfix) hne
      · obtain ⟨execPath, command, hpath, hcommand⟩ := exists_interpreter hext
        exact ⟨iff_of_true hcgi ⟨_, hmem, hsuffix⟩, fun _ =>
          ⟨_, hmem, hsuffix, execPath, command, hpath, hcommand, hpath, hcommand⟩⟩
  · have hnone : ∀ extension ∈ location.cgiExtensions, extension <:+: name → extension = name := by
      intro extension hmem hinfix
      by_contra hne
      exact hcgi (isCGI_iff.mpr ⟨extension, hmem, hinfix, hne⟩)
    refine iff_of_true ⟨iff_of_false hcgi ?_, fun hscript => absurd hscript hcgi⟩ (Or.inl hnone)
    rintro ⟨extension, hmem, hsuffix, hne⟩
    exact hne (hnone extension hmem hsuffix.isInfix)

/-- A location for scripts with these extensions. -/
def scriptLocation (cgiExtensions : List Str) : LocationConfig :=
  { (default : LocationConfig) with location := lit "/", cgiExtensions := cgiExtensions }

/-- The path that `/` and a file name are. -/
def filePath (file : Str) : Path where
  rawPath := 47 :: file
  query := []
  args := [[]]
  vecPath := [file]
  pathDir := lit "/"
  pathFile := file
  extension := Path.setExtension file

theorem dispatches_iff_python :
    Dispatches (scriptLocation [lit ".py"]) (lit "cgi.py") (filePath (lit "cgi.py")) ↔
      (∀ extension ∈ (scriptLocation [lit ".py"]).cgiExtensions,
          extension <:+: lit "cgi.py" → extension = lit "cgi.py") ∨
        ScriptOf (scriptLocation [lit ".py"]) (filePath (lit "cgi.py")).pathFile (lit "cgi.py") :=
  dispatches_iff (show Path.ofPathquery (lit "/cgi.py") = .ok (filePath (lit "cgi.py")) by decide)
    _ _

/-- An extension inside the name, one that has no interpreter, and one of an index file. -/
theorem not_dispatches :
    ¬ Dispatches (scriptLocation [lit ".py"]) (lit "a.py.txt") (filePath (lit "a.py.txt")) ∧
      ¬ Dispatches (scriptLocation [lit ".php"]) (lit "a.php") (filePath (lit "a.php")) ∧
      ¬ Dispatches (scriptLocation [lit ".py"]) (lit "index.py") (filePath []) := by
  refine ⟨fun h => ?_, fun h => ?_, fun h => ?_⟩
  · obtain ⟨extension, hmem, hsuffix, -⟩ := h.script.mp (by decide)
    obtain rfl := List.mem_singleton.mp hmem
    exact absurd hsuffix (by decide)
  · obtain ⟨extension, -, -, execPath, command, hpath, -⟩ := h.interpreter (by decide)
    have hnone : EXEC_PATHS[(filePath (lit "a.php")).extension]? = none := rfl
    cases hpath.symm.trans hnone
  · obtain ⟨extension, -, -, execPath, command, hpath, -⟩ := h.interpreter (by decide)
    have hnone : EXEC_PATHS[(filePath []).extension]? = none := rfl
    cases hpath.symm.trans hnone

end HttpResponseBuilder

end Webserv
