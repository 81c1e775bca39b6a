import Webserv.Control.Except
import Webserv.Exception
import Webserv.Text.Search

/-!
# `Path`

The parts of a request path.  The constructor throws when there is no slash in front of the
query.
-/

namespace Webserv

open Text

structure Path where
  rawPath : Str
  query : Str
  args : List Str
  vecPath : List Str
  pathDir : Str
  pathFile : Str
  extension : Str
  deriving DecidableEq

namespace Path

/-- `raw_path_` and `query_`. -/
def splitPathQuery (pathquery : Str) : Str × Str :=
  match findFirst (· = 63) pathquery (some 0) with
  | none => (pathquery, [])
  | some queryPos => (pathquery.take queryPos, pathquery.drop (queryPos + 1))

/-- The loop of `splitStr`.  A separator is not empty, so the length of the text is enough
fuel. -/
def splitLoop (sep : Str) : Nat → Str → List Str
  | 0, str => [str]
  | fuel + 1, str =>
    match find sep str with
    | none => [str]
    | some splitPos => str.take splitPos :: splitLoop sep fuel (str.drop (splitPos + sep.length))

def splitStr (str sep : Str) : List Str := splitLoop sep str.length str

def createArgs (query : Str) : List Str :=
  if query.contains 61 then [] else splitStr query (lit "+")

/-- `path_dir_` and `path_file_`. -/
def parseRequestPath (reqPath : Str) : Except Exn (Str × Str) :=
  match findLast (· = 47) reqPath with
  | none => .error (.runtimeError "no slash found in request path")
  | some lastSlashPos => .ok (reqPath.take (lastSlashPos + 1), reqPath.drop (lastSlashPos + 1))

def setExtension (pathFile : Str) : Str :=
  if (find (lit ".py") pathFile).isSome then lit ".py"
  else if (find (lit ".pl") pathFile).isSome then lit ".pl"
  else []

def ofPathquery (pathquery : Str) : Except Exn Path := do
  let (rawPath, query) := splitPathQuery pathquery
  let vecPath := (splitStr rawPath (lit "/")).tail
  let (pathDir, pathFile) ← parseRequestPath rawPath
  return ⟨rawPath, query, createArgs query, vecPath, pathDir, pathFile, setExtension pathFile⟩

/-! ## Accepted paths -/

/-- There is a slash in front of the query. -/
def HasSlash (pathquery : Str) : Prop := ∃ a b, pathquery = a ++ 47 :: b ∧ 63 ∉ a

theorem findLast_eq_none_iff {p : Byte → Bool} {s : Str} :
    findLast p s = none ↔ ∀ c ∈ s, p c = false := by
  simp [findLast]

theorem splitPathQuery_fst (pathquery : Str) :
    (splitPathQuery pathquery).1 = pathquery.takeWhile (· ≠ 63) := by
  unfold splitPathQuery
  cases h : findFirst (fun c => c = 63) pathquery (some 0) with
  | none =>
    refine (List.takeWhile_eq_self_iff.mpr fun c hc => ?_).symm
    simpa using findFirst_eq_none h c hc
  | some i =>
    obtain ⟨a, c, b, hab, ha, hc, rfl⟩ := findFirst_eq_some h
    rw [List.drop_zero] at hab
    have hall : ∀ d ∈ a, decide (d ≠ 63) = true := fun d hd => by simpa using ha d hd
    have hstop : (c :: b).takeWhile (· ≠ 63) = [] :=
      List.takeWhile_cons_of_neg (by simpa using hc)
    rw [hab, List.takeWhile_append_of_pos hall, hstop, List.append_nil, Nat.zero_add]
    exact List.take_left' rfl

theorem hasSlash_iff {pathquery : Str} :
    HasSlash pathquery ↔ 47 ∈ (splitPathQuery pathquery).1 := by
  rw [splitPathQuery_fst]
  constructor
  · intro h
    obtain ⟨a, b, rfl, ha⟩ := h
    have hall : ∀ c ∈ a, decide (c ≠ 63) = true := by
      intro c hc
      refine decide_eq_true ?_
      intro heq
      exact ha (heq ▸ hc)
    rw [List.takeWhile_append_of_pos hall]
    simp
  · intro h
    obtain ⟨a, b, hab⟩ := List.append_of_mem h
    refine ⟨a, b ++ pathquery.dropWhile (· ≠ 63), ?_, ?_⟩
    · rw [← List.cons_append, ← List.append_assoc, ← hab, List.takeWhile_append_dropWhile]
    · intro hmem
      have hin : 63 ∈ pathquery.takeWhile (· ≠ 63) := by
        rw [hab]
        exact List.mem_append_left _ hmem
      simpa using List.mem_takeWhile_imp hin

theorem parseRequestPath_ok_iff {reqPath : Str} :
    (∃ r, parseRequestPath reqPath = .ok r) ↔ 47 ∈ reqPath := by
  unfold parseRequestPath
  cases h : findLast (fun c => c = 47) reqPath with
  | none =>
    have hall := findLast_eq_none_iff.mp h
    constructor
    · intro hr
      obtain ⟨_, hr⟩ := hr
      cases hr
    · intro hmem
      exact absurd (hall 47 hmem) (by simp)
  | some pos =>
    constructor
    · intro _
      by_contra hmem
      have hnone := findLast_eq_none_iff (p := fun c => c = 47).mpr fun c hc =>
        decide_eq_false fun heq => hmem (heq ▸ hc)
      rw [hnone] at h
      cases h
    · intro _
      exact ⟨_, rfl⟩

/-- The constructor throws exactly when there is no slash in front of the query. -/
theorem ofPathquery_of_hasSlash {pathquery : Str} (h : HasSlash pathquery) :
    ∃ path, ofPathquery pathquery = .ok path := by
  obtain ⟨⟨dir, file⟩, hr⟩ := parseRequestPath_ok_iff.mpr (hasSlash_iff.mp h)
  exact ⟨_, by simp only [ofPathquery, hr, Except.ok_bind]; rfl⟩

theorem ofPathquery_of_not_hasSlash {pathquery : Str} (h : ¬ HasSlash pathquery) :
    ofPathquery pathquery = .error (.runtimeError "no slash found in request path") := by
  have hr : ¬ ∃ r, parseRequestPath (splitPathQuery pathquery).1 = .ok r := by
    rw [parseRequestPath_ok_iff, ← hasSlash_iff]
    exact h
  unfold ofPathquery
  dsimp only
  cases hparse : parseRequestPath (splitPathQuery pathquery).1 with
  | ok r => exact absurd ⟨r, hparse⟩ hr
  | error e =>
    unfold parseRequestPath at hparse
    split at hparse
    · rw [← Except.error.inj hparse]
      rfl
    · cases hparse

theorem rawPath_ne_nil {pathquery : Str} {path : Path} (h : ofPathquery pathquery = .ok path) :
    path.rawPath ≠ [] := by
  unfold ofPathquery at h
  dsimp only at h
  cases hparse : parseRequestPath (splitPathQuery pathquery).1 with
  | error e =>
    rw [hparse] at h
    cases h
  | ok r =>
    rw [hparse] at h
    obtain rfl := Except.ok.inj h
    exact List.ne_nil_of_mem (parseRequestPath_ok_iff.mp ⟨r, hparse⟩)

end Path

end Webserv
