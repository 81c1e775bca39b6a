import Mathlib.Data.List.Basic
import Mathlib.Data.List.Induction

/-!
# Resolving file names

A file system is a graph of nodes with named edges, and a path is a list of names that is walked
from a directory.  Symbolic links make the graph more than a tree: the parent of a directory need
not be the one it was reached through.  So a path may be shortened only at the names that stay in
their directory, at the parent of the root, and along the path of the working directory, which
has no links.  Two paths with the same shortened form name the same file in every file system,
and any two others name different files in some file system, the unfolding.
-/

universe u v

/-- The names with a meaning of their own. -/
structure DotNames (Name : Type u) where
  stay : Name → Bool
  up : Name
  stay_up : stay up = false

/-- `child` follows symbolic links. -/
structure FileSystem {Name : Type u} (dots : DotNames Name) (Node : Type v) where
  root : Node
  isDir : Node → Bool
  child : Node → Name → Option Node
  isDir_root : isDir root = true
  child_up_root : child root dots.up = some root

namespace FileSystem

variable {Name : Type u} {dots : DotNames Name} {Node : Type v} (fs : FileSystem dots Node)

/-! ## Walks -/

/-- The file of this name in a directory. -/
def entry (dir : Node) (name : Name) : Option Node :=
  if dots.stay name then some dir else fs.child dir name

def stepDir (dir : Node) (name : Name) : Option Node := (fs.entry dir name).filter fs.isDir

/-- The directory at the end of a path. -/
def walk (dir : Node) (names : List Name) : Option Node := names.foldlM fs.stepDir dir

/-- The file at the end of a path.  Whatever is in front of the last name is a directory. -/
def resolve (dir : Node) (names : List Name) : Option Node :=
  match names.getLast? with
  | none => some dir
  | some name => (fs.walk dir names.dropLast).bind (fs.entry · name)

@[simp] theorem walk_nil (dir : Node) : fs.walk dir [] = some dir := rfl

theorem walk_append (dir : Node) (names more : List Name) :
    fs.walk dir (names ++ more) = (fs.walk dir names).bind (fs.walk · more) :=
  List.foldlM_append

theorem walk_concat (dir : Node) (names : List Name) (name : Name) :
    fs.walk dir (names ++ [name]) = (fs.walk dir names).bind (fs.stepDir · name) := by
  rw [walk_append]
  refine congrArg _ (funext fun d => ?_)
  exact List.foldlM_cons.trans (Option.bind_fun_some _)

theorem resolve_concat (dir : Node) (names : List Name) (name : Name) :
    fs.resolve dir (names ++ [name]) = (fs.walk dir names).bind (fs.entry · name) := by
  rw [resolve, List.getLast?_concat, List.dropLast_concat]

theorem stepDir_stay {dir : Node} (hdir : fs.isDir dir = true) {name : Name}
    (h : dots.stay name = true) : fs.stepDir dir name = some dir := by
  rw [stepDir, entry, if_pos h, Option.filter_some_pos hdir]

theorem isDir_of_walk {dir dir' : Node} {names : List Name} (hdir : fs.isDir dir = true)
    (h : fs.walk dir names = some dir') : fs.isDir dir' = true := by
  induction names using List.reverseRecOn with
  | nil =>
    obtain rfl := Option.some.inj h
    exact hdir
  | append_singleton names name _ =>
    rw [walk_concat] at h
    obtain ⟨d, -, hstep⟩ := Option.bind_eq_some_iff.mp h
    exact (Option.filter_eq_some_iff.mp hstep).2

/-- What is reached by a longer path is reached through its front. -/
theorem exists_walk_front {dir dir' : Node} {names front : List Name}
    (h : fs.walk dir names = some dir') (hfront : front <+: names) :
    ∃ d, fs.walk dir front = some d := by
  obtain ⟨rest, rfl⟩ := hfront
  rw [walk_append] at h
  obtain ⟨d, hd, -⟩ := Option.bind_eq_some_iff.mp h
  exact ⟨d, hd⟩

/-- The path of the working directory has neither links nor dots. -/
structure Working (cwd : List Name) (dir : Node) : Prop where
  plain : ∀ name ∈ cwd, dots.stay name = false ∧ name ≠ dots.up
  walk : fs.walk fs.root cwd = some dir
  child_up : ∀ front name d e, front ++ [name] <+: cwd → fs.walk fs.root front = some d →
    fs.walk fs.root (front ++ [name]) = some e → fs.child e dots.up = some d

variable {fs} in
/-- A path from the working directory is one from the root. -/
theorem Working.resolve_cwd {cwd : List Name} {dir : Node} (h : fs.Working cwd dir)
    (names : List Name) (name : Name) :
    fs.resolve dir (names ++ [name]) = fs.resolve fs.root (cwd ++ names ++ [name]) := by
  rw [resolve_concat, resolve_concat, walk_append, h.walk, Option.bind_some]

/-! ## Shortened paths -/

section

variable [DecidableEq Name] (dots) (cwd : List Name)

def shortenStep (front : List Name) (name : Name) : List Name :=
  if dots.stay name then front
  else if name = dots.up ∧ front <+: cwd then front.dropLast
  else front ++ [name]

/-- The absolute path, shortened where every file system allows it. -/
def shorten (names : List Name) : List Name := names.foldl (shortenStep dots cwd) []

end

variable [DecidableEq Name] {cwd : List Name}

theorem shorten_concat (names : List Name) (name : Name) :
    shorten dots cwd (names ++ [name]) = shortenStep dots cwd (shorten dots cwd names) name := by
  rw [shorten, List.foldl_append]
  rfl

theorem shorten_append (names more : List Name) :
    shorten dots cwd (names ++ more) =
      more.foldl (shortenStep dots cwd) (shorten dots cwd names) :=
  List.foldl_append

/-- A path of plain names is short. -/
theorem foldl_shortenStep_plain {names : List Name}
    (h : ∀ name ∈ names, dots.stay name = false ∧ name ≠ dots.up) (front : List Name) :
    names.foldl (shortenStep dots cwd) front = front ++ names := by
  induction names generalizing front with
  | nil => exact (List.append_nil front).symm
  | cons name names ih =>
    rw [List.forall_mem_cons] at h
    have hstep : shortenStep dots cwd front name = front ++ [name] := by
      rw [shortenStep, if_neg (by simp [h.1.1]), if_neg fun hup => h.1.2 hup.1]
    rw [List.foldl_cons, hstep, ih h.2, List.append_assoc, List.singleton_append]

theorem shorten_plain {names : List Name}
    (h : ∀ name ∈ names, dots.stay name = false ∧ name ≠ dots.up) :
    shorten dots cwd names = names := foldl_shortenStep_plain h []

/-- Names that stay where they are do not count. -/
theorem foldl_shortenStep_filter (names front : List Name) :
    (names.filter fun name => !dots.stay name).foldl (shortenStep dots cwd) front =
      names.foldl (shortenStep dots cwd) front := by
  rw [List.foldl_filter]
  congr 1
  funext front name
  cases hstay : dots.stay name <;> simp [shortenStep, hstay]

variable {fs}

/-- A step along the shortened path leads where the step itself leads. -/
theorem Working.walk_shortenStep {dir : Node} (h : fs.Working cwd dir) (front : List Name)
    (name : Name) :
    fs.walk fs.root (shortenStep dots cwd front name) =
      (fs.walk fs.root front).bind (fs.stepDir · name) := by
  rw [shortenStep]
  split
  · next hstay =>
    cases hd : fs.walk fs.root front with
    | none => rfl
    | some d => exact (fs.stepDir_stay (fs.isDir_of_walk fs.isDir_root hd) hstay).symm
  · next hstay =>
    split
    · next hup =>
      obtain ⟨rfl, hprefix⟩ := hup
      obtain ⟨d, hd⟩ := fs.exists_walk_front h.walk hprefix
      rw [hd, Option.bind_some, stepDir, entry, if_neg hstay]
      induction front using List.reverseRecOn with
      | nil =>
        obtain rfl := Option.some.inj hd
        rw [fs.child_up_root, Option.filter_some_pos fs.isDir_root]
        rfl
      | append_singleton front name _ =>
        obtain ⟨e, he⟩ := fs.exists_walk_front hd (List.prefix_append front [name])
        rw [h.child_up front name e d hprefix he hd, List.dropLast_concat, he,
          Option.filter_some_pos (fs.isDir_of_walk fs.isDir_root he)]
    · exact fs.walk_concat fs.root front name

/-- Shortening a path does not change where it leads. -/
theorem Working.walk_shorten {dir : Node} (h : fs.Working cwd dir) (names : List Name) :
    fs.walk fs.root (shorten dots cwd names) = fs.walk fs.root names := by
  induction names using List.reverseRecOn with
  | nil => rfl
  | append_singleton names name ih =>
    rw [shorten_concat, h.walk_shortenStep, ih, walk_concat]

/-- Two directories with the same short path hold the same files. -/
theorem Working.resolve_eq {dir : Node} (h : fs.Working cwd dir) {names names' : List Name}
    (heq : shorten dots cwd names = shorten dots cwd names') (name : Name) :
    fs.resolve fs.root (names ++ [name]) = fs.resolve fs.root (names' ++ [name]) := by
  rw [resolve_concat, resolve_concat, ← h.walk_shorten names, heq, h.walk_shorten names']

/-! ## Paths that leave the working directory -/

theorem shortenStep_outside {front : List Name} (h : ¬ front <+: cwd) (name : Name) :
    shortenStep dots cwd front name = if dots.stay name then front else front ++ [name] := by
  rw [shortenStep, if_neg fun hup : name = dots.up ∧ _ => h hup.2]

theorem not_prefix_shortenStep {front : List Name} (h : ¬ front <+: cwd) (name : Name) :
    ¬ shortenStep dots cwd front name <+: cwd := by
  rw [shortenStep_outside h]
  split
  · exact h
  · exact fun hlonger => h ((List.prefix_append front [name]).trans hlonger)

/-- The name can be taken off again. -/
theorem eq_of_shortenStep_eq {front front' : List Name} (h : ¬ front' <+: cwd) {name : Name}
    (heq : shortenStep dots cwd front name = shortenStep dots cwd front' name) :
    front = front' := by
  rw [shortenStep_outside h, shortenStep] at heq
  split at heq
  · exact heq
  · split at heq
    · next hup =>
      have hprefix : front' <+: cwd :=
        (heq ▸ List.prefix_append front' [name] : front' <+: front.dropLast).trans
          ((List.dropLast_prefix front).trans hup.2)
      exact absurd hprefix h
    · exact List.append_cancel_right heq

theorem not_prefix_foldl {front : List Name} (h : ¬ front <+: cwd) (names : List Name) :
    ¬ names.foldl (shortenStep dots cwd) front <+: cwd := by
  induction names generalizing front with
  | nil => exact h
  | cons name names ih => exact ih (not_prefix_shortenStep h name)

theorem foldl_shortenStep_inj {front front' : List Name} (h : ¬ front' <+: cwd)
    {names : List Name} :
    names.foldl (shortenStep dots cwd) front = names.foldl (shortenStep dots cwd) front' ↔
      front = front' := by
  refine ⟨fun heq => ?_, fun heq => by rw [heq]⟩
  induction names generalizing front front' with
  | nil => exact heq
  | cons name names ih =>
    exact eq_of_shortenStep_eq h (ih (not_prefix_shortenStep h name) heq)

/-! ## The unfolding -/

variable (fs cwd) in
/-- The file system whose nodes know the shortened path they were reached by. -/
def unfold : FileSystem dots (List Name × Node) where
  root := ([], fs.root)
  isDir node := fs.isDir node.2
  child node name := (fs.child node.2 name).map (shortenStep dots cwd node.1 name, ·)
  isDir_root := fs.isDir_root
  child_up_root := by
    have hup : shortenStep dots cwd [] dots.up = [] := by
      rw [shortenStep, if_neg (by simp [dots.stay_up]), if_pos ⟨rfl, List.nil_prefix⟩]
      rfl
    rw [fs.child_up_root, Option.map_some, hup]

theorem entry_unfold (node : List Name × Node) (name : Name) :
    (fs.unfold cwd).entry node name =
      (fs.entry node.2 name).map (shortenStep dots cwd node.1 name, ·) := by
  rw [entry, entry]
  split
  · next hstay => rw [Option.map_some, shortenStep, if_pos hstay]
  · rfl

theorem stepDir_unfold (node : List Name × Node) (name : Name) :
    (fs.unfold cwd).stepDir node name =
      (fs.stepDir node.2 name).map (shortenStep dots cwd node.1 name, ·) := by
  rw [stepDir, stepDir, entry_unfold, Option.filter_map]
  rfl

theorem walk_unfold (names front : List Name) (dir : Node) :
    (fs.unfold cwd).walk (front, dir) names =
      (fs.walk dir names).map (names.foldl (shortenStep dots cwd) front, ·) := by
  induction names using List.reverseRecOn with
  | nil => rfl
  | append_singleton names name ih =>
    rw [walk_concat, walk_concat, ih, List.foldl_append]
    cases fs.walk dir names with
    | none => rfl
    | some d => exact stepDir_unfold _ name

theorem resolve_unfold (names front : List Name) (dir : Node) :
    (fs.unfold cwd).resolve (front, dir) names =
      (fs.resolve dir names).map (names.foldl (shortenStep dots cwd) front, ·) := by
  induction names using List.reverseRecOn with
  | nil => rfl
  | append_singleton names name _ =>
    rw [resolve_concat, resolve_concat, walk_unfold, List.foldl_append]
    cases fs.walk dir names with
    | none => rfl
    | some d => exact entry_unfold _ name

/-- The path that leads to the working directory is the same one. -/
theorem Working.unfold {dir : Node} (h : fs.Working cwd dir) :
    (fs.unfold cwd).Working cwd (cwd, dir) := by
  have hwalk {names : List Name} (hnames : names <+: cwd) :
      (fs.unfold cwd).walk (fs.unfold cwd).root names =
        (fs.walk fs.root names).map (names, ·) := by
    have hplain : ∀ name ∈ names, dots.stay name = false ∧ name ≠ dots.up :=
      fun name hname => h.plain name (hnames.subset hname)
    have hshort : names.foldl (shortenStep dots cwd) [] = names := shorten_plain hplain
    exact (walk_unfold names [] fs.root).trans (by rw [hshort])
  refine ⟨h.plain, ?_, fun front name node node' hprefix hnode hnode' => ?_⟩
  · rw [hwalk List.prefix_rfl, h.walk]
    rfl
  · have hfront : front <+: cwd := (List.prefix_append front [name]).trans hprefix
    obtain ⟨d, hd, rfl⟩ := Option.map_eq_some_iff.mp ((hwalk hfront).symm.trans hnode)
    obtain ⟨e, he, rfl⟩ := Option.map_eq_some_iff.mp ((hwalk hprefix).symm.trans hnode')
    have hup : shortenStep dots cwd (front ++ [name]) dots.up = front := by
      rw [shortenStep, if_neg (by simp [dots.stay_up]), if_pos ⟨rfl, hprefix⟩,
        List.dropLast_concat]
    change (fs.child e dots.up).map (shortenStep dots cwd (front ++ [name]) dots.up, ·) = _
    rw [h.child_up front name d e hprefix hd he, hup]
    rfl

end FileSystem
