import Webserv.Control.FileSystem
import Webserv.Response.Os

/-!
# The disk

What the answers of the system say about the files.  A path is absolute or goes from the working
directory, and its names stand between slashes.
-/

namespace Webserv

open Text FileSystem

/-! ## Paths -/

/-- `.` and `..`.  The empty name stands between two slashes. -/
def DOT_NAMES : DotNames Str where
  stay name := name = [] || name = lit "."
  up := lit ".."
  stay_up := by decide

/-- What stands between the slashes. -/
def components (path : Str) : List Str := path.splitOn 47

/-- The names that are looked up. -/
def names (path : Str) : List Str := (components path).filter fun name => !DOT_NAMES.stay name

/-- The path from the root, shortened where every disk allows it. -/
def canonical (cwd : List Str) (path : Str) : List Str :=
  shorten DOT_NAMES cwd ((if path.head? = some 47 then [] else cwd) ++ names path)

theorem components_append (a b : Str) :
    components (a ++ 47 :: b) = components a ++ components b := List.splitOn_append_cons_self a b

theorem components_of_not_mem {name : Str} (h : 47 ∉ name) : components name = [name] :=
  List.splitOn_eq_singleton h

theorem names_append (a b : Str) : names (a ++ 47 :: b) = names a ++ names b := by
  rw [names, components_append, List.filter_append]
  rfl

theorem foldl_shortenStep_names (cwd front : List Str) (path : Str) :
    (names path).foldl (shortenStep DOT_NAMES cwd) front =
      (components path).foldl (shortenStep DOT_NAMES cwd) front :=
  foldl_shortenStep_filter (components path) front

/-- The text of a directory with a slash at its end. -/
def IsDirText (dir : Str) : Prop := ∃ front, dir = front ++ [47]

namespace IsDirText

variable {dir name : Str}

theorem components_append (h : IsDirText dir) (hname : 47 ∉ name) :
    ∃ front, components (dir ++ name) = front ++ [name] ∧
      ∀ cwd start, front.foldl (shortenStep DOT_NAMES cwd) start =
        (names dir).foldl (shortenStep DOT_NAMES cwd) start := by
  obtain ⟨front, rfl⟩ := h
  refine ⟨components front, ?_, fun cwd start => ?_⟩
  · rw [List.append_assoc, List.singleton_append, Webserv.components_append,
      components_of_not_mem hname]
  · have hnames : names (front ++ [47]) = names front := by
      rw [names_append]
      exact List.append_nil _
    rw [hnames, foldl_shortenStep_names]

theorem head?_append (h : IsDirText dir) (name : Str) : (dir ++ name).head? = dir.head? := by
  obtain ⟨front, rfl⟩ := h
  cases front with
  | nil => rfl
  | cons c front => rfl

/-- A file in a directory. -/
theorem canonical_append (h : IsDirText dir) (hname : 47 ∉ name) (cwd : List Str) :
    canonical cwd (dir ++ name) = shortenStep DOT_NAMES cwd (canonical cwd dir) name := by
  obtain ⟨front, hcomponents, hfront⟩ := h.components_append hname
  rw [canonical, canonical, h.head?_append, shorten_append, shorten_append,
    foldl_shortenStep_names, hcomponents, List.foldl_append, hfront]
  rfl

end IsDirText

/-! ## Disks -/

structure Disk (Node : Type) extends FileSystem DOT_NAMES Node where
  /-- what `readdir` lists -/
  entries : Node → List Str
  content : Node → Str
  modTime : Node → Str

namespace Disk

variable {Node : Type} (disk : Disk Node)

/-- The file of this path for a process with the working directory `cwd`. -/
def lookup (cwd : Node) (path : Str) : Option Node :=
  if path = [] then none
  else disk.resolve (if path.head? = some 47 then disk.root else cwd) (components path)

def unfold (cwd : List Str) : Disk (List Str × Node) where
  toFileSystem := disk.toFileSystem.unfold cwd
  entries node := disk.entries node.2
  content node := disk.content node.2
  modTime node := disk.modTime node.2

variable {disk} {cwd : List Str} {dir : Node}

/-- A file of the unfolding knows the canonical form of its path. -/
theorem lookup_unfold (h : disk.Working cwd dir) (path : Str) :
    (disk.unfold cwd).lookup (cwd, dir) path =
      (disk.lookup dir path).map (canonical cwd path, ·) := by
  have hcanonical : canonical cwd path = (components path).foldl (shortenStep DOT_NAMES cwd)
      (if path.head? = some 47 then [] else cwd) := by
    have hstart : shorten DOT_NAMES cwd (if path.head? = some 47 then [] else cwd) =
        if path.head? = some 47 then [] else cwd := by
      split
      · rfl
      · exact shorten_plain h.plain
    rw [canonical, shorten_append, hstart, foldl_shortenStep_names]
  rw [lookup, lookup, hcanonical]
  split
  · rfl
  · split
    · exact resolve_unfold (components path) [] disk.root
    · exact resolve_unfold (components path) cwd dir

theorem lookup_append (h : disk.Working cwd dir) {front name : Str} (hfront : IsDirText front)
    (hname : 47 ∉ name) : ∃ ns, disk.lookup dir (front ++ name) =
      disk.resolve disk.root (ns ++ [name]) ∧
        shorten DOT_NAMES cwd ns = canonical cwd front := by
  obtain ⟨ns, hcomponents, hns⟩ := hfront.components_append hname
  have hne : front ++ name ≠ [] := by
    obtain ⟨rest, rfl⟩ := hfront
    simp
  rw [lookup, if_neg hne, hfront.head?_append, hcomponents, canonical]
  split
  · exact ⟨ns, rfl, hns cwd []⟩
  · refine ⟨cwd ++ ns, h.resolve_cwd ns name, ?_⟩
    rw [shorten_append, shorten_append, hns]

end Disk

/-- The calls are made on this disk, by a process with this working directory. -/
structure Os.On {Node : Type} (os : Os) (disk : Disk Node) (cwd : Node) : Prop where
  getcwd : ∀ path, os.getcwd = some path →
    0 ∉ path ∧ path.head? = some 47 ∧ disk.Working (names path) cwd
  opendir : ∀ path list, os.opendir path = some list →
    ∃ dir, disk.lookup cwd path = some dir ∧ disk.isDir dir = true ∧ disk.entries dir = list
  access : ∀ path, os.access path = true → ∃ file, disk.lookup cwd path = some file
  ifstream : ∀ path content, os.ifstream path = some content →
    ∃ file, disk.lookup cwd path = some file ∧ disk.content file = content
  stat : ∀ path modTime, os.stat path = some modTime →
    ∃ file, disk.lookup cwd path = some file ∧ disk.modTime file = modTime

namespace Os.On

variable {Node : Type} {os : Os} {disk : Disk Node} {dir : Node} {cwd : Str}

/-- The unfolding gives the same answers. -/
theorem unfold (h : os.On disk dir) (hcwd : os.getcwd = some cwd) :
    os.On (disk.unfold (names cwd)) (names cwd, dir) := by
  obtain ⟨-, -, hworking⟩ := h.getcwd cwd hcwd
  have hlookup {path : Str} {file : Node} (hfile : disk.lookup dir path = some file) :
      (disk.unfold (names cwd)).lookup (names cwd, dir) path =
        some (canonical (names cwd) path, file) := by
    rw [Disk.lookup_unfold hworking, hfile]
    rfl
  refine ⟨fun path hpath => ?_, fun path list hlist => ?_, fun path haccess => ?_,
    fun path content hcontent => ?_, fun path modTime hmodTime => ?_⟩
  · obtain rfl := Option.some.inj (hcwd.symm.trans hpath)
    obtain ⟨hnul, hhead, -⟩ := h.getcwd cwd hcwd
    exact ⟨hnul, hhead, hworking.unfold⟩
  · obtain ⟨d, hd, hisDir, hentries⟩ := h.opendir path list hlist
    exact ⟨_, hlookup hd, hisDir, hentries⟩
  · obtain ⟨file, hfile⟩ := h.access path haccess
    exact ⟨_, hlookup hfile⟩
  · obtain ⟨file, hfile, hdata⟩ := h.ifstream path content hcontent
    exact ⟨_, hlookup hfile, hdata⟩
  · obtain ⟨file, hfile, hdata⟩ := h.stat path modTime hmodTime
    exact ⟨_, hlookup hfile, hdata⟩

end Os.On

/-- A system that answers from the disk. -/
def Disk.os {Node : Type} (disk : Disk Node) (dir : Node) (cwd : Str) : Os where
  getcwd := some cwd
  opendir path := ((disk.lookup dir path).filter disk.isDir).map disk.entries
  access path := (disk.lookup dir path).isSome
  ifstream path := (disk.lookup dir path).map disk.content
  stat path := (disk.lookup dir path).map disk.modTime
  now := lit "Thu Jan  1 00:00:00 1970\n"
  cgi := .silent

theorem Disk.os_on {Node : Type} {disk : Disk Node} {dir : Node} {cwd : Str} (hnul : 0 ∉ cwd)
    (hhead : cwd.head? = some 47) (h : disk.Working (names cwd) dir) :
    (disk.os dir cwd).On disk dir where
  getcwd path hpath := by
    obtain rfl : cwd = path := Option.some.inj hpath
    exact ⟨hnul, hhead, h⟩
  opendir path list hlist := by
    obtain ⟨d, hd, hentries⟩ := Option.map_eq_some_iff.mp hlist
    obtain ⟨hd, hisDir⟩ := Option.filter_eq_some_iff.mp hd
    exact ⟨d, hd, hisDir, hentries⟩
  access path haccess := Option.isSome_iff_exists.mp haccess
  ifstream path content hcontent := Option.map_eq_some_iff.mp hcontent
  stat path modTime hmodTime := Option.map_eq_some_iff.mp hmodTime

/-! ## One name on every disk -/

/-- On every disk that gives the answers of `os`, both paths lead to one and the same file. -/
def SameFile (os : Os) (path path' : Str) : Prop :=
  ∀ (Node : Type) (disk : Disk Node) (cwd : Node), os.On disk cwd →
    ∃ file, disk.lookup cwd path = some file ∧ disk.lookup cwd path' = some file

section

variable {Node : Type} {os : Os} {disk : Disk Node} {dir : Node} {cwd : Str}

theorem SameFile.canonical_eq {path path' : Str} (h : SameFile os path path')
    (hon : os.On disk dir) (hcwd : os.getcwd = some cwd) :
    canonical (names cwd) path = canonical (names cwd) path' := by
  obtain ⟨-, -, hworking⟩ := hon.getcwd cwd hcwd
  obtain ⟨file, hpath, hpath'⟩ := h _ _ _ (hon.unfold hcwd)
  rw [Disk.lookup_unfold hworking] at hpath hpath'
  obtain ⟨_, -, rfl⟩ := Option.map_eq_some_iff.mp hpath
  obtain ⟨_, -, heq⟩ := Option.map_eq_some_iff.mp hpath'
  exact (Prod.mk.inj heq).1.symm

/-- Two files of one name are the same on every disk if and only if their directories have the
same canonical form. -/
theorem sameFile_iff {front front' name : Str} (hon : os.On disk dir)
    (hcwd : os.getcwd = some cwd) (hfront : IsDirText front) (hfront' : IsDirText front')
    (hname : 47 ∉ name) (haccess : os.access (front' ++ name) = true)
    (hleaves : ¬ canonical (names cwd) front <+: names cwd) :
    SameFile os (front ++ name) (front' ++ name) ↔
      canonical (names cwd) front = canonical (names cwd) front' := by
  constructor
  · intro h
    have heq := h.canonical_eq hon hcwd
    rw [hfront.canonical_append hname, hfront'.canonical_append hname] at heq
    exact (eq_of_shortenStep_eq hleaves heq.symm).symm
  · intro heq Node' disk' dir' hon'
    obtain ⟨-, -, hworking⟩ := hon'.getcwd cwd hcwd
    obtain ⟨ns, hlookup, hns⟩ := Disk.lookup_append hworking hfront hname
    obtain ⟨ns', hlookup', hns'⟩ := Disk.lookup_append hworking hfront' hname
    obtain ⟨file, hfile⟩ := hon'.access _ haccess
    refine ⟨file, ?_, hfile⟩
    rw [← hfile, hlookup, hlookup']
    exact hworking.resolve_eq (by rw [hns, hns', heq]) name

end

end Webserv
