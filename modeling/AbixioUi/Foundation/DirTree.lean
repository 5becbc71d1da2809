import Mathlib.Data.List.Basic
import Mathlib.Data.List.Infix

/-! # Directory trees

The directories and files of one volume, each by the names that lead to it. The volume
itself is the empty path; it is always there and is not among the directories. A tree
carries that everything in it lies in one of its directories, so only empty directories
can be removed.
-/

namespace AbixioUi.Foundation

structure DirTree (ν : Type) where
  dirs : List (List ν)
  files : List (List ν)
  parent_mem : ∀ path ∈ dirs ++ files, path ≠ [] ∧ (path.dropLast = [] ∨ path.dropLast ∈ dirs)
  disjoint : ∀ path ∈ files, path ∉ dirs

namespace DirTree

variable {ν : Type}

/-- Everything in the tree, but for the volume. -/
def entries (tree : DirTree ν) : List (List ν) := tree.dirs ++ tree.files

/-- What an entry lies in is a directory of the tree, below the volume. -/
theorem dropLast_mem_dirs {tree : DirTree ν} {path : List ν} (h : path ∈ tree.entries)
    (hdeep : 1 < path.length) : path.dropLast ∈ tree.dirs := by
  obtain ⟨-, hparent⟩ := tree.parent_mem path h
  refine hparent.resolve_left ?_
  intro hnil
  have hlength := congrArg List.length hnil
  rw [List.length_dropLast, List.length_nil] at hlength
  omega

/-- The directories that lead to an entry are in the tree. -/
theorem take_mem_dirs {tree : DirTree ν} {path : List ν} (h : path ∈ tree.entries) {depth : Nat}
    (hpos : 0 < depth) (hlt : depth < path.length) : path.take depth ∈ tree.dirs := by
  -- induction on how far above the entry the directory is
  obtain ⟨above, habove⟩ : ∃ above, path.length = depth + 1 + above :=
    Nat.exists_eq_add_of_le hlt
  induction above generalizing depth with
  | zero =>
      have htake : path.dropLast = path.take depth := by
        rw [List.dropLast_eq_take]
        congr 1
        omega
      rw [← htake]
      exact dropLast_mem_dirs h (by omega)
  | succ above ih =>
      have hdeeper : path.take (depth + 1) ∈ tree.dirs := ih (by omega) (by omega) (by omega)
      have htake : (path.take (depth + 1)).dropLast = path.take depth := by
        rw [List.dropLast_eq_take, List.take_take, List.length_take]
        congr 1
        omega
      rw [← htake]
      apply dropLast_mem_dirs (List.mem_append_left tree.files hdeeper)
      rw [List.length_take]
      omega

variable [DecidableEq ν]

/-- Whether nothing lies in the directory. -/
def isEmpty (tree : DirTree ν) (dir : List ν) : Bool :=
  tree.entries.all fun path => decide (path.dropLast ≠ dir)

theorem isEmpty_iff {tree : DirTree ν} {dir : List ν} :
    tree.isEmpty dir = true ↔ ∀ path ∈ tree.entries, path.dropLast ≠ dir := by
  simp [isEmpty]

def removeFile (tree : DirTree ν) (file : List ν) : DirTree ν where
  dirs := tree.dirs
  files := tree.files.filter fun path => decide (path ≠ file)
  parent_mem := by
    intro path hpath
    apply tree.parent_mem
    rcases List.mem_append.mp hpath with hdir | hfile
    · exact List.mem_append_left _ hdir
    · exact List.mem_append_right _ (List.mem_filter.mp hfile).1
  disjoint := fun path hpath => tree.disjoint path (List.mem_filter.mp hpath).1

/-- An empty directory is removed. -/
def removeDir (tree : DirTree ν) (dir : List ν) (h : tree.isEmpty dir = true) : DirTree ν where
  dirs := tree.dirs.filter fun path => decide (path ≠ dir)
  files := tree.files
  parent_mem := by
    intro path hpath
    have hentry : path ∈ tree.entries := by
      rcases List.mem_append.mp hpath with hdir | hfile
      · exact List.mem_append_left _ (List.mem_filter.mp hdir).1
      · exact List.mem_append_right _ hfile
    obtain ⟨hne, hparent⟩ := tree.parent_mem path hentry
    refine ⟨hne, hparent.imp_right fun hmem => ?_⟩
    have hother := isEmpty_iff.mp h path hentry
    exact List.mem_filter.mpr ⟨hmem, by simpa using hother⟩
  disjoint := fun path hpath hdir =>
    tree.disjoint path hpath (List.mem_filter.mp hdir).1

theorem mem_removeFile {tree : DirTree ν} {file path : List ν} (hfile : file ∈ tree.files) :
    path ∈ (tree.removeFile file).entries ↔ path ∈ tree.entries ∧ path ≠ file := by
  have hdir : path ∈ tree.dirs → path ≠ file := by
    intro hpath heq
    subst heq
    exact tree.disjoint path hfile hpath
  simp only [entries, removeFile, List.mem_append, List.mem_filter, decide_eq_true_eq]
  tauto

theorem mem_removeDir {tree : DirTree ν} {dir path : List ν} (hdir : dir ∈ tree.dirs)
    (h : tree.isEmpty dir = true) :
    path ∈ (tree.removeDir dir h).entries ↔ path ∈ tree.entries ∧ path ≠ dir := by
  have hfile : path ∈ tree.files → path ≠ dir := by
    intro hpath heq
    subst heq
    exact tree.disjoint path hpath hdir
  simp only [entries, removeDir, List.mem_append, List.mem_filter, decide_eq_true_eq]
  tauto

theorem mem_removeDir_dirs {tree : DirTree ν} {dir path : List ν}
    (h : tree.isEmpty dir = true) :
    path ∈ (tree.removeDir dir h).dirs ↔ path ∈ tree.dirs ∧ path ≠ dir := by
  simp [removeDir]

end DirTree

end AbixioUi.Foundation
