import AbixioUi.Foundation.DirTree
import AbixioUi.Foundation.Path

/-! # Deleting a local file

A file that a run deletes takes the directories with it that it leaves empty. The loop
climbs from the file's directory for as long as it finds an empty one; it is not given
the root of the run. Syncing and transferring have the loop each.
-/

namespace AbixioUi

open Foundation

/-- The names from the volume down to a file or directory; for a relative path, from the
working directory, which cannot be read under its empty path. -/
abbrev LocalPath := List OsString

abbrev LocalTree := DirTree OsString

/-- What the file system lets the program do, apart from what the tree rules out. -/
structure FileAccess where
  removeFile : LocalPath → Except String Unit
  readDir : LocalPath → Bool
  removeDir : LocalPath → Bool

/-- A directory that was removed, and the tree it was removed from. -/
structure Removal where
  tree : LocalTree
  dir : LocalPath

structure Pruned where
  tree : LocalTree
  removals : List Removal

/-- The directory is there, can be read and removed, and nothing is found in it. -/
def prunes (access : FileAccess) (tree : LocalTree) (dir : LocalPath) : Bool :=
  tree.dirs.contains dir && access.readDir dir && tree.isEmpty dir && access.removeDir dir

theorem isEmpty_of_prunes {access : FileAccess} {tree : LocalTree} {dir : LocalPath}
    (h : prunes access tree dir = true) : tree.isEmpty dir = true := by
  simp only [prunes, Bool.and_eq_true] at h
  exact h.1.2

theorem mem_dirs_of_prunes {access : FileAccess} {tree : LocalTree} {dir : LocalPath}
    (h : prunes access tree dir = true) : dir ∈ tree.dirs := by
  simp only [prunes, Bool.and_eq_true, List.contains_iff_mem] at h
  exact h.1.1.1

/-- Climb the path from the directory at this depth. The loop ends at the volume, which
cannot be removed. -/
def pruneFrom (access : FileAccess) (path : LocalPath) : Nat → LocalTree → Pruned
  | 0, tree => ⟨tree, []⟩
  | depth + 1, tree =>
      if h : prunes access tree (path.take (depth + 1)) = true then
        let rest := pruneFrom access path depth
          (tree.removeDir (path.take (depth + 1)) (isEmpty_of_prunes h))
        ⟨rest.tree, ⟨tree, path.take (depth + 1)⟩ :: rest.removals⟩
      else ⟨tree, []⟩

/-- The loop starts at the parent of the path. -/
def pruneEmptyDirs (access : FileAccess) (tree : LocalTree) (path : LocalPath) : Pruned :=
  pruneFrom access path (path.length - 1) tree

def removeThenPrune (prune : FileAccess → LocalTree → LocalPath → Pruned) (access : FileAccess)
    (tree : LocalTree) (path : LocalPath) : Except String Unit × Pruned :=
  match access.removeFile path with
  | .error error => (.error error, ⟨tree, []⟩)
  | .ok () =>
      if tree.files.contains path then (.ok (), prune access (tree.removeFile path) path)
      else (.error "entity not found", ⟨tree, []⟩)

/-! ## The two copies -/

def pruneEmptySyncDirs (access : FileAccess) (tree : LocalTree) (path : LocalPath) : Pruned :=
  pruneEmptyDirs access tree path

def deleteLocalSyncPath (access : FileAccess) (tree : LocalTree) (path : LocalPath) :
    Except String Unit × Pruned :=
  removeThenPrune pruneEmptySyncDirs access tree path

def pruneEmptyParentDirs (access : FileAccess) (tree : LocalTree) (path : LocalPath) : Pruned :=
  pruneEmptyDirs access tree path

def deleteLocalPath (access : FileAccess) (tree : LocalTree) (path : LocalPath) :
    Except String Unit × Pruned :=
  removeThenPrune pruneEmptyParentDirs access tree path

/-- The directories of the loop are the parents of the path, one after the other. -/
theorem parent_descend_take (base : PathBuf) {path : LocalPath} {depth : Nat}
    (hlt : depth < path.length) :
    (base.descend (path.take (depth + 1))).parent = some (base.descend (path.take depth)) := by
  have hsnoc : path.take (depth + 1) = path.take depth ++ [path[depth]] :=
    (List.take_append_getElem hlt).symm
  rw [hsnoc]
  unfold PathBuf.parent PathBuf.descend
  simp only [List.map_append, List.map_cons, List.map_nil, ← List.append_assoc,
    List.dropLast_concat]
  rw [if_neg (List.append_ne_nil_of_right_ne_nil _ (List.cons_ne_nil _ _))]

/-! ## Which directories go -/

section

variable {access : FileAccess} {tree : LocalTree} {path : LocalPath}

/-- The directory at this depth can go once what the path has below it is gone: it holds
nothing else. -/
def Clears (access : FileAccess) (tree : LocalTree) (path : LocalPath) (depth : Nat) : Prop :=
  access.readDir (path.take depth) = true ∧ access.removeDir (path.take depth) = true ∧
    ∀ entry ∈ tree.entries, entry.dropLast = path.take depth → entry = path.take (depth + 1)

/-- The tree as the loop finds it at this depth: the path below is gone, and no more. -/
structure CutTo (tree : LocalTree) (path : LocalPath) (depth : Nat) (current : LocalTree) :
    Prop where
  mem_entries : ∀ entry, entry ∈ current.entries ↔
    entry ∈ tree.entries ∧ ∀ below, depth < below → entry ≠ path.take below
  mem_dirs : ∀ dir, dir ∈ current.dirs ↔
    dir ∈ tree.dirs ∧ ∀ below, depth < below → dir ≠ path.take below

theorem take_inj_of_le {n m : Nat} (hn : n ≤ path.length) (hm : m ≤ path.length)
    (h : path.take n = path.take m) : n = m := by
  have hlength := congrArg List.length h
  rw [List.length_take, List.length_take] at hlength
  omega

/-- At its depth the loop removes a directory exactly if the path clears it. -/
theorem prunes_iff_clears {depth : Nat} {current : LocalTree} (hpath : path ∈ tree.entries)
    (hpos : 0 < depth) (hlt : depth < path.length) (hcut : CutTo tree path depth current) :
    prunes access current (path.take depth) = true ↔ Clears access tree path depth := by
  have hthere : path.take depth ∈ current.dirs := by
    rw [hcut.mem_dirs]
    refine ⟨DirTree.take_mem_dirs hpath hpos hlt, fun below hbelow heq => ?_⟩
    have hlength := congrArg List.length heq
    rw [List.length_take, List.length_take] at hlength
    omega
  have hempty : current.isEmpty (path.take depth) = true ↔
      ∀ entry ∈ tree.entries, entry.dropLast = path.take depth → entry = path.take (depth + 1) := by
    rw [DirTree.isEmpty_iff]
    constructor
    · intro h entry hentry hparent
      by_contra hother
      refine h entry ((hcut.mem_entries entry).mpr ⟨hentry, ?_⟩) hparent
      intro below hbelow heq
      subst heq
      obtain ⟨hne, -⟩ := tree.parent_mem _ hentry
      have hlength := congrArg List.length hparent
      rw [List.length_dropLast, List.length_take, List.length_take] at hlength
      have hnonempty := List.length_pos_iff.mpr hne
      rw [List.length_take] at hnonempty
      -- the entry lies in this directory, so it is the next step of the path
      apply hother
      rw [List.take_eq_take_iff]
      omega
    · intro h entry hentry hparent
      obtain ⟨hold, hkept⟩ := (hcut.mem_entries entry).mp hentry
      exact hkept (depth + 1) (Nat.lt_succ_self depth) (h entry hold hparent)
  simp only [prunes, List.contains_iff_mem, hthere, Bool.and_eq_true, true_and, hempty, Clears]
  tauto

theorem CutTo.step {depth : Nat} {current : LocalTree}
    (hcut : CutTo tree path (depth + 1) current)
    (hempty : current.isEmpty (path.take (depth + 1)) = true)
    (hthere : path.take (depth + 1) ∈ current.dirs) :
    CutTo tree path depth (current.removeDir (path.take (depth + 1)) hempty) := by
  have hsplit : ∀ entry : LocalPath, (∀ below, depth < below → entry ≠ path.take below) ↔
      (∀ below, depth + 1 < below → entry ≠ path.take below) ∧ entry ≠ path.take (depth + 1) := by
    intro entry
    constructor
    · intro h
      exact ⟨fun below hbelow => h below (by omega), h (depth + 1) (Nat.lt_succ_self depth)⟩
    · intro h below hbelow
      by_cases hnext : below = depth + 1
      · rw [hnext]
        exact h.2
      · exact h.1 below (by omega)
  constructor
  · intro entry
    rw [DirTree.mem_removeDir hthere, hcut.mem_entries, hsplit, and_assoc]
  · intro dir
    rw [DirTree.mem_removeDir_dirs, hcut.mem_dirs, hsplit, and_assoc]

def Pruned.removed (pruned : Pruned) : List LocalPath := pruned.removals.map Removal.dir

/-- The loop removes the directory at a level exactly if the path clears every directory
from there down to where the loop starts. -/
theorem mem_removed_iff {depth level : Nat} {current : LocalTree} (hpath : path ∈ tree.entries)
    (hpos : 0 < level) (hle : level ≤ depth) (hlt : depth < path.length)
    (hcut : CutTo tree path depth current) :
    path.take level ∈ (pruneFrom access path depth current).removed ↔
      ∀ between, level ≤ between → between ≤ depth → Clears access tree path between := by
  induction depth generalizing current with
  | zero => omega
  | succ depth ih =>
      have hiff : prunes access current (path.take (depth + 1)) = true ↔
          Clears access tree path (depth + 1) :=
        prunes_iff_clears hpath (Nat.succ_pos depth) hlt hcut
      by_cases h : prunes access current (path.take (depth + 1)) = true
      · have hclears : Clears access tree path (depth + 1) := hiff.mp h
        simp only [pruneFrom, dif_pos h, Pruned.removed, List.map_cons, List.mem_cons]
        by_cases hhere : level = depth + 1
        · subst hhere
          refine iff_of_true (.inl rfl) fun between hlow hhigh => ?_
          rw [show between = depth + 1 by omega]
          exact hclears
        · have hother : path.take level ≠ path.take (depth + 1) := fun heq =>
            hhere (take_inj_of_le (by omega) (by omega) heq)
          have hrest := ih (by omega) (by omega)
            (hcut.step (isEmpty_of_prunes h) (mem_dirs_of_prunes h))
          rw [Pruned.removed] at hrest
          rw [or_iff_right hother, hrest]
          constructor
          · intro hall between hlow hhigh
            by_cases hlast : between = depth + 1
            · rw [hlast]
              exact hclears
            · exact hall between hlow (by omega)
          · intro hall between hlow hhigh
            exact hall between hlow (by omega)
      · simp only [pruneFrom, dif_neg h, Pruned.removed, List.map_nil, List.not_mem_nil, false_iff]
        intro hall
        exact h (hiff.mpr (hall (depth + 1) hle (Nat.le_refl _)))

end

variable {access : FileAccess} {path : LocalPath}

/-- Every directory of the loop lies on the path, and was empty when it was removed. -/
theorem pruneFrom_removals {depth : Nat} (current : LocalTree) :
    ∀ removal ∈ (pruneFrom access path depth current).removals,
      removal.tree.isEmpty removal.dir = true ∧
        ∃ level, 0 < level ∧ level ≤ depth ∧ removal.dir = path.take level := by
  induction depth generalizing current with
  | zero =>
      intro removal hmem
      simp [pruneFrom] at hmem
  | succ depth ih =>
      intro removal hmem
      by_cases h : prunes access current (path.take (depth + 1)) = true
      · simp only [pruneFrom, dif_pos h, List.mem_cons] at hmem
        rcases hmem with hhere | hlater
        · subst hhere
          exact ⟨isEmpty_of_prunes h, depth + 1, Nat.succ_pos depth, Nat.le_refl _, rfl⟩
        · obtain ⟨hempty, level, hpos, hle, hdir⟩ := ih _ removal hlater
          exact ⟨hempty, level, hpos, by omega, hdir⟩
      · simp [pruneFrom, dif_neg h] at hmem

/-- The directories that are left are those that were not removed. -/
theorem mem_pruneFrom_dirs {depth : Nat} (current : LocalTree) (dir : LocalPath) :
    dir ∈ (pruneFrom access path depth current).tree.dirs ↔
      dir ∈ current.dirs ∧ dir ∉ (pruneFrom access path depth current).removed := by
  induction depth generalizing current with
  | zero => simp [pruneFrom, Pruned.removed]
  | succ depth ih =>
      by_cases h : prunes access current (path.take (depth + 1)) = true
      · have hrest := ih (current.removeDir (path.take (depth + 1)) (isEmpty_of_prunes h))
        rw [DirTree.mem_removeDir_dirs] at hrest
        simp only [pruneFrom, dif_pos h, Pruned.removed, List.map_cons, List.mem_cons] at hrest ⊢
        rw [hrest]
        tauto
      · simp [pruneFrom, dif_neg h, Pruned.removed]

/-! ## The root -/

/-- Pruning stays below the root: what it removes is empty and lies strictly below, and
the root and every directory outside are kept. -/
def RemovesBelow (root : LocalPath) (before : LocalTree) (pruned : Pruned) : Prop :=
  (∀ removal ∈ pruned.removals,
    removal.tree.isEmpty removal.dir = true ∧ root <+: removal.dir ∧ removal.dir ≠ root) ∧
  ∀ dir ∈ before.dirs, ¬(root <+: dir ∧ dir ≠ root) → dir ∈ pruned.tree.dirs

/-- From the root down, the directories on the way to the file hold nothing that does not
lead to it, and can be read and removed. -/
def HoldsOnly (access : FileAccess) (tree : LocalTree) (root file : LocalPath) : Prop :=
  ∀ dir, root <+: dir → dir <+: file → dir ≠ file →
    access.readDir dir = true ∧ access.removeDir dir = true ∧
      ∀ entry ∈ tree.entries, entry.dropLast = dir → entry <+: file

/-- The root is a directory that goes with the file. -/
def RootGoes (access : FileAccess) (tree : LocalTree) (root file : LocalPath) : Prop :=
  access.removeFile file = .ok () ∧ root ≠ [] ∧ HoldsOnly access tree root file

section

variable {tree : LocalTree} {root file : LocalPath}

theorem clears_iff {depth : Nat} (hlt : depth < file.length) :
    Clears access tree file depth ↔
      access.readDir (file.take depth) = true ∧ access.removeDir (file.take depth) = true ∧
        ∀ entry ∈ tree.entries, entry.dropLast = file.take depth → entry <+: file := by
  have hentry : ∀ entry ∈ tree.entries, entry.dropLast = file.take depth →
      (entry = file.take (depth + 1) ↔ entry <+: file) := by
    intro entry hmem hparent
    constructor
    · intro heq
      rw [heq]
      exact List.take_prefix _ _
    · intro hbefore
      obtain ⟨hne, -⟩ := tree.parent_mem entry hmem
      have hlength := congrArg List.length hparent
      rw [List.length_dropLast, List.length_take] at hlength
      have hnonempty := List.length_pos_iff.mpr hne
      rw [List.prefix_iff_eq_take.mp hbefore]
      congr 1
      omega
  unfold Clears
  constructor
  · rintro ⟨hread, hremove, hall⟩
    exact ⟨hread, hremove, fun entry hmem hparent =>
      (hentry entry hmem hparent).mp (hall entry hmem hparent)⟩
  · rintro ⟨hread, hremove, hall⟩
    exact ⟨hread, hremove, fun entry hmem hparent =>
      (hentry entry hmem hparent).mpr (hall entry hmem hparent)⟩

theorem length_lt_of_under (hroot : root <+: file) (hne : root ≠ file) :
    root.length < file.length := by
  apply Nat.lt_of_le_of_ne hroot.length_le
  intro hlength
  exact hne (hroot.eq_of_length hlength)

theorem holdsOnly_iff_clears (hroot : root <+: file) :
    HoldsOnly access tree root file ↔
      ∀ depth, root.length ≤ depth → depth ≤ file.length - 1 → depth < file.length →
        Clears access tree file depth := by
  constructor
  · intro h depth hlow _ hlt
    rw [clears_iff hlt]
    have hrootTake : root <+: file.take depth :=
      List.prefix_take_iff.mpr ⟨hroot, hlow⟩
    refine h (file.take depth) hrootTake (List.take_prefix _ _) fun heq => ?_
    have hlength := congrArg List.length heq
    rw [List.length_take] at hlength
    omega
  · intro h dir hlow hbefore hne
    have htake := List.prefix_iff_eq_take.mp hbefore
    have hlt := length_lt_of_under hbefore hne
    have hclears := h dir.length hlow.length_le (by omega) hlt
    rw [clears_iff hlt, ← htake] at hclears
    exact hclears

theorem cutTo_removeFile (hfile : file ∈ tree.files) :
    CutTo tree file (file.length - 1) (tree.removeFile file) := by
  have hbelow : ∀ entry : LocalPath,
      (∀ below, file.length - 1 < below → entry ≠ file.take below) ↔ entry ≠ file := by
    intro entry
    constructor
    · intro h
      have hwhole := h file.length
      rw [List.take_length] at hwhole
      apply hwhole
      have hpos := List.length_pos_iff.mpr
        (tree.parent_mem file (List.mem_append_right _ hfile)).1
      omega
    · intro h below hlow
      rw [List.take_of_length_le (by omega)]
      exact h
  constructor
  · intro entry
    rw [DirTree.mem_removeFile hfile, hbelow]
  · intro dir
    rw [hbelow]
    constructor
    · intro hdir
      refine ⟨hdir, fun heq => ?_⟩
      rw [heq] at hdir
      exact tree.disjoint file hfile hdir
    · exact And.left

/-- The root goes exactly if nothing is left on the way from it to the file. -/
theorem root_removed_iff (hfile : file ∈ tree.files) (hroot : root <+: file) (hne : root ≠ file)
    (hvolume : root ≠ []) :
    root ∈ (pruneEmptyDirs access (tree.removeFile file) file).removed ↔
      HoldsOnly access tree root file := by
  have hentry : file ∈ tree.entries := List.mem_append_right _ hfile
  have hlt := length_lt_of_under hroot hne
  have hpos := List.length_pos_iff.mpr hvolume
  have hle : root.length ≤ file.length - 1 := by omega
  have hiff := @mem_removed_iff access tree file (file.length - 1) root.length
    (tree.removeFile file) hentry hpos hle (by omega) (cutTo_removeFile hfile)
  rw [← List.prefix_iff_eq_take.mp hroot] at hiff
  rw [pruneEmptyDirs, hiff, holdsOnly_iff_clears hroot]
  exact ⟨fun h depth hlow hhigh _ => h depth hlow hhigh,
    fun h depth hlow hhigh => h depth hlow hhigh (by omega)⟩

theorem HoldsOnly.mono {above : LocalPath} (h : HoldsOnly access tree above file)
    (habove : above <+: root) : HoldsOnly access tree root file :=
  fun dir hlow => h dir (habove.trans hlow)

/-- Unless the root goes, only directories strictly below it do. -/
theorem removals_below (hfile : file ∈ tree.files) (hroot : root <+: file) (hne : root ≠ file)
    (hkeeps : ¬(root ≠ [] ∧ HoldsOnly access tree root file)) :
    ∀ removal ∈ (pruneEmptyDirs access (tree.removeFile file) file).removals,
      removal.tree.isEmpty removal.dir = true ∧ root <+: removal.dir ∧ removal.dir ≠ root := by
  intro removal hmem
  have hlt := length_lt_of_under hroot hne
  obtain ⟨hempty, level, hpos, hle, hdir⟩ := pruneFrom_removals _ removal hmem
  have hlength : removal.dir.length = level := by
    rw [hdir, List.length_take]
    omega
  have hbefore : removal.dir <+: file := hdir ▸ List.take_prefix _ _
  by_cases hbelow : root.length < level
  · refine ⟨hempty, ?_, fun heq => ?_⟩
    · rw [hdir]
      exact List.prefix_take_iff.mpr ⟨hroot, by omega⟩
    · rw [heq] at hlength
      omega
  · exfalso
    -- a directory at or above the root goes only when the root does
    have habove : removal.dir <+: root :=
      List.prefix_of_prefix_length_le hbefore hroot (by omega)
    have hnonempty : removal.dir ≠ [] := List.length_pos_iff.mp (by omega)
    have hother : removal.dir ≠ file := by
      intro heq
      rw [heq] at hlength
      omega
    have hgone := (root_removed_iff hfile hbefore hother hnonempty).mp
      (List.mem_map_of_mem hmem)
    refine hkeeps ⟨?_, hgone.mono habove⟩
    apply List.length_pos_iff.mp
    have hlower := habove.length_le
    omega

/-- After the file is gone the loop stays below the root exactly if the root is the volume
or some directory on the way to the file is kept. -/
theorem pruneEmptyDirs_removesBelow_iff (hfile : file ∈ tree.files) (hroot : root <+: file)
    (hne : root ≠ file) :
    RemovesBelow root tree (pruneEmptyDirs access (tree.removeFile file) file) ↔
      ¬(root ≠ [] ∧ HoldsOnly access tree root file) := by
  constructor
  · rintro ⟨hstrict, -⟩ ⟨hvolume, hholds⟩
    have hgone := (root_removed_iff hfile hroot hne hvolume).mpr hholds
    obtain ⟨removal, hmem, hdir⟩ := List.mem_map.mp hgone
    exact (hstrict removal hmem).2.2 hdir
  · intro hkeeps
    have hstrict := removals_below hfile hroot hne hkeeps
    refine ⟨hstrict, fun dir hdir houtside => ?_⟩
    rw [pruneEmptyDirs, mem_pruneFrom_dirs]
    refine ⟨hdir, fun hmem => ?_⟩
    obtain ⟨removal, hremoval, heq⟩ := List.mem_map.mp hmem
    rw [← heq] at houtside
    exact houtside (hstrict removal hremoval).2

theorem removesBelow_refl (root : LocalPath) (tree : LocalTree) :
    RemovesBelow root tree ⟨tree, []⟩ :=
  ⟨fun _ hmem => absurd hmem List.not_mem_nil, fun _ hdir _ => hdir⟩

theorem removeThenPrune_removesBelow_iff (hfile : file ∈ tree.files) (hroot : root <+: file)
    (hne : root ≠ file) :
    RemovesBelow root tree (removeThenPrune pruneEmptyDirs access tree file).2 ↔
      ¬RootGoes access tree root file := by
  unfold removeThenPrune RootGoes
  cases hremove : access.removeFile file with
  | error error =>
      refine iff_of_true (removesBelow_refl root tree) ?_
      rintro ⟨hok, -⟩
      cases hok
  | ok _ =>
      rw [if_pos (List.contains_iff_mem.mpr hfile),
        pruneEmptyDirs_removesBelow_iff hfile hroot hne]
      simp

/-- Deleting a file under a root prunes only below the root, for as long as not every
directory from the root to the file goes with it. -/
theorem deleteLocal_removesBelow_iff (access : FileAccess) (tree : LocalTree)
    (root file : LocalPath) (hfile : file ∈ tree.files) (hroot : root <+: file)
    (hne : root ≠ file) :
    (RemovesBelow root tree (deleteLocalSyncPath access tree file).2 ↔
      ¬RootGoes access tree root file) ∧
    (RemovesBelow root tree (deleteLocalPath access tree file).2 ↔
      ¬RootGoes access tree root file) :=
  ⟨removeThenPrune_removesBelow_iff hfile hroot hne,
    removeThenPrune_removesBelow_iff hfile hroot hne⟩

end

/-! ### A folder with two files -/

def syncDir : LocalPath := [OsString.ofStr ['s', 'y', 'n', 'c']]

def firstFile : LocalPath := syncDir ++ [OsString.ofStr ['a']]

def lastFile : LocalPath := syncDir ++ [OsString.ofStr ['b']]

def syncFolder : LocalTree where
  dirs := [syncDir]
  files := [firstFile, lastFile]
  parent_mem := by
    intro path hpath
    simp only [List.cons_append, List.nil_append, List.mem_cons, List.not_mem_nil,
      or_false] at hpath
    rcases hpath with rfl | rfl | rfl
    · exact ⟨by decide, by decide⟩
    · exact ⟨by decide, by decide⟩
    · exact ⟨by decide, by decide⟩
  disjoint := by
    intro path hpath
    simp only [List.mem_cons, List.not_mem_nil, or_false] at hpath ⊢
    rcases hpath with rfl | rfl
    · decide
    · decide

def FileAccess.all : FileAccess where
  removeFile := fun _ => .ok ()
  readDir := fun _ => true
  removeDir := fun _ => true

/-- The second file keeps the folder. -/
theorem deleteLocal_removesBelow_iff_two :
    RemovesBelow syncDir syncFolder (deleteLocalSyncPath .all syncFolder firstFile).2 ∧
      RemovesBelow syncDir syncFolder (deleteLocalPath .all syncFolder firstFile).2 := by
  have hstays := deleteLocal_removesBelow_iff .all syncFolder syncDir firstFile
    (List.mem_cons_self ..) (List.prefix_append _ _) (by decide)
  have hkept : ¬RootGoes .all syncFolder syncDir firstFile := by
    rintro ⟨-, -, honly⟩
    obtain ⟨-, -, hentries⟩ :=
      honly syncDir List.prefix_rfl (List.prefix_append _ _) (by decide)
    have hlast : lastFile <+: firstFile :=
      hentries lastFile (by simp [DirTree.entries, syncFolder]) (by decide)
    exact absurd (hlast.eq_of_length (by decide)) (by decide)
  exact ⟨hstays.1.mpr hkept, hstays.2.mpr hkept⟩

/-- With the last file of the synced folder the folder itself is removed. -/
theorem last_file_takes_root :
    let tree := syncFolder.removeFile firstFile
    lastFile ∈ tree.files ∧ syncDir <+: lastFile ∧ syncDir ≠ lastFile ∧
      syncDir ∈ tree.dirs ∧
      (deleteLocalSyncPath .all tree lastFile).2.tree.dirs = [] ∧
      (deleteLocalPath .all tree lastFile).2.tree.dirs = [] ∧
      ¬RemovesBelow syncDir tree (deleteLocalSyncPath .all tree lastFile).2 ∧
      ¬RemovesBelow syncDir tree (deleteLocalPath .all tree lastFile).2 := by
  intro tree
  have hsync : (deleteLocalSyncPath .all tree lastFile).2.tree.dirs = [] := by decide
  have htransfer : (deleteLocalPath .all tree lastFile).2.tree.dirs = [] := by decide
  have hdir : syncDir ∈ tree.dirs := List.mem_cons_self ..
  have hnot : ¬(syncDir <+: syncDir ∧ syncDir ≠ syncDir) := fun h => h.2 rfl
  refine ⟨by decide, List.prefix_append _ _, by decide, hdir, hsync, htransfer, ?_, ?_⟩
  · rintro ⟨-, hkept⟩
    have hmem := hkept syncDir hdir hnot
    rw [hsync] at hmem
    exact List.not_mem_nil hmem
  · rintro ⟨-, hkept⟩
    have hmem := hkept syncDir hdir hnot
    rw [htransfer] at hmem
    exact List.not_mem_nil hmem

end AbixioUi
