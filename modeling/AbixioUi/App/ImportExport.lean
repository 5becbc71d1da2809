import AbixioUi.App.Downloads
import AbixioUi.Foundation.Lossy
import AbixioUi.Sync.Reconcile

/-! # Importing a folder and exporting it again

An import uploads every file below a folder under its relative path, with slashes; an
export downloads what is listed to a path made with backslashes. On Windows the two undo
each other for every name that is well-formed Unicode. On Unix an exported backslash is
part of a file name, and only files directly in the folder come back.
-/

namespace AbixioUi

open Foundation

/-! ## Importing -/

def relativeKey (platform : Platform) (root path : PathBuf) : Except String Str :=
  match path.stripPrefix root with
  | none => .error "prefix not found"
  | some components =>
      .ok (replaceChar '\\' '/' (toStringLossy (renderComponents platform components)))

/-- Unlike for a sync, no slash is put between the prefix and the name. -/
def joinImportKey (keyPrefix relative : Str) : Str :=
  if keyPrefix = [] then relative else keyPrefix ++ relative

def prepareImportItems (platform : Platform) (root : PathBuf) (bucket keyPrefix : Str) :
    List (Except String WalkEntry) → Except String (List TransferItem)
  | [] => .ok []
  | .error error :: _ => .error error
  | .ok entry :: entries =>
      if entry.isDir then prepareImportItems platform root bucket keyPrefix entries
      else do
        let relative ← relativeKey platform root entry.path
        let items ← prepareImportItems platform root bucket keyPrefix entries
        let key := joinImportKey keyPrefix relative
        return {
          source := .local entry.path
          destination := .s3 CURRENT_CONNECTION_ID bucket key } :: items

/-- The key of the file that these names lead to. -/
def importKey (platform : Platform) (keyPrefix : Str) (names : List OsString) : Str :=
  joinImportKey keyPrefix
    (replaceChar '\\' '/' (toStringLossy (renderComponents platform (names.map .normal))))

def importItem (platform : Platform) (root : PathBuf) (bucket keyPrefix : Str)
    (file : LocalFile) : TransferItem where
  source := .local (root.descend file.names)
  destination := .s3 CURRENT_CONNECTION_ID bucket (importKey platform keyPrefix file.names)

/-- A walk finds the files of the tree, among directories. -/
def FileTree.WalkedBy {platform : Platform} (tree : FileTree platform) (root : PathBuf)
    (entries : List WalkEntry) : Prop :=
  entries.filter (fun entry => !entry.isDir) = tree.files.map (LocalFile.entry root)

section

variable {platform : Platform} {root : PathBuf} {bucket keyPrefix : Str}

theorem prepareImportItems_files {files : List LocalFile} {entries : List WalkEntry}
    (h : entries.filter (fun entry => !entry.isDir) = files.map (LocalFile.entry root)) :
    prepareImportItems platform root bucket keyPrefix (entries.map .ok) =
      .ok (files.map (importItem platform root bucket keyPrefix)) := by
  induction entries generalizing files with
  | nil =>
      have hnone : files = [] := by simpa using h.symm
      subst hnone
      rfl
  | cons entry entries ih =>
      cases hdir : entry.isDir with
      | true =>
          rw [List.filter_cons_of_neg (by simp [hdir])] at h
          simp only [List.map_cons, prepareImportItems, hdir, if_true]
          exact ih h
      | false =>
          rw [List.filter_cons_of_pos (by simp [hdir])] at h
          obtain ⟨file, rest, rfl, hentry, hrest⟩ := List.map_eq_cons_iff.mp h.symm
          have hkey : relativeKey platform root entry.path =
              .ok (replaceChar '\\' '/'
                (toStringLossy (renderComponents platform (file.names.map .normal)))) := by
            simp [relativeKey, ← hentry, LocalFile.entry, stripPrefix_descend]
          simp only [List.map_cons, prepareImportItems, hdir, Bool.false_eq_true, if_false, hkey,
            ih hrest.symm, bind, Except.bind, pure, Except.pure]
          rw [← hentry]
          rfl

theorem joinImportKey_eq (relative : Str) :
    joinImportKey keyPrefix relative = keyPrefix ++ relative := by
  unfold joinImportKey
  split
  next hempty => simp [hempty]
  next => rfl

/-! ## What an export makes of an imported key -/

/-- The names joined by backslashes. -/
def backslashed (names : List OsString) : Str := ['\\'].intercalate (names.map toStringLossy)

theorem replaceChar_back (s : Str) :
    replaceChar '/' '\\' (replaceChar '\\' '/' s) = replaceChar '/' '\\' s := by
  unfold replaceChar
  rw [List.map_map]
  refine List.map_congr_left fun c _ => ?_
  by_cases hback : c = '\\'
  · subst hback
    decide
  · simp [hback]

theorem toStringLossy_render (names : List OsString) :
    toStringLossy (renderComponents platform (names.map .normal)) =
      [platform.mainSeparator].intercalate (names.map toStringLossy) := by
  unfold toStringLossy renderComponents
  rw [map_intercalate]
  simp only [List.map_map]
  rfl

/-- What an export joins to its folder for an imported file. -/
theorem exportFragment_importKey {names : List OsString}
    (hnames : ∀ name ∈ names, IsFileName platform name) :
    exportFragment keyPrefix (importKey platform keyPrefix names) = backslashed names := by
  have hpieces : (names.map toStringLossy).map (replaceChar '/' '\\') =
      names.map toStringLossy := by
    rw [List.map_map]
    refine List.map_congr_left fun name hname => ?_
    exact replaceChar_of_not_mem (slash_not_mem_lossy (hnames name hname))
  unfold exportFragment importKey
  rw [joinImportKey_eq, stripPrefix_append, Option.getD_some, replaceChar_back,
    toStringLossy_render, replaceChar_intercalate, hpieces]
  cases platform <;> rfl

theorem head_not_separator {names : List OsString}
    (hnames : ∀ name ∈ names, IsFileName platform name) {c : Char}
    (h : (backslashed names).head? = some c) : platform.isSeparator c = false := by
  cases names with
  | nil => simp [backslashed] at h
  | cons name rest =>
      have hname := (hnames name List.mem_cons_self).lossy
      cases hlossy : toStringLossy name with
      | nil =>
          rw [hlossy] at hname
          exact absurd rfl hname.nonempty
      | cons d text =>
          have hd : d = c := by
            cases rest with
            | nil => simpa [backslashed, hlossy] using h
            | cons next rest =>
                rw [backslashed, List.map_cons, List.intercalate_cons_of_ne_nil (by simp),
                  hlossy] at h
                simpa using h
          have hmem : d ∈ toStringLossy name := by
            rw [hlossy]
            exact List.mem_cons_self
          rw [← hd]
          exact hname.no_sep_of_mem hmem

theorem colon_not_mem_backslashed {names : List OsString}
    (hnames : ∀ name ∈ names, IsFileName platform name) (hwindows : platform = .windows) :
    ':' ∉ backslashed names := by
  intro hcolon
  rcases mem_intercalate hcolon with hsep | ⟨piece, hpiece, hmem⟩
  · exact absurd (List.mem_singleton.mp hsep) (by decide)
  · obtain ⟨name, hname, rfl⟩ := List.mem_map.mp hpiece
    exact (hnames name hname).lossy.no_colon hwindows (List.mem_map_of_mem hmem)

theorem join_backslashed {names : List OsString}
    (hnames : ∀ name ∈ names, IsFileName platform name) (folder : PathBuf) :
    folder.join platform (backslashed names) =
      { folder with components := folder.components ++
          componentsOf platform (backslashed names) } := by
  have hparse : parsePath platform (backslashed names) =
      ⟨none, false, componentsOf platform (backslashed names)⟩ :=
    parsePath_relative (fun c hc => head_not_separator hnames hc) (colon_not_mem_backslashed hnames)
  simp [PathBuf.join, hparse]

/-- Windows takes the backslashes for separators. -/
theorem componentsOf_backslashed_windows {names : List OsString}
    (hnames : ∀ name ∈ names, IsFileName .windows name) :
    componentsOf .windows (backslashed names) =
      names.map fun name => .normal (OsString.ofStr (toStringLossy name)) := by
  have hlossy : ∀ text ∈ names.map toStringLossy, IsFileName .windows (OsString.ofStr text) := by
    intro text htext
    obtain ⟨name, hname, rfl⟩ := List.mem_map.mp htext
    exact (hnames name hname).lossy
  have hparsed := componentsOf_intercalate hlossy
  rw [List.map_map] at hparsed
  exact hparsed

/-- On Unix the names joined by backslashes are one file name. -/
theorem isFileName_backslashed {names : List OsString}
    (hnames : ∀ name ∈ names, IsFileName .unix name) (hne : names ≠ []) :
    IsFileName .unix (OsString.ofStr (backslashed names)) := by
  obtain ⟨name, rest, rfl⟩ := List.exists_cons_of_ne_nil hne
  have hname := (hnames name List.mem_cons_self).lossy
  cases rest with
  | nil => simpa [backslashed] using hname
  | cons next rest =>
      have hback : '\\' ∈ backslashed (name :: next :: rest) := by
        rw [backslashed, List.map_cons, List.intercalate_cons_of_ne_nil (by simp)]
        simp
      have hother : ∀ text : Str, '\\' ∉ text →
          OsString.ofStr (backslashed (name :: next :: rest)) ≠ OsString.ofStr text := by
        intro text hnot heq
        exact hnot (ofStr_injective heq ▸ hback)
      refine ⟨hother [] (by decide), hother _ (by decide), hother _ (by decide), ?_, nofun⟩
      intro c hc
      obtain ⟨d, hd, hdc⟩ := List.mem_map.mp hc
      obtain rfl : d = c := OsUnit.char.inj hdc
      rcases mem_intercalate hd with hsep | ⟨piece, hpiece, hmem⟩
      · rw [List.mem_singleton.mp hsep]
        decide
      · obtain ⟨piece, hmember, rfl⟩ := List.mem_map.mp hpiece
        exact (hnames piece hmember).lossy.no_sep_of_mem hmem

theorem componentsOf_backslashed_unix {names : List OsString}
    (hnames : ∀ name ∈ names, IsFileName .unix name) (hne : names ≠ []) :
    componentsOf .unix (backslashed names) = [.normal (OsString.ofStr (backslashed names))] := by
  have hfile := isFileName_backslashed hnames hne
  unfold componentsOf
  rw [splitAtChars_of_no_sep fun c hc => hfile.no_sep_of_mem hc]
  simp [componentOf_fileName hfile]

/-- What is exported lands where it was imported from, below the folder, exactly if every
name is Unicode and, on Unix, the file lies directly in the folder. -/
theorem join_backslashed_iff {names : List OsString}
    (hnames : ∀ name ∈ names, IsFileName platform name) (folder : PathBuf) :
    folder.join platform (backslashed names) = folder.descend names ↔
      (∀ name ∈ names, ∃ s : Str, name = OsString.ofStr s) ∧
        (platform = .unix → names.length ≤ 1) := by
  rw [join_backslashed hnames, PathBuf.descend, PathBuf.mk.injEq]
  simp only [true_and, List.append_cancel_left_eq]
  cases platform with
  | windows =>
      rw [componentsOf_backslashed_windows hnames, List.map_inj_left]
      simp only [Component.normal.injEq, reduceCtorEq, false_implies, and_true]
      refine forall₂_congr fun name _ => ?_
      rw [← eq_ofStr_iff, eq_comm]
  | unix =>
      cases names with
      | nil => simp [backslashed, componentsOf, splitAtChars, componentOf]
      | cons name rest =>
          rw [componentsOf_backslashed_unix hnames (List.cons_ne_nil _ _)]
          cases rest with
          | nil =>
              have hsingle : backslashed [name] = toStringLossy name := by simp [backslashed]
              simp only [hsingle, List.map_cons, List.map_nil, List.cons.injEq,
                Component.normal.injEq, and_true, List.mem_singleton, forall_eq,
                List.length_singleton, le_refl, implies_true]
              rw [← eq_ofStr_iff, eq_comm]
          | cons next rest => simp

/-! ## Round trips -/

/-- Each imported object that is exported again goes to the file's place in the folder. -/
def ComesBack (root folder : PathBuf) (imported exported : List TransferItem) : Prop :=
  ∀ item ∈ imported, ∀ back ∈ exported, back.source = item.destination →
    ∀ names, item.source = .local (root.descend names) →
      back.destination = .local (folder.descend names)

/-- An import of a folder followed by an export of what is listed, other objects included,
brings every file back to its place exactly if all names are Unicode and, on Unix, no file
lies in a subfolder. -/
theorem import_export_round_trip {platform : Platform} (tree : FileTree platform)
    (root folder : PathBuf) (bucket keyPrefix : Str) (entries : List WalkEntry)
    (hwalk : tree.WalkedBy root entries) (listing : List ObjectInfo)
    (hlisted : ∀ file ∈ tree.files, ∃ object ∈ listing,
      object.key = importKey platform keyPrefix file.names) :
    ∃ imported exported,
      prepareImportItems platform root bucket keyPrefix (entries.map .ok) = .ok imported ∧
      prepareExportItems platform bucket keyPrefix folder (.ok listing) = .ok exported ∧
      imported.map TransferItem.source =
        tree.files.map (fun file => .local (root.descend file.names)) ∧
      (ComesBack root folder imported exported ↔
        ∀ file ∈ tree.files, (∀ name ∈ file.names, ∃ s : Str, name = OsString.ofStr s) ∧
          (platform = .unix → file.names.length ≤ 1)) := by
  refine ⟨_, _, prepareImportItems_files hwalk, prepareExportItems_eq _ _ _, ?_, ?_⟩
  · rw [List.map_map]
    rfl
  · constructor
    · intro hback file hfile
      obtain ⟨object, hobject, hkey⟩ := hlisted file hfile
      have hnames := tree.fileNames file hfile
      have hsame := hback _ (List.mem_map_of_mem hfile) _ (List.mem_map_of_mem hobject)
        (congrArg (TransferEndpoint.s3 CURRENT_CONNECTION_ID bucket) hkey) file.names rfl
      rw [hkey, exportFragment_importKey hnames] at hsame
      exact (join_backslashed_iff hnames folder).mp (TransferEndpoint.local.inj hsame)
    · intro hall item hitem back hmem hsource names hnamed
      obtain ⟨file, hfile, rfl⟩ := List.mem_map.mp hitem
      obtain ⟨object, -, rfl⟩ := List.mem_map.mp hmem
      have hnames := tree.fileNames file hfile
      have hkey : object.key = importKey platform keyPrefix file.names :=
        (TransferEndpoint.s3.inj hsource).2.2
      have hpath : file.names = names := descend_injective root (TransferEndpoint.local.inj hnamed)
      rw [hkey, exportFragment_importKey hnames, ← hpath]
      exact congrArg TransferEndpoint.local
        ((join_backslashed_iff hnames folder).mpr (hall file hfile))

theorem isFileName_ofStr {text : Str} (hne : text ≠ []) (hdot : text ≠ ['.'])
    (hdotdot : text ≠ ['.', '.'])
    (hchars : text.all (fun c => !platform.isSeparator c && c != ':') = true) :
    IsFileName platform (OsString.ofStr text) := by
  have hmem : ∀ c, .char c ∈ OsString.ofStr text → platform.isSeparator c = false ∧ c ≠ ':' := by
    intro c hc
    obtain ⟨d, hd, hdc⟩ := List.mem_map.mp hc
    obtain rfl : d = c := OsUnit.char.inj hdc
    simpa using List.all_eq_true.mp hchars d hd
  exact ⟨fun hnil => hne (List.map_eq_nil_iff.mp hnil), fun heq => hdot (ofStr_injective heq),
    fun heq => hdotdot (ofStr_injective heq), fun c hc => (hmem c hc).1,
    fun _ hc => (hmem ':' hc).2 rfl⟩

/-- `docs\readme.txt`. -/
def docsTree (platform : Platform) : FileTree platform where
  files := [⟨["docs".toList, "readme.txt".toList].map OsString.ofStr, ⟨5, none⟩⟩]
  fileNames := by
    intro file hfile name hname
    rw [List.mem_singleton.mp hfile] at hname
    obtain ⟨text, htext, rfl⟩ := List.mem_map.mp hname
    have htexts : text = "docs".toList ∨ text = "readme.txt".toList := by simpa using htext
    rcases htexts with rfl | rfl <;> cases platform <;>
      exact isFileName_ofStr (by decide) (by decide) (by decide) (by decide)

/-- The walk of the folder shows the folders too. -/
def docsWalk (platform : Platform) : List WalkEntry :=
  ⟨downloadsFolder, true, .error "not read"⟩ ::
    (docsTree platform).files.map (LocalFile.entry downloadsFolder)

theorem import_export_round_trip_docs :
    ∃ imported exported,
      prepareImportItems .windows downloadsFolder "bucket-a".toList "prefix/".toList
        ((docsWalk .windows).map .ok) = .ok imported ∧
      prepareExportItems .windows "bucket-a".toList "prefix/".toList downloadsFolder
        (.ok [⟨"prefix/docs/readme.txt".toList, 5, [], []⟩]) = .ok exported ∧
      ComesBack downloadsFolder downloadsFolder imported exported := by
  obtain ⟨imported, exported, himported, hexported, -, hiff⟩ :=
    import_export_round_trip (docsTree .windows) downloadsFolder downloadsFolder
      "bucket-a".toList "prefix/".toList (docsWalk .windows) rfl
      [⟨"prefix/docs/readme.txt".toList, 5, [], []⟩] (by
        intro file hfile
        rw [List.mem_singleton.mp hfile]
        exact ⟨_, List.mem_singleton_self _, by decide⟩)
  refine ⟨imported, exported, himported, hexported, hiff.mpr fun file hfile => ⟨?_, nofun⟩⟩
  intro name hname
  rw [List.mem_singleton.mp hfile] at hname
  obtain ⟨text, -, rfl⟩ := List.mem_map.mp hname
  exact ⟨text, rfl⟩

/-! ## The keys of an import and of a sync -/

theorem importKey_eq (names : List OsString) :
    importKey platform keyPrefix names = keyPrefix ++
      replaceChar '\\' '/' (toStringLossy (renderComponents platform (names.map .normal))) :=
  joinImportKey_eq _

/-- What a listing shows for an imported file is the path that a sync gives it. -/
theorem listedPath_importKey (names : List OsString) :
    listedPath keyPrefix (importKey platform keyPrefix names) = relativeNames platform names := by
  rw [importKey_eq, listedPath, stripPrefix_append, Option.getD_some]
  rfl

/-- Files with plain names that go to one key are one file. -/
theorem importKey_injective {names names' : List OsString}
    (hnames : ∀ name ∈ names, IsFileName platform name ∧ IsPlainName name)
    (hnames' : ∀ name ∈ names', IsFileName platform name ∧ IsPlainName name)
    (h : importKey platform keyPrefix names = importKey platform keyPrefix names') :
    names = names' := by
  have hrelative : relativeNames platform names = relativeNames platform names' := by
    have hlisted : listedPath keyPrefix (importKey platform keyPrefix names) =
        relativeNames platform names := listedPath_importKey names
    rw [← hlisted, h, listedPath_importKey]
  have hjoin := (join_relativeNames_iff (fun name hname => (hnames name hname).1)
    .empty).mpr fun name hname => (hnames name hname).2
  have hjoin' := (join_relativeNames_iff (fun name hname => (hnames' name hname).1)
    .empty).mpr fun name hname => (hnames' name hname).2
  rw [hrelative] at hjoin
  exact descend_injective .empty (hjoin.symm.trans hjoin')

/-- On Windows no imported path starts with a slash. -/
theorem importKey_rest_head? {names : List OsString}
    (hnames : ∀ name ∈ names, IsFileName .windows name) :
    ((importKey .windows keyPrefix names).drop keyPrefix.length).head? ≠ some '/' := by
  rw [importKey_eq, List.drop_left, toStringLossy_render]
  intro hhead
  have hback : ∀ c, (backslashed names).head? = some c → c ≠ '\\' := by
    intro c hc hsep
    have hnot := head_not_separator hnames hc
    rw [hsep] at hnot
    exact absurd hnot (by decide)
  have hslash : ∀ c, (backslashed names).head? = some c → c ≠ '/' := by
    intro c hc hsep
    have hnot := head_not_separator hnames hc
    rw [hsep] at hnot
    exact absurd hnot (by decide)
  change (replaceChar '\\' '/' (backslashed names)).head? = some '/' at hhead
  cases htext : backslashed names with
  | nil => simp [htext, replaceChar] at hhead
  | cons c rest =>
      have hc := hback c (by rw [htext]; rfl)
      rw [htext, replaceChar_cons, if_neg hc] at hhead
      exact hslash c (by rw [htext]; rfl) (Option.some.inj hhead)

theorem rebuildableKey_windows_iff {names : List OsString}
    (hnames : ∀ name ∈ names, IsFileName .windows name) :
    RebuildableKey keyPrefix (importKey .windows keyPrefix names) ↔
      keyPrefix = [] ∨ endsWith '/' keyPrefix = true := by
  have hhead : ((importKey .windows keyPrefix names).drop keyPrefix.length).head? ≠ some '/' :=
    importKey_rest_head? hnames
  unfold RebuildableKey
  by_cases hplain : keyPrefix = [] ∨ endsWith '/' keyPrefix = true
  · simp only [hplain, if_true, iff_true]
    exact hhead
  · simp only [hplain, if_false, iff_false]
    exact fun h => hhead h.1

/-- An import puts a file where a sync of the same folder to the same prefix puts it exactly
if a sync could rebuild that key; on Windows this is a matter of the prefix alone, which has
to be empty or end in a slash. Files with plain names never share a key. -/
theorem import_agrees_with_sync (tree : FileTree platform) (root : PathBuf) (sync : SyncState)
    (hkind : sync.destinationKind = .s3)
    (hconnection : sync.destinationConnectionId = CURRENT_CONNECTION_ID) :
    (∀ file ∈ tree.files,
      buildTransferEndpoint platform sync false (relativeNames platform file.names) =
          .ok (importItem platform root sync.destinationBucket sync.destinationPrefix
            file).destination ↔
        RebuildableKey sync.destinationPrefix
          (importKey platform sync.destinationPrefix file.names)) ∧
    (platform = .windows → ∀ file ∈ tree.files,
      buildTransferEndpoint platform sync false (relativeNames platform file.names) =
          .ok (importItem platform root sync.destinationBucket sync.destinationPrefix
            file).destination ↔
        sync.destinationPrefix = [] ∨ endsWith '/' sync.destinationPrefix = true) ∧
    (∀ file ∈ tree.files, ∀ other ∈ tree.files, (∀ name ∈ file.names, IsPlainName name) →
      (∀ name ∈ other.names, IsPlainName name) → file.names ≠ other.names →
      (importItem platform root sync.destinationBucket sync.destinationPrefix file).destination ≠
        (importItem platform root sync.destinationBucket sync.destinationPrefix
          other).destination) := by
  have hagrees : ∀ file ∈ tree.files,
      buildTransferEndpoint platform sync false (relativeNames platform file.names) =
          .ok (importItem platform root sync.destinationBucket sync.destinationPrefix
            file).destination ↔
        RebuildableKey sync.destinationPrefix
          (importKey platform sync.destinationPrefix file.names) := by
    intro file hfile
    have hunder : sync.destinationPrefix <+:
        importKey platform sync.destinationPrefix file.names := by
      rw [importKey_eq]
      exact List.prefix_append _ _
    rw [← joinS3Key_listedPath_iff hunder, listedPath_importKey,
      buildTransferEndpoint_destination hkind]
    simp [destinationObject, importItem, hconnection]
  refine ⟨hagrees, ?_, ?_⟩
  · rintro rfl file hfile
    rw [hagrees file hfile]
    exact rebuildableKey_windows_iff (tree.fileNames file hfile)
  · intro file hfile other hother hplain hplain' hne hsame
    have hkey : importKey platform sync.destinationPrefix file.names =
        importKey platform sync.destinationPrefix other.names :=
      (TransferEndpoint.s3.inj hsame).2.2
    have hnames := tree.fileNames file hfile
    have hnames' := tree.fileNames other hother
    exact hne (importKey_injective (fun name hname => ⟨hnames name hname, hplain name hname⟩)
      (fun name hname => ⟨hnames' name hname, hplain' name hname⟩) hkey)

end

/-- A sync to the prefix `site/`. -/
def siteSync : SyncState :=
  { SyncState.new CURRENT_CONNECTION_ID with destinationPrefix := "site/".toList }

/-- The file goes to `site/docs/readme.txt` in both ways. -/
theorem import_agrees_with_sync_docs :
    (docsTree .windows).files ≠ [] ∧ ∀ file ∈ (docsTree .windows).files,
      buildTransferEndpoint .windows siteSync false (relativeNames .windows file.names) =
        .ok (importItem .windows downloadsFolder [] "site/".toList file).destination := by
  have hwindows := (import_agrees_with_sync (docsTree .windows) downloadsFolder siteSync
    rfl rfl).2.1 rfl
  exact ⟨nofun, fun file hfile => (hwindows file hfile).mpr (.inr (by decide))⟩

end AbixioUi
