import AbixioUi.Sync.Enumerate
import AbixioUi.Sync.Planner
import AbixioUi.Sync.RunPlan

/-! # From listed objects to addresses and back

Listing shortens an address to a relative path; execution rebuilds an address
from it. The contents of an endpoint carry what the server and the file system
guarantee, so every listed object has a known address to compare against.
-/

namespace AbixioUi

open Foundation

/-! ## Contents of an endpoint -/

/-- What a server lists under a prefix. -/
structure BucketListing (keyPrefix : Str) where
  objects : List ObjectInfo
  under : ∀ object ∈ objects, keyPrefix <+: object.key

structure LocalFile where
  names : List OsString
  metadata : FileMetadata

/-- The files a walk finds below its root, by the names leading to them. -/
structure FileTree (platform : Platform) where
  files : List LocalFile
  fileNames : ∀ file ∈ files, ∀ name ∈ file.names, IsFileName platform name

inductive EndpointContents (platform : Platform) (params : EndpointParams) where
  | s3 (hkind : params.kind = .s3) (bucket : BucketListing params.keyPrefix)
  | local (root : PathBuf) (hkind : params.kind = .local) (hroot : params.localPath = some root)
      (tree : FileTree platform)

/-- A listed object together with the address it was listed at. -/
structure ListedObject where
  object : SyncObject
  address : TransferEndpoint
deriving DecidableEq, Repr

/-- A file's path below its root, as the walk shows it. -/
def relativeNames (platform : Platform) (names : List OsString) : Str :=
  normalizeRelativePath (toStringLossy (renderComponents platform (names.map .normal)))

def LocalFile.listed (time : TimeCodec) (platform : Platform) (root : PathBuf)
    (file : LocalFile) : ListedObject where
  object :=
    { relativePath := relativeNames platform file.names
      size := file.metadata.len
      modified := file.metadata.modified.bind time.format
      etag := none
      isDirMarker := false }
  address := .local (root.descend file.names)

def ObjectInfo.listed (params : EndpointParams) (info : ObjectInfo) : ListedObject where
  object := info.toSyncObject params.keyPrefix
  address := .s3 params.connectionId params.bucket info.key

namespace EndpointContents

variable {platform : Platform} {params : EndpointParams}

def listed (time : TimeCodec) : EndpointContents platform params → List ListedObject
  | .s3 _ bucket => bucket.objects.map (ObjectInfo.listed params)
  | .local root _ _ tree => tree.files.map (LocalFile.listed time platform root)

def listing (time : TimeCodec) (contents : EndpointContents platform params) : List SyncObject :=
  (contents.listed time).map ListedObject.object

end EndpointContents

theorem listing_s3 (time : TimeCodec) {platform : Platform} {params : EndpointParams}
    (hkind : params.kind = .s3) (bucket : BucketListing params.keyPrefix) :
    (.s3 hkind bucket : EndpointContents platform params).listing time =
      listObjectsRecursiveForSync params.keyPrefix bucket.objects := by
  simp [EndpointContents.listing, EndpointContents.listed, listObjectsRecursiveForSync,
    ObjectInfo.listed]

/-- The walk's entry for a file. -/
def LocalFile.entry (root : PathBuf) (file : LocalFile) : WalkEntry where
  path := root.descend file.names
  isDir := false
  metadata := .ok file.metadata

theorem walkListing_files (time : TimeCodec) (platform : Platform) (root : PathBuf)
    (files : List LocalFile) :
    walkListing time platform root (files.map fun file => .ok (file.entry root)) =
      .ok (files.map fun file => (file.listed time platform root).object) := by
  induction files with
  | nil => rfl
  | cons file files ih =>
      have hentry : (file.entry root).toSyncObject time platform root =
          .ok (file.listed time platform root).object := by
        simp [WalkEntry.toSyncObject, LocalFile.entry, relativePath, stripPrefix_descend,
          LocalFile.listed, relativeNames, bind, Except.bind, pure, Except.pure]
      simp only [List.map_cons, walkListing, hentry, ih]
      rfl

section

variable {time : TimeCodec} {filters : SyncFilterSet} {clock : Nat → ClockReadings}
  {kept : List SyncObject} {platform : Platform}

theorem enumerated_files {root : PathBuf} {files : List LocalFile}
    (h : filterListing time filters clock
      (files.map fun file => (file.listed time platform root).object) = some kept) :
    Enumerated time filters (files.map fun file => (file.listed time platform root).object)
      kept := by
  have hwalk := walkListing_files time platform root files
  have hpassed : enumerateLocalForSync time platform root filters clock
      (files.map fun file => .ok (file.entry root)) = some (.ok kept) := by
    rw [enumerateLocalForSync_eq_filterListing hwalk, h]
    rfl
  exact .local hwalk hpassed

/-- The enumeration of a side passes on its listing, filtered. -/
theorem EndpointContents.enumerated {params : EndpointParams}
    {contents : EndpointContents platform params}
    (h : filterListing time filters clock (contents.listing time) = some kept) :
    Enumerated time filters (contents.listing time) kept := by
  cases contents with
  | s3 hkind bucket =>
      rw [listing_s3] at h ⊢
      exact .s3 h
  | «local» root hkind hroot tree =>
      simp only [EndpointContents.listing, EndpointContents.listed, List.map_map] at h ⊢
      exact enumerated_files h

end

/-! ## Keys -/

/-- What follows the prefix of a listed key is what joining puts back. -/
def RebuildableKey (keyPrefix key : Str) : Prop :=
  let rest := key.drop keyPrefix.length
  if keyPrefix = [] ∨ endsWith '/' keyPrefix = true then rest.head? ≠ some '/'
  else rest.head? = some '/' ∧ rest.tail.head? ≠ some '/'

theorem joinS3Key_listedPath_iff {keyPrefix key : Str} (h : keyPrefix <+: key) :
    joinS3Key keyPrefix (listedPath keyPrefix key) = key ↔ RebuildableKey keyPrefix key := by
  obtain ⟨rest, rfl⟩ := h
  have hlisted : listedPath keyPrefix (keyPrefix ++ rest) = trimStartMatches '/' rest := by
    simp [listedPath]
  rw [hlisted]
  unfold joinS3Key RebuildableKey
  simp only [List.drop_left]
  by_cases hempty : keyPrefix = []
  · subst hempty
    simp [trimStartMatches_eq_self]
  by_cases hslash : endsWith '/' keyPrefix = true
  · simp [hempty, hslash, trimStartMatches_eq_self]
  · rw [if_neg hempty, if_neg hslash, if_neg (by simp [hempty, hslash]),
      List.append_cancel_left_eq]
    constructor
    · intro hrest
      rw [← hrest]
      exact ⟨rfl, trimStartMatches_head? '/' rest⟩
    · rintro ⟨hhead, htail⟩
      cases rest with
      | nil => simp at hhead
      | cons c rest =>
          obtain rfl : c = '/' := by simpa using hhead
          rw [trimStartMatches_cons_self]
          exact congrArg _ (trimStartMatches_eq_self.mpr htail)

/-! ## File names -/

theorem relativeNames_head? (platform : Platform) (names : List OsString) :
    (relativeNames platform names).head? ≠ some '/' :=
  trimStartMatches_head? _ _

theorem mem_relativeNames {platform : Platform} {names : List OsString} {c : Char}
    (h : c ∈ relativeNames platform names) :
    c ≠ '\\' ∧ (c = '/' ∨ ∃ name ∈ names, c ∈ toStringLossy name) := by
  have hc := List.dropWhile_subset _ h
  have hne : c ≠ '\\' := by
    rintro rfl
    exact not_mem_replaceChar (by decide) _ hc
  refine ⟨hne, ?_⟩
  rcases mem_replaceChar hc with rfl | hc
  · exact .inl rfl
  · obtain ⟨unit, hunit, rfl⟩ := List.mem_map.mp hc
    rcases mem_intercalate hunit with hsep | ⟨piece, hpiece, hmem⟩
    · obtain rfl : unit = .char platform.mainSeparator := by simpa using hsep
      cases platform with
      | unix => exact .inl rfl
      | windows => exact absurd rfl hne
    · obtain ⟨component, hcomponent, rfl⟩ := List.mem_map.mp hpiece
      obtain ⟨name, hname, rfl⟩ := List.mem_map.mp hcomponent
      exact .inr ⟨name, hname, List.mem_map_of_mem hmem⟩

/-- Names that lossy decoding and separator replacement keep are joined by slashes. -/
theorem relativeNames_ofStr {platform : Platform} {names : List Str}
    (hfile : ∀ name ∈ names, IsFileName platform (OsString.ofStr name))
    (hplain : ∀ name ∈ names, '\\' ∉ name) :
    relativeNames platform (names.map OsString.ofStr) = ['/'].intercalate names := by
  have hrender : toStringLossy (renderComponents platform
      ((names.map OsString.ofStr).map .normal)) = [platform.mainSeparator].intercalate names := by
    unfold toStringLossy renderComponents
    rw [map_intercalate]
    simp only [List.map_map]
    congr 1
    conv_rhs => rw [← List.map_id names]
    refine List.map_congr_left fun name _ => ?_
    exact toStringLossy_ofStr name
  have hreplace : replaceChar '\\' '/' ([platform.mainSeparator].intercalate names) =
      ['/'].intercalate names := by
    rw [replaceChar_intercalate]
    congr 1
    · cases platform <;> rfl
    · conv_rhs => rw [← List.map_id names]
      exact List.map_congr_left fun name hname => replaceChar_of_not_mem (hplain name hname)
  unfold relativeNames normalizeRelativePath
  rw [hrender, hreplace, trimStartMatches_eq_self]
  cases names with
  | nil => simp
  | cons name names =>
      have hname := hfile name (by simp)
      cases name with
      | nil => exact absurd rfl hname.nonempty
      | cons c name =>
          have hc : c ≠ '/' := by
            rintro rfl
            have := hname.no_sep_of_mem (c := '/') (by simp)
            cases platform <;> simp [Platform.isSeparator] at this
          by_cases hrest : names = []
          · subst hrest
            simpa using hc
          · rw [List.intercalate_cons_of_ne_nil hrest]
            simpa using hc

/-- The fragment that execution joins to the root. -/
def fragmentOf (platform : Platform) (relativePath : Str) : Str :=
  replaceChar '/' platform.mainSeparator relativePath

theorem parsePath_fragment {platform : Platform} {names : List OsString}
    (hfile : ∀ name ∈ names, IsFileName platform name) :
    parsePath platform (fragmentOf platform (relativeNames platform names)) =
      ⟨none, false, componentsOf platform
        (fragmentOf platform (relativeNames platform names))⟩ := by
  refine parsePath_relative ?_ ?_
  · intro c hhead
    cases hrel : relativeNames platform names with
    | nil => simp [fragmentOf, hrel, replaceChar] at hhead
    | cons first rest =>
        have hslash : first ≠ '/' := by
          have := relativeNames_head? platform names
          simpa [hrel] using this
        have hmem : first ∈ relativeNames platform names := by simp [hrel]
        have hback : first ≠ '\\' := (mem_relativeNames hmem).1
        obtain rfl : first = c := by
          simpa [fragmentOf, replaceChar_cons, hrel, hslash] using hhead
        cases platform <;> simp [Platform.isSeparator, hslash, hback]
  · rintro rfl hcolon
    rcases mem_replaceChar hcolon with hsep | hrel
    · exact absurd hsep (by decide)
    · rcases (mem_relativeNames hrel).2 with hslash | ⟨name, hname, hlossy⟩
      · exact absurd hslash (by decide)
      · obtain ⟨unit, hunit, hchar⟩ := List.mem_map.mp hlossy
        cases unit with
        | char c =>
            obtain rfl : c = ':' := hchar
            exact (hfile name hname).no_colon rfl hunit
        | illFormed raw =>
            have hreplacement : '\uFFFD' = ':' := hchar
            exact absurd hreplacement (by decide)

/-- A file's path is rebuilt exactly when all its names are plain. -/
theorem join_relativeNames_iff {platform : Platform} {names : List OsString}
    (hfile : ∀ name ∈ names, IsFileName platform name) (root : PathBuf) :
    root.join platform (fragmentOf platform (relativeNames platform names)) =
      root.descend names ↔ ∀ name ∈ names, IsPlainName name := by
  have hjoin : root.join platform (fragmentOf platform (relativeNames platform names)) =
      { root with components := root.components ++
          componentsOf platform (fragmentOf platform (relativeNames platform names)) } := by
    simp [PathBuf.join, parsePath_fragment hfile]
  rw [hjoin, PathBuf.descend, PathBuf.mk.injEq]
  simp only [true_and, List.append_cancel_left_eq]
  constructor
  · intro hcomponents name hname
    have hmem : Component.normal name ∈
        componentsOf platform (fragmentOf platform (relativeNames platform names)) := by
      rw [hcomponents]
      exact List.mem_map_of_mem hname
    obtain ⟨piece, rfl, hchars, hnosep⟩ := normal_mem_componentsOf hmem
    refine ⟨piece, rfl, fun hback => ?_⟩
    -- a backslash is a separator on Windows and never reaches the fragment on Unix
    cases platform with
    | windows => exact absurd (hnosep _ hback) (by decide)
    | unix =>
        rcases mem_replaceChar (hchars _ hback) with hsep | hrel
        · exact absurd hsep (by decide)
        · exact (mem_relativeNames hrel).1 rfl
  · intro hplain
    obtain ⟨texts, rfl⟩ : ∃ texts : List Str, names = texts.map OsString.ofStr := by
      choose! text htext using hplain
      refine ⟨names.map text, ?_⟩
      conv_lhs => rw [← List.map_id names]
      rw [List.map_map]
      exact List.map_congr_left fun name hname => (htext name hname).1
    have hfile' : ∀ text ∈ texts, IsFileName platform (OsString.ofStr text) :=
      fun text htext => hfile _ (List.mem_map_of_mem htext)
    have hback : ∀ text ∈ texts, '\\' ∉ text := by
      intro text htext
      obtain ⟨plain, hsame, hno⟩ := hplain _ (List.mem_map_of_mem htext)
      rwa [ofStr_injective hsame]
    have hfragment : fragmentOf platform (['/'].intercalate texts) =
        [platform.mainSeparator].intercalate texts := by
      unfold fragmentOf
      rw [replaceChar_intercalate, if_pos rfl]
      congr 1
      conv_rhs => rw [← List.map_id texts]
      refine List.map_congr_left fun text htext => replaceChar_of_not_mem fun hslash => ?_
      have := (hfile' text htext).no_sep_of_mem hslash
      cases platform <;> simp [Platform.isSeparator] at this
    rw [relativeNames_ofStr hfile' hback, hfragment, componentsOf_intercalate hfile', List.map_map]
    rfl

/-! ## Whole endpoints -/

/-- Every listed key, or every name below the root, survives the way to a relative
path and back. -/
def EndpointContents.Rebuildable {platform : Platform} {params : EndpointParams} :
    EndpointContents platform params → Prop
  | .s3 _ bucket => ∀ info ∈ bucket.objects, RebuildableKey params.keyPrefix info.key
  | .local _ _ _ tree => ∀ file ∈ tree.files, ∀ name ∈ file.names, IsPlainName name

theorem address_listed_iff {platform : Platform} {params : EndpointParams} (time : TimeCodec)
    (contents : EndpointContents platform params) :
    (∀ listed ∈ contents.listed time,
        params.address platform listed.object.relativePath = .ok listed.address) ↔
      contents.Rebuildable := by
  cases contents with
  | s3 hkind bucket =>
      have hkey : ∀ info ∈ bucket.objects,
          params.address platform (info.listed params).object.relativePath =
              .ok (info.listed params).address ↔ RebuildableKey params.keyPrefix info.key := by
        intro info hinfo
        rw [← joinS3Key_listedPath_iff (bucket.under info hinfo)]
        simp [EndpointParams.address, hkind, ObjectInfo.listed, ObjectInfo.toSyncObject]
      simp only [EndpointContents.listed, List.forall_mem_map, EndpointContents.Rebuildable]
      exact forall₂_congr hkey
  | «local» root hkind hroot tree =>
      have hfile : ∀ file ∈ tree.files,
          params.address platform (file.listed time platform root).object.relativePath =
              .ok (file.listed time platform root).address ↔
            ∀ name ∈ file.names, IsPlainName name := by
        intro file hmem
        rw [← join_relativeNames_iff (tree.fileNames file hmem) root]
        simp [EndpointParams.address, hkind, hroot, LocalFile.listed, fragmentOf]
      simp only [EndpointContents.listed, List.forall_mem_map, EndpointContents.Rebuildable]
      exact forall₂_congr hfile

/-- The address laws of a sync: what execution rebuilds is what was listed, no two
listed objects share a relative path, and every run plan made from listed objects
reads and deletes listed objects only. -/
structure AddressesFaithful (platform : Platform) (time : TimeCodec) (sync : SyncState)
    (source : EndpointContents platform (syncEndpointParams sync true))
    (destination : EndpointContents platform (syncEndpointParams sync false)) : Prop where
  source_rebuilt : ∀ listed ∈ source.listed time,
    buildTransferEndpoint platform sync true listed.object.relativePath = .ok listed.address
  destination_rebuilt : ∀ listed ∈ destination.listed time,
    buildTransferEndpoint platform sync false listed.object.relativePath = .ok listed.address
  source_distinct : ∀ listed ∈ source.listed time, ∀ other ∈ source.listed time,
    listed.address ≠ other.address → listed.object.relativePath ≠ other.object.relativePath
  destination_distinct : ∀ listed ∈ destination.listed time,
    ∀ other ∈ destination.listed time,
      listed.address ≠ other.address → listed.object.relativePath ≠ other.object.relativePath
  runs_on_listed : ∀ sourceKept destinationKept mode policy compareMode runPlan,
    sourceKept ⊆ source.listing time → destinationKept ⊆ destination.listing time →
    prepareSyncRunPlan platform sync
      (buildSyncPlan sourceKept destinationKept mode policy compareMode) = .ok runPlan →
    (∀ item ∈ runPlan.transfers, ∃ listed ∈ source.listed time, listed.address = item.source) ∧
      ∀ item ∈ runPlan.deletes,
        ∃ listed ∈ destination.listed time, listed.address = item.destination

section Faithful

variable {platform : Platform} {time : TimeCodec} {sync : SyncState}
variable {params : EndpointParams} {contents : EndpointContents platform params}

theorem distinct_of_rebuilt
    (h : ∀ listed ∈ contents.listed time,
      params.address platform listed.object.relativePath = .ok listed.address) :
    ∀ listed ∈ contents.listed time, ∀ other ∈ contents.listed time,
      listed.address ≠ other.address →
        listed.object.relativePath ≠ other.object.relativePath := by
  intro listed hlisted other hother hne hpath
  have hsame : (.ok listed.address : Except String TransferEndpoint) = .ok other.address := by
    rw [← h listed hlisted, ← h other hother, hpath]
  exact hne (Except.ok.inj hsame)

/-- A relative path of a kept object leads back to the listed address. -/
theorem listed_of_kept
    (h : ∀ listed ∈ contents.listed time,
      params.address platform listed.object.relativePath = .ok listed.address)
    {kept : List SyncObject} (hkept : kept ⊆ contents.listing time) {path : Str}
    {object : SyncObject} (hobject : (SyncObjectMap.ofListing kept)[path]? = some object)
    {address : TransferEndpoint} (haddress : params.address platform path = .ok address) :
    ∃ listed ∈ contents.listed time, listed.address = address := by
  obtain ⟨hmem, rfl⟩ := mem_of_ofListing_eq_some hobject
  obtain ⟨listed, hlisted, rfl⟩ := List.mem_map.mp (hkept hmem)
  refine ⟨listed, hlisted, ?_⟩
  rw [h listed hlisted] at haddress
  exact Except.ok.inj haddress

end Faithful

/-- The address laws hold exactly when both sides are rebuildable. -/
theorem addressesFaithful_iff (platform : Platform) (time : TimeCodec) (sync : SyncState)
    (source : EndpointContents platform (syncEndpointParams sync true))
    (destination : EndpointContents platform (syncEndpointParams sync false)) :
    AddressesFaithful platform time sync source destination ↔
      source.Rebuildable ∧ destination.Rebuildable := by
  constructor
  · intro h
    refine ⟨(address_listed_iff time source).mp ?_, (address_listed_iff time destination).mp ?_⟩
    · intro listed hlisted
      rw [← buildTransferEndpoint_eq]
      exact h.source_rebuilt listed hlisted
    · intro listed hlisted
      rw [← buildTransferEndpoint_eq]
      exact h.destination_rebuilt listed hlisted
  · rintro ⟨hsource, hdestination⟩
    have hs := (address_listed_iff time source).mpr hsource
    have hd := (address_listed_iff time destination).mpr hdestination
    refine ⟨?_, ?_, distinct_of_rebuilt hs, distinct_of_rebuilt hd, ?_⟩
    · intro listed hlisted
      rw [buildTransferEndpoint_eq]
      exact hs listed hlisted
    · intro listed hlisted
      rw [buildTransferEndpoint_eq]
      exact hd listed hlisted
    · intro sourceKept destinationKept mode policy compareMode runPlan hsub hdsub hprepare
      constructor
      · intro item hitem
        obtain ⟨planItem, hplan, haction, hrun⟩ := mem_runPlan_transfers hprepare hitem
        obtain ⟨-, -, -, haddress, -, -⟩ := transferRunItem_ok hrun
        obtain ⟨hlookup, -, hdecision⟩ := buildSyncPlan_item_spec hplan
        obtain ⟨object, hobject⟩ :=
          Option.isSome_iff_exists.mp (isSome_of_planDecision_transfers hdecision haction)
        exact listed_of_kept hs hsub (hlookup ▸ hobject) haddress
      · intro item hitem
        obtain ⟨planItem, hplan, haction, hrun⟩ := mem_runPlan_deletes hprepare hitem
        obtain ⟨-, -, -, -, haddress⟩ := deleteRunItem_ok hrun
        obtain ⟨-, hlookup, hdecision⟩ := buildSyncPlan_item_spec hplan
        rw [haction, planDecision_delete_iff] at hdecision
        obtain ⟨object, hobject⟩ := Option.isSome_iff_exists.mp hdecision.2.1
        exact listed_of_kept hd hdsub (hlookup ▸ hobject) haddress

/-! ## A prefix that ends inside a path component -/

def logsSync : SyncState :=
  { SyncState.betweenBuckets "photos".toList "backup".toList with sourcePrefix := "logs".toList }

/-- A key of the sibling `logs-old` is listed below `logs` and rebuilt with a slash
that the key never had. -/
theorem sibling_key_not_rebuilt :
    ¬ ∀ (platform : Platform) (time : TimeCodec) (sync : SyncState)
      (source : EndpointContents platform (syncEndpointParams sync true))
      (destination : EndpointContents platform (syncEndpointParams sync false)),
      AddressesFaithful platform time sync source destination := by
  intro h
  have hfaithful := h .unix noTimes logsSync
    (.s3 rfl ⟨[⟨"logs-old/x".toList, 1, [], []⟩], by decide⟩) (.s3 rfl ⟨[], by simp⟩)
  have hrebuilt := hfaithful.source_rebuilt
    ⟨⟨"-old/x".toList, 1, none, none, false⟩,
      .s3 CURRENT_CONNECTION_ID "photos".toList "logs-old/x".toList⟩ (by decide)
  exact absurd hrebuilt (by decide)

end AbixioUi
